import Lwm2mClient.Log

/-!
The gate of bootstrap sessions. At most one session is open, only its peer is let in, and the end
of a session is announced to the one who waits for it. A session has a completion, kept until
somebody waits for it and held by the waiter from then on; closing the session drops a completion
that nobody holds. A store that fails in the middle of a purge leaves the gate broken for good.
-/
namespace Lwm2mClient

open Net

inductive Session where
  | closed
  | active (peer : ServerInfo) (number : Nat)
  /-- The session that was open when the store failed. -/
  | broken (number : Nat)
  deriving DecidableEq

/-- Whether the session with a number was finished. -/
structure Completion where
  session : Nat
  finished : Bool
  deriving DecidableEq

structure Gate where
  session : Session := .closed
  /-- How many sessions were opened so far; the latest has this number. -/
  opened : Nat := 0
  /-- The completion that nobody has waited for yet. -/
  unclaimed : Option Completion := none
  /-- The completions that somebody is waiting for. -/
  claimed : List Completion := []
  deriving DecidableEq

/-- The outcome of a gate operation, with what is reported of it. -/
structure Gate.Outcome (α : Type) where
  gate : Gate
  result : α
  lines : List Log.Line := []

namespace Gate

def isActive (g : Gate) : Bool :=
  match g.session with
  | .active .. => true
  | _ => false

/-- The server with which the session was opened. -/
def peer (g : Gate) : Option ServerInfo :=
  match g.session with
  | .active peer _ => some peer
  | _ => none

/-- Opens a session unless one is open. -/
def tryOpen (g : Gate) (peer : ServerInfo) : Outcome Bool :=
  match g.session with
  | .closed =>
    let number := g.opened + 1
    { gate := { g with
        session := .active peer number, opened := number, unclaimed := some ⟨number, false⟩ }
      result := true
      lines := [.sessionOpened peer.uri] }
  | .active .. => { gate := g, result := false, lines := [.sessionRefused peer.uri] }
  | .broken _ => { gate := g, result := false }

/-- Closes the session, whatever its progress. -/
def close (g : Gate) : Outcome Unit :=
  match g.session with
  | .closed => { gate := { g with unclaimed := none }, result := () }
  | .active .. =>
    { gate := { g with session := .closed, unclaimed := none }
      result := ()
      lines := [.sessionClosed] }
  | .broken _ => { gate := g, result := () }

/-- The number of the session that a message is let into, peers being compared by their internet
address alone. -/
def letIn (g : Gate) (sender : SocketAddress) : Except Rejection Nat :=
  match g.session with
  | .active peer number =>
    if peer.address.any fun address => address.ip = sender.ip then .ok number
    else .error .notFromBootstrapServer
  | _ => .error .noPendingSession

/-- A completion once the session with a number is finished. -/
def Completion.finish (number : Nat) (c : Completion) : Completion :=
  if c.session = number then { c with finished := true } else c

/-- Whether the completion of a session is still kept or held. -/
def isAwaited (g : Gate) (number : Nat) : Bool :=
  g.unclaimed.any (·.session = number) || g.claimed.any (·.session = number)

/-- Takes a finish message. The session stays open until it is closed. -/
def finish (g : Gate) (sender : SocketAddress) : Outcome (Except Rejection Unit) :=
  match g.letIn sender with
  | .error rejection => { gate := g, result := .error rejection }
  | .ok number =>
    { gate := { g with
        unclaimed := g.unclaimed.map (Completion.finish number)
        claimed := g.claimed.map (Completion.finish number) }
      result := .ok ()
      lines :=
        (if g.isAwaited number then [] else [.nobodyWaits]) ++ [.sessionFinished sender] }

/-- Whether a delete message is accepted: from the peer, and of the root alone. -/
def acceptsDelete (g : Gate) (sender : SocketAddress) (path : String) : Except Rejection Unit :=
  match g.letIn sender with
  | .error rejection => .error rejection
  | .ok _ => if path = "" ∨ path = "/" then .ok () else .error (.notAllowed path)

/-- Starts to wait for the completion of the latest session; gives its number unless somebody has
waited for it before or the session was closed. -/
def claim (g : Gate) : Option Nat × Gate :=
  match g.unclaimed with
  | some c => (some c.session, { g with unclaimed := none, claimed := c :: g.claimed })
  | none => (none, g)

/-- Whether the session with a number, which somebody waits for, was finished. -/
def isFinished (g : Gate) (number : Nat) : Bool :=
  g.claimed.any fun c => c.session = number && c.finished

/-- Whether a waiter may still see the session with a number finished. -/
def mayFinish (g : Gate) (number : Nat) : Bool :=
  match g.session with
  | .active _ n | .broken n => n = number
  | .closed => false

/-- Ends a wait. -/
def release (g : Gate) (number : Nat) : Gate :=
  { g with claimed := g.claimed.filter (·.session ≠ number) }

/-- What is left of a gate when the store fails in the middle of a purge. -/
def breakDown (g : Gate) : Gate :=
  match g.session with
  | .active _ number => { g with session := .broken number }
  | _ => g

end Gate
end Lwm2mClient
