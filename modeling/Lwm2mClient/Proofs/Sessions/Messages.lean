import Lwm2mClient.Proofs.Sessions.Gate

/-!
Messages that reach the gate while a session is open. Until somebody waits for the end of the
session its completion is kept, and a cancel drops it; from then on it is held, and the first
finish or cancel decides what the one who waits will see.
-/
namespace Lwm2mClient

open Net

/-- What reaches the gate from outside of the engine. -/
inductive Message where
  | finish (sender : SocketAddress)
  | delete (sender : SocketAddress) (path : String)
  | cancel
  deriving DecidableEq

namespace Message

/-- A finish from where a server is. -/
def isFinishFrom (address : SocketAddress) : Message → Bool
  | finish sender => address.ip = sender.ip
  | _ => false

/-- Whether a message decides about the session with a server. -/
def settles (address : SocketAddress) (m : Message) : Bool := m = cancel || m.isFinishFrom address

@[simp] theorem isFinishFrom_finish (address sender : SocketAddress) :
    (finish sender).isFinishFrom address = decide (address.ip = sender.ip) := rfl

@[simp] theorem isFinishFrom_delete (address sender : SocketAddress) (path : String) :
    (delete sender path).isFinishFrom address = false := rfl

@[simp] theorem isFinishFrom_cancel (address : SocketAddress) :
    cancel.isFinishFrom address = false := rfl

end Message

namespace Gate

/-- The gate once a message was taken. What a delete purges is no part of it. -/
def receive (g : Gate) : Message → Gate
  | .finish sender => (g.finish sender).gate
  | .delete .. => g
  | .cancel => g.close.gate

/-- The gate once some messages were taken in order. -/
def receiveAll (g : Gate) (messages : List Message) : Gate := messages.foldl receive g

@[simp] theorem receive_delete (g : Gate) (sender : SocketAddress) (path : String) :
    g.receive (.delete sender path) = g := rfl

@[simp] theorem receiveAll_nil (g : Gate) : g.receiveAll [] = g := rfl

@[simp] theorem receiveAll_cons (g : Gate) (m : Message) (rest : List Message) :
    g.receiveAll (m :: rest) = (g.receive m).receiveAll rest := rfl

variable {g : Gate} {peer : ServerInfo} {address : SocketAddress} {number : Nat}
  {finished : Bool} {taken : List Message}

theorem letIn_of_active (hsession : g.session = .active peer number)
    (haddress : peer.address = some address) (sender : SocketAddress) :
    g.letIn sender =
      if address.ip = sender.ip then .ok number else .error .notFromBootstrapServer := by
  simp only [letIn, hsession, haddress, Option.any_some, decide_eq_true_eq]

theorem receive_finish_of_other (hsession : g.session = .active peer number)
    (haddress : peer.address = some address) {sender : SocketAddress}
    (hother : address.ip ≠ sender.ip) : g.receive (.finish sender) = g := by
  have hlet : g.letIn sender = .error .notFromBootstrapServer := by
    rw [letIn_of_active hsession haddress, if_neg hother]
  exact (finish_of_refused hlet).2

theorem receive_finish_of_closed (hsession : g.session = .closed) (sender : SocketAddress) :
    g.receive (.finish sender) = g := by
  have hlet : g.letIn sender = .error .noPendingSession := by simp only [letIn, hsession]
  exact (finish_of_refused hlet).2

theorem receive_finish_of_peer (hsession : g.session = .active peer number)
    (haddress : peer.address = some address) {sender : SocketAddress}
    (hpeer : address.ip = sender.ip) :
    g.receive (.finish sender) =
      { g with
        unclaimed := g.unclaimed.map (Completion.finish number)
        claimed := g.claimed.map (Completion.finish number) } := by
  have hlet : g.letIn sender = .ok number := by
    rw [letIn_of_active hsession haddress, if_pos hpeer]
  exact (finish_of_letIn hlet).2

theorem receive_cancel (h : ∀ n, g.session ≠ .broken n) :
    g.receive .cancel = { g with session := .closed, unclaimed := none } :=
  close_gate h

/-- Messages reach the completions that are held, and drop none of them. -/
theorem receive_claimed (g : Gate) (m : Message) :
    (g.receive m).claimed.map (·.session) = g.claimed.map (·.session) := by
  cases m with
  | finish sender =>
    cases hlet : g.letIn sender with
    | error rejection =>
      change (g.finish sender).gate.claimed.map _ = _
      rw [(finish_of_refused hlet).2]
    | ok number =>
      change (g.finish sender).gate.claimed.map _ = _
      rw [(finish_of_letIn hlet).2, List.map_map]
      congr 1
      funext c
      simp only [Function.comp, Completion.finish]
      split <;> rfl
  | delete sender path => rfl
  | cancel => exact congrArg _ (close_claimed g)

theorem receiveAll_claimed (g : Gate) (messages : List Message) :
    (g.receiveAll messages).claimed.map (·.session) = g.claimed.map (·.session) := by
  induction messages generalizing g with
  | nil => rfl
  | cons m rest ih => exact (ih (g.receive m)).trans (receive_claimed g m)

/-! ### Before anybody waits -/

/-- A session once some messages were taken: its completion is kept for whoever waits first. -/
inductive Underway (g : Gate) (peer : ServerInfo) (number : Nat) (address : SocketAddress)
    (taken : List Message) : Prop where
  | cancelled (hclaimed : g.claimed = []) (hcancel : .cancel ∈ taken)
      (hsession : g.session = .closed) (hunclaimed : g.unclaimed = none)
  | pending (hclaimed : g.claimed = []) (hcancel : .cancel ∉ taken)
      (hsession : g.session = .active peer number)
      (hunclaimed : g.unclaimed = some ⟨number, taken.any (·.isFinishFrom address)⟩)

/-- A session that has taken no message is open with its peer. -/
theorem Underway.peer_eq (h : Underway g peer number address []) : g.peer = some peer := by
  cases h with
  | cancelled hclaimed hcancel => cases hcancel
  | pending hclaimed hcancel hsession hunclaimed => simp only [Gate.peer, hsession]

theorem Underway.receive (h : Underway g peer number address taken)
    (haddress : peer.address = some address) (m : Message) :
    Underway (g.receive m) peer number address (taken ++ [m]) := by
  cases h with
  | cancelled hclaimed hcancel hsession hunclaimed =>
    have hsame : g.receive m = g := by
      cases m with
      | finish sender => exact receive_finish_of_closed hsession sender
      | delete sender path => rfl
      | cancel =>
        rw [receive_cancel (by simp [hsession]), ← hsession, ← hunclaimed]
    rw [hsame]
    exact cancelled hclaimed (List.mem_append_left _ hcancel) hsession hunclaimed
  | pending hclaimed hcancel hsession hunclaimed =>
    cases m with
    | delete sender path =>
      exact pending hclaimed (by simpa using hcancel) hsession
        (by simpa using hunclaimed)
    | cancel =>
      rw [receive_cancel (by simp [hsession])]
      exact cancelled hclaimed (by simp) rfl rfl
    | finish sender =>
      by_cases hpeer : address.ip = sender.ip
      · rw [receive_finish_of_peer hsession haddress hpeer]
        refine pending (by simp [hclaimed]) (by simpa using hcancel) hsession ?_
        simp [hunclaimed, Completion.finish, hpeer]
      · rw [receive_finish_of_other hsession haddress hpeer]
        refine pending hclaimed (by simpa using hcancel) hsession ?_
        simpa [hpeer] using hunclaimed

theorem Underway.receiveAll (h : Underway g peer number address taken)
    (haddress : peer.address = some address) (messages : List Message) :
    Underway (g.receiveAll messages) peer number address (taken ++ messages) := by
  induction messages generalizing g taken with
  | nil => simpa using h
  | cons m rest ih => simpa using ih (h.receive haddress m)

/-! ### While somebody waits -/

/-- A session for whose end somebody waits, once some messages were taken since. -/
structure Held (g : Gate) (peer : ServerInfo) (number : Nat) (address : SocketAddress)
    (finished : Bool) (taken : List Message) : Prop where
  unclaimed : g.unclaimed = none
  claimed : g.claimed =
    [⟨number, finished || (taken.find? (·.settles address)).any (·.isFinishFrom address)⟩]
  session : g.session = if .cancel ∈ taken then .closed else .active peer number

/-- A message that is the first to settle a session decides, a later one changes nothing. -/
theorem find?_settles_append (hcancel : .cancel ∉ taken) (m : Message) :
    ((taken ++ [m]).find? (·.settles address)).any (·.isFinishFrom address) =
      ((taken.find? (·.settles address)).any (·.isFinishFrom address) ||
        m.isFinishFrom address) := by
  rw [List.find?_append]
  cases hfirst : taken.find? (·.settles address) with
  | none =>
    by_cases hm : m.settles address
    · simp [hm]
    · have hno : m.isFinishFrom address = false := by
        cases hfinish : m.isFinishFrom address with
        | false => rfl
        | true => simp [Message.settles, hfinish] at hm
      simp [hm, hno]
  | some first =>
    have hmem : first ∈ taken := List.mem_of_find?_eq_some hfirst
    have hsettles : first.settles address = true := by simpa using List.find?_some hfirst
    have hne : first ≠ .cancel := by
      rintro rfl
      exact hcancel hmem
    have hfinish : first.isFinishFrom address = true := by
      simpa [Message.settles, hne] using hsettles
    simp [hfinish]

theorem find?_settles_of_cancel (hcancel : .cancel ∈ taken) (m : Message) :
    (taken ++ [m]).find? (·.settles address) = taken.find? (·.settles address) := by
  have hsome : (taken.find? (·.settles address)).isSome := by
    rw [List.find?_isSome]
    exact ⟨.cancel, hcancel, rfl⟩
  rw [List.find?_append, Option.or_of_isSome hsome]

theorem Held.receive (h : Held g peer number address finished taken)
    (haddress : peer.address = some address) (m : Message) :
    Held (g.receive m) peer number address finished (taken ++ [m]) := by
  by_cases hcancel : .cancel ∈ taken
  · have hsession : g.session = .closed := by rw [h.session, if_pos hcancel]
    have hsame : g.receive m = g := by
      cases m with
      | finish sender => exact receive_finish_of_closed hsession sender
      | delete sender path => rfl
      | cancel => rw [receive_cancel (by simp [hsession]), ← hsession, ← h.unclaimed]
    rw [hsame]
    refine ⟨h.unclaimed, ?_, ?_⟩
    · rw [find?_settles_of_cancel hcancel]
      exact h.claimed
    · rw [if_pos (List.mem_append_left _ hcancel)]
      exact hsession
  · have hsession : g.session = .active peer number := by rw [h.session, if_neg hcancel]
    cases m with
    | delete sender path =>
      refine ⟨h.unclaimed, ?_, ?_⟩
      · rw [find?_settles_append hcancel, ← Bool.or_assoc]
        simpa using h.claimed
      · simpa [hcancel] using hsession
    | cancel =>
      rw [receive_cancel (by simp [hsession])]
      refine ⟨rfl, ?_, by simp⟩
      rw [find?_settles_append hcancel, ← Bool.or_assoc]
      simpa using h.claimed
    | finish sender =>
      by_cases hpeer : address.ip = sender.ip
      · rw [receive_finish_of_peer hsession haddress hpeer]
        refine ⟨by simp [h.unclaimed], ?_, by simpa [hcancel] using hsession⟩
        rw [find?_settles_append hcancel, ← Bool.or_assoc]
        simp [h.claimed, Completion.finish, hpeer]
      · rw [receive_finish_of_other hsession haddress hpeer]
        refine ⟨h.unclaimed, ?_, by simpa [hcancel] using hsession⟩
        rw [find?_settles_append hcancel, ← Bool.or_assoc]
        simpa [hpeer] using h.claimed

theorem Held.receiveAll (h : Held g peer number address finished taken)
    (haddress : peer.address = some address) (messages : List Message) :
    Held (g.receiveAll messages) peer number address finished (taken ++ messages) := by
  induction messages generalizing g taken with
  | nil => simpa using h
  | cons m rest ih => simpa using ih (h.receive haddress m)

theorem Held.isFinished (h : Held g peer number address finished taken) :
    g.isFinished number =
      (finished || (taken.find? (·.settles address)).any (·.isFinishFrom address)) := by
  simp [Gate.isFinished, h.claimed]

end Gate
end Lwm2mClient
