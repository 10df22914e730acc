import Lwm2mClient.Engine.Registration
import Lwm2mClient.Log
import Lwm2mClient.Settings
import Lwm2mClient.Store.Object

/-!
Lifecycle work as a tree of calls. A program either is done or makes one call and goes on
with the answer, so everything outside of the client, the object store, the servers, the
other threads, is whatever answers the calls; a program that is never answered again has
been abandoned at that call.
-/
namespace Lwm2mClient

open Net

/-- What a program asks of its surroundings. -/
inductive Call where
  | log (line : Log.Line)
  /-- Waits until no other work of the engine is in progress. -/
  | acquire
  | release
  | objectIds
  | readObject (object : NumericId)
  /-- Deletes an instance on behalf of a sender. -/
  | deleteInstance (sender : SocketAddress) (object instanceId : NumericId)
  /-- Sends a request and waits for the answer. -/
  | send (peer : SocketAddress) (secure : Bool) (request : Request) (timeout : Option Duration)
  | sessionActive
  | openSession (peer : ServerInfo)
  /-- Waits until the peer finishes the session, or it is closed, or the time is over. -/
  | awaitFinish (timeout : Duration)
  | closeSession
  | registration
  | setRegistration (registration : Registration)
  | schedule (delay : Duration) (work : Work)
  | cancelTask (handle : TaskHandle)
  | shutDownTimeline

/-- What a call is answered with. -/
@[reducible] def Call.Answer : Call → Type
  | objectIds => List NumericId
  | readObject _ => Option Object
  | deleteInstance .. => ResponseCode
  | send .. => Option Response
  | sessionActive | openSession _ | awaitFinish _ => Bool
  | registration => Registration
  | schedule .. => TaskHandle
  | log _ | acquire | release | closeSession | setRegistration _ | cancelTask _
  | shutDownTimeline => Unit

inductive Program (α : Type) where
  | done (value : α)
  | call (c : Call) (next : c.Answer → Program α)

namespace Program

variable {α β : Type}

/-- One program after another. -/
def andThen : Program α → (α → Program β) → Program β
  | done value, f => f value
  | call c next, f => call c fun answer => andThen (next answer) f

instance : Monad Program where
  pure := done
  bind := andThen

/-- A single call. -/
def perform (c : Call) : Program c.Answer := call c done

def log (line : Log.Line) : Program Unit := perform (.log line)

/-- Reports some lines in order. -/
def logAll : List Log.Line → Program Unit
  | [] => pure ()
  | line :: lines => do
    log line
    logAll lines

@[simp] theorem pure_eq_done (value : α) : (pure value : Program α) = done value := rfl

@[simp] theorem done_bind (value : α) (f : α → Program β) : (done value >>= f) = f value := rfl

@[simp] theorem call_bind (c : Call) (next : c.Answer → Program α) (f : α → Program β) :
    (call c next >>= f) = call c fun answer => next answer >>= f := rfl

theorem bind_done (p : Program α) : (p >>= done) = p := by
  induction p with
  | done value => rfl
  | call c next ih => simp [ih]

theorem bind_assoc {γ : Type} (p : Program α) (f : α → Program β) (g : β → Program γ) :
    ((p >>= f) >>= g) = p >>= fun value => f value >>= g := by
  induction p with
  | done value => rfl
  | call c next ih => simp [ih]

end Program
end Lwm2mClient
