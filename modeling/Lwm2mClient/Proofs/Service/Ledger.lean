import Lwm2mClient.Proofs.Service.Basic

/-!
What can be told of an engine in service from its history alone: the servers that its store named
when they were last looked for, the latest success, the lifetime that the server was told, and
whether a stop, a call or the lifecycle itself has failed.
-/
namespace Lwm2mClient.Service

open Net

/-- A success of a register or an update request. -/
structure Success where
  /-- When the answer was processed. -/
  time : Duration
  /-- The lifetime that the store gave the server when the operation looked for it. -/
  lifetime : UInt64
  deriving DecidableEq

/-- How far the servers have been looked for in the store. -/
structure Search where
  /-- The Security object, if it was what the store was last asked for. -/
  security : Option Object := none
  /-- The servers that the two objects named when they were last read one after the other. -/
  found : Option Servers := none

namespace Search

/-- The device management server that was found. -/
def management? (search : Search) : Option ManagementServer :=
  search.found.bind fun servers => servers.theManagement.toOption

/-- The store was asked for something else. -/
def leave (search : Search) : Search := { search with security := none }

/-- An object of the store was read. -/
def read (hosts : Hosts) (search : Search) (object : NumericId)
    (answer : Option Object) : Search :=
  if object = ObjectId.security then { search with security := answer }
  else if object = ObjectId.server then
    match search.security, answer with
    | some securities, some servers => ⟨none, some (Extraction.servers hosts securities servers)⟩
    | _, _ => search.leave
  else search.leave

end Search

structure Ledger where
  search : Search := {}
  /-- The latest success. -/
  success : Option Success := none
  /-- The lifetime that the last accepted register request carried. -/
  announced : Option UInt64 := none
  /-- Whether a stop failed to deregister since the latest success. -/
  stopFailed : Bool := false
  /-- Whether a call to the store or to a server failed. -/
  failed : Bool := false
  /-- Whether an event was fired that the lifecycle did not expect. -/
  surprised : Bool := false

namespace Ledger

/-- A register or an update request succeeded. -/
def succeed (l : Ledger) (now : Duration) : Ledger :=
  { l with
    success := (l.search.management?.bind (·.lifetime)).map fun lifetime => ⟨now, lifetime⟩
    stopFailed := false }

/-- A request was answered. -/
def judge (l : Ledger) (request : Request) (answer : Option Response) (now : Duration) : Ledger :=
  match request, answer with
  | .register _ lifetime _ _, some ⟨.created, some _⟩ =>
    { l.succeed now with announced := some lifetime }
  | .update _, some ⟨.changed, _⟩ => l.succeed now
  | _, _ => l

/-- An event was added to the history. -/
def note (hosts : Hosts) (l : Ledger) : Event → Ledger
  | .answered (.readObject object) answer _ =>
    { l with search := l.search.read hosts object answer }
  | .answered .objectIds _ _ => { l with search := l.search.leave }
  | .answered (.send _ _ request _) answer now => l.judge request answer now
  | .reported (.unexpectedEvent ..) => { l with surprised := true }
  | .failed .. => { l with failed := true }
  | .ended job result =>
    if job.isStop && !result then { l with stopFailed := true } else l
  | _ => l

theorem note_ended (hosts : Hosts) (l : Ledger) (job : Job) (result : Bool) :
    l.note hosts (.ended job result) =
      if job.isStop && !result then { l with stopFailed := true } else l := rfl

end Ledger

/-- The ledger of a history. -/
def ledger (hosts : Hosts) : List Event → Ledger
  | [] => {}
  | e :: earlier => (ledger hosts earlier).note hosts e

def Event.isFailure : Event → Bool
  | .failed .. => true
  | _ => false

/-- Whether a line tells of an event that the lifecycle did not expect. -/
def isSurprise : Log.Line → Bool
  | .unexpectedEvent .. => true
  | _ => false

def Event.isSurprise : Event → Bool
  | .reported line => Service.isSurprise line
  | _ => false

/-- No call to the store or to a server has failed. -/
def Unfailing (history : List Event) : Prop := ∀ e ∈ history, e.isFailure = false

instance (history : List Event) : Decidable (Unfailing history) :=
  inferInstanceAs (Decidable (∀ e ∈ history, e.isFailure = false))

/-- No event was fired that the lifecycle did not expect. -/
def Expected (history : List Event) : Prop := ∀ e ∈ history, e.isSurprise = false

namespace Ledger

/-- An answer may tell of a success, and changes nothing else. -/
theorem judge_changes (l : Ledger) (request : Request) (answer : Option Response)
    (now : Duration) :
    (l.judge request answer now).failed = l.failed ∧
      (l.judge request answer now).surprised = l.surprised ∧
      (l.announced ≠ none → (l.judge request answer now).announced ≠ none) := by
  unfold judge
  split
  · exact ⟨rfl, rfl, fun _ h => by cases h⟩
  · exact ⟨rfl, rfl, id⟩
  · exact ⟨rfl, rfl, id⟩

theorem note_failed (hosts : Hosts) (l : Ledger) {e : Event} (h : e.isFailure = false) :
    (l.note hosts e).failed = l.failed := by
  unfold note
  split
  · rfl
  · rfl
  · exact (judge_changes l _ _ _).1
  · rfl
  · cases h
  · split <;> rfl
  · rfl

theorem note_surprised (hosts : Hosts) (l : Ledger) (e : Event) :
    (l.note hosts e).surprised = (l.surprised || e.isSurprise) := by
  unfold note
  split
  · exact (Bool.or_false _).symm
  · exact (Bool.or_false _).symm
  · exact (judge_changes l _ _ _).2.1.trans (Bool.or_false _).symm
  · exact (Bool.or_true _).symm
  · exact (Bool.or_false _).symm
  · split <;> exact (Bool.or_false _).symm
  · rename_i hother _ _
    have hcalm : e.isSurprise = false := by
      unfold Event.isSurprise Service.isSurprise
      split
      · split
        · exact absurd rfl (hother _ _)
        · rfl
      · rfl
    rw [hcalm, Bool.or_false]

end Ledger

theorem failed_of_unfailing {hosts : Hosts} {history : List Event} (h : Unfailing history) :
    (ledger hosts history).failed = false := by
  induction history with
  | nil => rfl
  | cons e earlier ih =>
    have he : e.isFailure = false := h e List.mem_cons_self
    rw [ledger, Ledger.note_failed hosts _ he]
    exact ih fun x hx => h x (List.mem_cons_of_mem e hx)

theorem expected_of_surprised {hosts : Hosts} {history : List Event}
    (h : (ledger hosts history).surprised = false) : Expected history := by
  induction history with
  | nil =>
    intro e he
    cases he
  | cons e earlier ih =>
    rw [ledger, Ledger.note_surprised, Bool.or_eq_false_iff] at h
    intro x hx
    rcases List.mem_cons.mp hx with rfl | hx
    · exact h.2
    · exact ih h.1 x hx

end Lwm2mClient.Service
