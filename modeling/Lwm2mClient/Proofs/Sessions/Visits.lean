import Lwm2mClient.Proofs.Programs
import Lwm2mClient.Proofs.Sessions.Gate
import Lwm2mClient.Scenario.Threads

/-!
The gate of sessions, visited by one caller after another. A session is opened or refused, a
finish or a delete message is let in or not, the session is closed, or somebody waits for its end
while nothing else happens. What comes of each visit is noted; between two visits the world may
change in any way that leaves the gate alone.
-/
namespace Lwm2mClient

open Net Program

/-- Whether a call concerns nothing but the store and the log. -/
def Call.isOnStore : Call → Prop
  | .log _ | .objectIds | .readObject _ | .deleteInstance .. => True
  | _ => False

theorem Purge.purgeInstances_asks (sender : SocketAddress) (object : NumericId)
    (instances : List ObjectInstance) :
    (purgeInstances sender object instances).Asks Call.isOnStore fun _ => True := by
  induction instances with
  | nil => exact trivial
  | cons i rest ih =>
    simp only [purgeInstances]
    split
    · exact (Asks.log trivial).bind fun _ _ => ih
    · refine (Asks.perform trivial).bind fun code _ => ?_
      split
      · exact (Asks.log trivial).bind fun _ _ => ih
      · exact ih

theorem Purge.purgeObjects_asks (sender : SocketAddress) (objects : List NumericId) :
    (purgeObjects sender objects).Asks Call.isOnStore fun _ => True := by
  induction objects with
  | nil => exact trivial
  | cons object rest ih =>
    refine (Asks.perform trivial).bind fun snapshot _ => ?_
    cases snapshot with
    | none => exact ih
    | some snapshot => exact (purgeInstances_asks sender object _).bind fun _ _ => ih

/-- A purge concerns nothing but the store and the log. -/
theorem Purge.purge_asks (sender : SocketAddress) :
    (purge sender).Asks Call.isOnStore fun _ => True := by
  refine (Asks.perform trivial).bind fun ids _ => ?_
  exact (purgeObjects_asks sender ids).bind fun _ _ => Asks.log trivial

namespace Scenario.World

variable {w w' : World} {sender : SocketAddress} {path : String}

@[simp] theorem report_gate (w : World) (lines : List Log.Line) :
    (w.report lines).gate = w.gate := by
  unfold report
  split <;> rfl

@[simp] theorem report_disturbance (w : World) (lines : List Log.Line) :
    (w.report lines).disturbance = w.disturbance := by
  unfold report
  split <;> rfl

/-! ### Delete messages -/

/-- Whether no access to the store fails. -/
def IsReliable (w : World) : Prop :=
  w.disturbance.failingReads = [] ∧ w.disturbance.failingDeletes = []

theorem readObject_keeps (w : World) (object : NumericId) :
    (w.readObject object).1.gate = w.gate ∧ (w.readObject object).1.disturbance = w.disturbance ∧
      (w.IsReliable → ∃ value, (w.readObject object).2 = .ok value) := by
  unfold readObject
  split
  · rename_i hfails
    refine ⟨rfl, rfl, fun h => ?_⟩
    rw [h.1] at hfails
    cases hfails
  · split
    · exact ⟨rfl, rfl, fun _ => ⟨_, rfl⟩⟩
    · exact ⟨report_gate .., report_disturbance .., fun _ => ⟨_, rfl⟩⟩

theorem removeInstance_keeps (w : World) (sender : SocketAddress) (object i : NumericId) :
    (w.removeInstance sender object i).1.gate = w.gate ∧
      (w.removeInstance sender object i).1.disturbance = w.disturbance := by
  unfold removeInstance
  split
  · exact ⟨report_gate .., report_disturbance ..⟩
  · exact ⟨rfl, rfl⟩

theorem deleteInstance_keeps (w : World) (sender : SocketAddress) (object i : NumericId) :
    (w.deleteInstance sender object i).1.gate = w.gate ∧
      (w.deleteInstance sender object i).1.disturbance = w.disturbance ∧
      (w.IsReliable → ∃ code, (w.deleteInstance sender object i).2 = .ok code) := by
  unfold deleteInstance
  split
  · rename_i hfails
    refine ⟨rfl, rfl, fun h => ?_⟩
    rw [h.2] at hfails
    cases hfails
  · cases w.disturbance.deny with
    | some code => exact ⟨rfl, rfl, fun _ => ⟨_, rfl⟩⟩
    | none =>
      obtain ⟨hgate, hdisturbance⟩ := removeInstance_keeps w sender object i
      exact ⟨hgate, hdisturbance, fun _ => ⟨_, rfl⟩⟩

/-- A call that concerns the store and the log is answered and leaves the gate alone. -/
theorem answer?_keeps {c : Call} (hc : c.isOnStore) (w : World) :
    ∃ w' reply, w.answer? none c = some (w', reply) ∧ w'.gate = w.gate ∧
      w'.disturbance = w.disturbance ∧ (w.IsReliable → ∃ a, reply = .ok a) := by
  cases c with
  | log line => exact ⟨_, _, rfl, report_gate .., report_disturbance .., fun _ => ⟨_, rfl⟩⟩
  | objectIds => exact ⟨_, _, rfl, rfl, rfl, fun _ => ⟨_, rfl⟩⟩
  | readObject object => exact ⟨_, _, rfl, readObject_keeps w object⟩
  | deleteInstance sender object i => exact ⟨_, _, rfl, deleteInstance_keeps w sender object i⟩
  | _ => exact absurd hc id

theorem follow_of_answer {α : Type} {c : Call} {next : c.Answer → Program α} (hc : c.isOnStore)
    {reply : Except Fault c.Answer} (h : w.answer? none c = some (w', reply)) :
    follow none (.call c next) w =
      match reply with
      | .ok a => follow none (next a) w'
      | .error fault => (w', .failed fault) := by
  cases reply <;> cases c <;> simp_all [Call.isOnStore, follow]

/-- What concerns nothing but the store and the log leaves the gate alone, and it
ends unless the store fails. -/
theorem consult_keeps {α : Type} {p : Program α} {post : α → Prop}
    (hp : p.Asks Call.isOnStore post) (w : World) :
    (w.consult p).1.gate = w.gate ∧ (w.IsReliable → ∃ value, (w.consult p).2 = .ok value) := by
  induction p generalizing w with
  | done value => exact ⟨rfl, fun _ => ⟨value, rfl⟩⟩
  | call c next ih =>
    obtain ⟨w', reply, hanswer, hgate, hdisturbance, hreliable⟩ := answer?_keeps hp.1 w
    unfold consult
    rw [follow_of_answer hp.1 hanswer]
    cases reply with
    | ok a =>
      obtain ⟨hrest, hends⟩ := ih a (hp.2 a) w'
      refine ⟨hrest.trans hgate, fun h => hends ?_⟩
      rw [IsReliable, hdisturbance]
      exact h
    | error fault =>
      refine ⟨hgate, fun h => ?_⟩
      obtain ⟨a, ha⟩ := hreliable h
      cases ha

/-- A delete message leaves the gate alone, unless the store fails. -/
theorem receiveDelete_ok {verdict : Except Rejection Unit}
    (h : w.receiveDelete sender path = (w', .ok verdict)) :
    w'.gate = w.gate ∧ verdict = w.gate.acceptsDelete sender path := by
  unfold receiveDelete at h
  split at h
  · rename_i rejection hrefused
    cases h
    exact ⟨rfl, hrefused.symm⟩
  · rename_i haccepted
    have hgate := (consult_keeps (Purge.purge_asks sender) w).1
    split at h
    · rename_i w₁ hpurged
      rw [hpurged] at hgate
      cases h
      exact ⟨hgate, haccepted.symm⟩
    · cases h

theorem receiveDelete_of_isReliable (h : w.IsReliable) (sender : SocketAddress) (path : String) :
    ∃ w' verdict, w.receiveDelete sender path = (w', .ok verdict) := by
  unfold receiveDelete
  split
  · exact ⟨w, _, rfl⟩
  · obtain ⟨value, hvalue⟩ := (consult_keeps (Purge.purge_asks sender) w).2 h
    split
    · exact ⟨_, _, rfl⟩
    · rename_i hfault
      rw [hfault] at hvalue
      cases hvalue

/-! ### Waits -/

/-- Where only time can let a thread move that has nothing but one frame, it passes. -/
def passFor (w : World) (frame : Frame) : World :=
  if w.blocks .main frame then
    match w.wake? ⟨.main, [frame]⟩ with
    | some instant => w.passUntil instant
    | none => w
  else w

/-- Waits for the end of the latest session while nothing else happens. -/
def awaitEnd (w : World) (timeout : Duration) : World × Bool :=
  match w.startWait timeout with
  | (w, some wait) =>
    match (w.passFor wait).move wait [] with
    | (w, .deliver (.flag finished) _) => (w, finished)
    | (w, _) => (w, false)
  | (w, none) => (w, false)

@[simp] theorem passFor_gate (w : World) (frame : Frame) : (w.passFor frame).gate = w.gate := by
  unfold passFor
  split
  · split <;> rfl
  · rfl

/-- A wait for a session that nobody has waited for before sees it finished iff it was finished by
then. -/
theorem awaitEnd_of_some {c : Completion} (hc : w.gate.unclaimed = some c)
    (hclaimed : w.gate.claimed = []) (timeout : Duration) :
    (w.awaitEnd timeout).1.gate = { w.gate with unclaimed := none } ∧
      (w.awaitEnd timeout).2 = c.finished := by
  have hwait : w.startWait timeout =
      ({ w with gate := { w.gate with unclaimed := none, claimed := [c] } },
        some (.await c.session (w.elapsed.saturatingAdd timeout))) := by
    simp only [startWait, Gate.claim, hc, hclaimed]
  simp only [awaitEnd, hwait, move, passFor_gate]
  simp [Gate.release, Gate.isFinished, hclaimed]

theorem awaitEnd_of_none (hc : w.gate.unclaimed = none) (timeout : Duration) :
    (w.awaitEnd timeout).1.gate = w.gate ∧ (w.awaitEnd timeout).2 = false := by
  have hwait : w.startWait timeout = (w, none) := by
    simp only [startWait, Gate.claim, hc]
  simp only [awaitEnd, hwait, and_self]

end Scenario.World
end Lwm2mClient
