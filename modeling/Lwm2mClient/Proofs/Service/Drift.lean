import Lwm2mClient.Proofs.Service.Ledger
import Lwm2mClient.Proofs.Timeline.Numbering

/-!
What may happen to a service while an operation waits. The clock moves, tasks are taken out,
others schedule and cancel tasks of theirs and change the gate; nobody but the operation in
progress touches the registration or schedules a renewal.
-/
namespace Lwm2mClient.Service

open Net

/-- Whether a task renews the registration. -/
def Task.isRenewal : Task → Bool
  | .work (.renewal _) => true
  | _ => false

/-! ### Timelines -/

/-- What may become of a timeline when nobody schedules or cancels a renewal, given the tasks that
are in hand then. A renewal that waits no more is in hand, unless the timeline was shut down. -/
structure Timeline.Drift (t t' : Timeline Task) (hand' : List (Timeline.Entry Task)) : Prop where
  numbered : t.Numbered → t'.Numbered
  accepted : t.accepted ≤ t'.accepted
  renewals : ∀ e ∈ t'.queue, e.task.isRenewal → e ∈ t.queue
  kept : t'.shutDown = false →
    t.shutDown = false ∧ ∀ e ∈ t.queue, e.task.isRenewal → e ∈ t'.queue ∨ e ∈ hand'

namespace Timeline.Drift

theorem refl (t : Timeline Task) (hand : List (Timeline.Entry Task)) :
    Timeline.Drift t t hand where
  numbered := id
  accepted := Nat.le_refl _
  renewals _ he _ := he
  kept hopen := ⟨hopen, fun _ he _ => Or.inl he⟩

theorem trans {t t' t'' : Timeline Task} {hand' hand'' : List (Timeline.Entry Task)}
    (ha : Timeline.Drift t t' hand') (hb : Timeline.Drift t' t'' hand'')
    (hhand : ∀ e ∈ hand', e ∈ hand'') : Timeline.Drift t t'' hand'' where
  numbered h := hb.numbered (ha.numbered h)
  accepted := Nat.le_trans ha.accepted hb.accepted
  renewals e he hr := ha.renewals e (hb.renewals e he hr) hr
  kept hopen'' := by
    obtain ⟨hopen', hkept'⟩ := hb.kept hopen''
    obtain ⟨hopen, hkept⟩ := ha.kept hopen'
    refine ⟨hopen, ?_⟩
    intro e he hr
    rcases hkept e he hr with hqueue | hhanded
    · exact hkept' e hqueue hr
    · exact Or.inr (hhand e hhanded)

theorem of_schedule (t : Timeline Task) (hand : List (Timeline.Entry Task)) (delay : Duration)
    {task : Task} (htask : task.isRenewal = false) :
    Timeline.Drift t (t.schedule delay task).2 hand where
  numbered h := h.schedule delay task
  accepted := Timeline.accepted_le_schedule t delay task
  renewals e he hr := by
    rcases Timeline.mem_schedule he with hold | ⟨-, hnew, -⟩
    · exact hold
    · rw [hnew, htask] at hr
      cases hr
  kept hopen := by
    rw [Timeline.schedule_shutDown] at hopen
    refine ⟨hopen, ?_⟩
    intro e he _
    exact Or.inl (Timeline.mem_schedule_of_mem he)

theorem of_cancel (t : Timeline Task) (hand : List (Timeline.Entry Task)) {number : Nat}
    (hnumber : ∀ e ∈ t.queue, e.number = number → e.task.isRenewal = false) :
    Timeline.Drift t (t.cancel (.accepted number)) hand where
  numbered h := h.cancel _
  accepted := Nat.le_refl _
  renewals e he _ := (Timeline.mem_queue_cancel.mp he).1
  kept hopen := by
    refine ⟨hopen, ?_⟩
    intro e he hr
    have hother : e.number ≠ number := by
      intro heq
      rw [hnumber e he heq] at hr
      cases hr
    exact Or.inl (Timeline.mem_queue_cancel.mpr ⟨he, hother⟩)

theorem of_settle (t : Timeline Task) (hand : List (Timeline.Entry Task)) (target : Duration) :
    Timeline.Drift t (t.settle target) hand where
  numbered h := h.settle target
  accepted := Nat.le_refl _
  renewals _ he _ := he
  kept hopen := ⟨hopen, fun _ he _ => Or.inl he⟩

/-- A task that is taken out is in hand. -/
theorem of_takeDue? {t t' : Timeline Task} {hand : List (Timeline.Entry Task)} {target : Duration}
    {e : Timeline.Entry Task} (htake : t.takeDue? target = some (e, t')) :
    Timeline.Drift t t' (hand ++ [e]) := by
  obtain ⟨hqueue, haccepted, hshutDown⟩ := Timeline.takeDue?_eq_some htake
  constructor
  · intro h
    exact h.takeDue? htake
  · exact Nat.le_of_eq haccepted.symm
  · intro x hx _
    rw [hqueue]
    exact List.mem_cons_of_mem e hx
  · intro hopen
    refine ⟨hshutDown ▸ hopen, ?_⟩
    intro x hx _
    rw [hqueue] at hx
    rcases List.mem_cons.mp hx with rfl | hrest
    · exact Or.inr (List.mem_append_right hand List.mem_cons_self)
    · exact Or.inl hrest

theorem of_shutdown (t : Timeline Task) (hand : List (Timeline.Entry Task)) :
    Timeline.Drift t t.shutdown hand where
  numbered h := h.shutdown
  accepted := Nat.le_refl _
  renewals e he := by cases he
  kept hopen := by cases hopen

end Timeline.Drift

/-- A scheduler changes by itself, and no more than some tasks in hand were taken out. -/
def Evolves (before after : Scheduler Task) (hand : List (Timeline.Entry Task)) : Prop :=
  ∀ t', after = .timeline t' → ∃ t, before = .timeline t ∧ Timeline.Drift t t' hand

theorem Evolves.refl (scheduler : Scheduler Task) (hand : List (Timeline.Entry Task)) :
    Evolves scheduler scheduler hand := by
  intro t ht
  exact ⟨t, ht, Timeline.Drift.refl t hand⟩

theorem Evolves.trans {a b c : Scheduler Task} {hand hand' : List (Timeline.Entry Task)}
    (hab : Evolves a b hand) (hbc : Evolves b c hand') (hhand : ∀ e ∈ hand, e ∈ hand') :
    Evolves a c hand' := by
  intro t'' ht''
  obtain ⟨t', ht', hb⟩ := hbc t'' ht''
  obtain ⟨t, ht, ha⟩ := hab t' ht'
  exact ⟨t, ht, ha.trans hb hhand⟩

theorem Evolves.of_worker (before : Scheduler Task) (w : Worker Task)
    (hand : List (Timeline.Entry Task)) : Evolves before (.worker w) hand := by
  intro t' ht'
  cases ht'

theorem Evolves.of_timeline {t t' : Timeline Task} {hand : List (Timeline.Entry Task)}
    (h : Timeline.Drift t t' hand) : Evolves (.timeline t) (.timeline t') hand := by
  intro t₁ ht₁
  cases ht₁
  exact ⟨t, rfl, h⟩

theorem evolves_schedule (scheduler : Scheduler Task) (delay : Duration) {task : Task}
    (htask : task.isRenewal = false) (hand : List (Timeline.Entry Task)) :
    Evolves scheduler (scheduler.schedule delay task).2 hand := by
  cases scheduler with
  | worker w => exact Evolves.of_worker _ _ hand
  | timeline t => exact Evolves.of_timeline (Timeline.Drift.of_schedule t hand delay htask)

theorem evolves_cancel (scheduler : Scheduler Task) {number : Nat}
    (hnumber : ∀ e ∈ scheduler.entries, e.number = number → e.task.isRenewal = false)
    (hand : List (Timeline.Entry Task)) :
    Evolves scheduler (scheduler.cancel (.accepted number)) hand := by
  cases scheduler with
  | worker w => exact Evolves.of_worker _ _ hand
  | timeline t => exact Evolves.of_timeline (Timeline.Drift.of_cancel t hand hnumber)

/-- A number that others may cancel is not that of a renewal. -/
theorem not_isRenewal_of_all {entries : List (Timeline.Entry Task)} {number : Nat}
    (h : (entries.all fun e => e.number ≠ number || e.task = .other) = true) :
    ∀ e ∈ entries, e.number = number → e.task.isRenewal = false := by
  intro e he hnumber
  have hother := List.all_eq_true.mp h e he
  simp only [hnumber, ne_eq, not_true_eq_false, decide_false, Bool.false_or,
    decide_eq_true_eq] at hother
  rw [hother]
  rfl

theorem evolves_shutdown (scheduler : Scheduler Task) (hand : List (Timeline.Entry Task)) :
    Evolves scheduler scheduler.shutdown hand := by
  cases scheduler with
  | worker w => exact Evolves.of_worker _ _ hand
  | timeline t => exact Evolves.of_timeline (Timeline.Drift.of_shutdown t hand)

theorem evolves_passUntil (scheduler : Scheduler Task) (instant : Duration)
    (hand : List (Timeline.Entry Task)) :
    Evolves scheduler (scheduler.passUntil instant) hand := by
  cases scheduler with
  | worker w => exact Evolves.of_worker _ _ hand
  | timeline t => exact Evolves.of_timeline (Timeline.Drift.refl t hand)

/-! ### Scenes -/

/-- What an operation can see of the service: the client, the tasks that were taken out and wait
for the operation to end, and what the history tells. -/
structure Scene where
  client : Client Task
  hand : List (Timeline.Entry Task)
  ledger : Ledger

namespace Scene

def clock (s : Scene) : Duration := s.client.scheduler.clock

/-- Some lines were reported. -/
def report (hosts : Hosts) (s : Scene) (lines : List Log.Line) : Scene :=
  { s with ledger := lines.foldl (fun l line => l.note hosts (.reported line)) s.ledger }

/-- An answer was given. -/
def hear (hosts : Hosts) (s : Scene) (c : Call) (answer : c.Answer) : Scene :=
  { s with ledger := s.ledger.note hosts (.answered c answer s.clock) }

/-- A call failed. -/
def fail (s : Scene) : Scene := { s with ledger := { s.ledger with failed := true } }

/-- What may happen to a scene while the operation in progress waits. -/
structure Drift (s s' : Scene) : Prop where
  registration : s'.client.registration = s.client.registration
  ledger : s'.ledger = s.ledger
  hand : ∀ e ∈ s.hand, e ∈ s'.hand
  scheduler : Evolves s.client.scheduler s'.client.scheduler s'.hand

theorem Drift.refl (s : Scene) : Drift s s where
  registration := rfl
  ledger := rfl
  hand _ he := he
  scheduler := Evolves.refl s.client.scheduler s.hand

theorem Drift.trans {a b c : Scene} (hab : Drift a b) (hbc : Drift b c) : Drift a c where
  registration := hbc.registration.trans hab.registration
  ledger := hbc.ledger.trans hab.ledger
  hand e he := hbc.hand e (hab.hand e he)
  scheduler := hab.scheduler.trans hbc.scheduler hbc.hand

theorem Drift.of_gate (s : Scene) (gate : Gate) :
    s.Drift { s with client := { s.client with gate := gate } } :=
  { Drift.refl s with }

theorem Drift.of_shutdown (s : Scene) :
    s.Drift { s with client := { s.client with scheduler := s.client.scheduler.shutdown } } where
  registration := rfl
  ledger := rfl
  hand _ he := he
  scheduler := evolves_shutdown s.client.scheduler s.hand

end Scene

end Lwm2mClient.Service
