import Lwm2mClient.Timeline.Scheduler
import Lwm2mClient.Proofs.Timeline.Serving

/-!
The tasks of a scheduler that are still to start, on a virtual timeline and with a worker
alike. A task stops waiting only because it is handed out, is cancelled, or is dropped
when the scheduler is shut down.
-/
namespace Lwm2mClient

open Timeline (Entry)

namespace Scheduler

variable {τ : Type} {e : Entry τ}

/-- What the clock shows. -/
def clock : Scheduler τ → Duration
  | .timeline t => t.now
  | .worker w => w.now

/-- The tasks that have been handed over and not started. -/
def entries : Scheduler τ → List (Timeline.Entry τ)
  | .timeline t => t.queue
  | .worker w =>
    w.queue ++ w.commands.filterMap fun c =>
      match c with
      | .schedule entry => some entry
      | .stop => none

/-- The tasks that were handed over and are still to start. A worker keeps a cancelled task until
it is due and drops it then. -/
def live : Scheduler τ → List (Entry τ)
  | .timeline t => t.queue
  | .worker w => (Scheduler.worker w).entries.filter fun e => e.number ∉ w.cancelled

/-- Whether the tasks that still waited were dropped. -/
def isShut : Scheduler τ → Bool
  | .timeline t => t.shutDown
  | .worker w => w.stopped

theorem mem_entries_worker {w : Worker τ} :
    e ∈ (Scheduler.worker w).entries ↔ e ∈ w.queue ∨ .schedule e ∈ w.commands := by
  unfold entries
  rw [List.mem_append, List.mem_filterMap]
  refine or_congr_right ⟨?_, fun h => ⟨_, h, rfl⟩⟩
  rintro ⟨c, hc, heq⟩
  cases c with
  | schedule entry =>
    cases heq
    exact hc
  | stop => cases heq

theorem mem_live_worker {w : Worker τ} :
    e ∈ (Scheduler.worker w).live ↔
      (e ∈ w.queue ∨ .schedule e ∈ w.commands) ∧ e.number ∉ w.cancelled := by
  unfold live
  rw [List.mem_filter, mem_entries_worker, decide_eq_true_eq]

theorem mem_entries_of_live {s : Scheduler τ} (h : e ∈ s.live) : e ∈ s.entries := by
  cases s with
  | timeline t => exact h
  | worker w => exact (List.mem_filter.mp h).1

/-- What waits after a task was handed over waited before, or is that task under its handle. -/
theorem mem_live_schedule {s : Scheduler τ} {delay : Duration} {task : τ}
    (h : e ∈ (s.schedule delay task).2.live) :
    e ∈ s.live ∨ (s.schedule delay task).1 = .accepted e.number ∧ e.task = task := by
  cases s with
  | timeline t =>
    rcases Timeline.mem_schedule h with hold | ⟨hhandle, htask, -⟩
    · exact Or.inl hold
    · exact Or.inr ⟨hhandle, htask⟩
  | worker w =>
    simp only [schedule, Worker.schedule] at h ⊢
    split at h
    · exact Or.inl h
    · rename_i hopen
      rw [if_neg hopen]
      obtain ⟨hwaits, hkept⟩ := mem_live_worker.mp h
      rcases hwaits with hqueue | hsent
      · exact Or.inl (mem_live_worker.mpr ⟨Or.inl hqueue, hkept⟩)
      · rcases List.mem_append.mp hsent with hold | hnew
        · exact Or.inl (mem_live_worker.mpr ⟨Or.inr hold, hkept⟩)
        · cases List.mem_singleton.mp hnew
          exact Or.inr ⟨rfl, rfl⟩

theorem mem_live_schedule_of_mem {s : Scheduler τ} {delay : Duration} {task : τ}
    (h : e ∈ s.live) : e ∈ (s.schedule delay task).2.live := by
  cases s with
  | timeline t => exact Timeline.mem_schedule_of_mem h
  | worker w =>
    simp only [schedule, Worker.schedule]
    split
    · exact h
    · obtain ⟨hwaits, hkept⟩ := mem_live_worker.mp h
      exact mem_live_worker.mpr ⟨hwaits.imp_right (List.mem_append_left _), hkept⟩

/-- A cancelled task is not to start any more, all others are. -/
theorem mem_live_cancel {s : Scheduler τ} {number : Nat} :
    e ∈ (s.cancel (.accepted number)).live ↔ e ∈ s.live ∧ e.number ≠ number := by
  cases s with
  | timeline t => exact Timeline.mem_queue_cancel
  | worker w =>
    rw [cancel, mem_live_worker, mem_live_worker, and_assoc]
    simp only [Worker.cancel, List.mem_cons, not_or, and_comm, ne_eq]

theorem cancel_refused (s : Scheduler τ) : s.cancel .refused = s := by
  cases s <;> rfl

theorem isShut_schedule (s : Scheduler τ) (delay : Duration) (task : τ) :
    (s.schedule delay task).2.isShut = s.isShut := by
  cases s with
  | timeline t => exact Timeline.schedule_shutDown t delay task
  | worker w =>
    simp only [schedule, Worker.schedule]
    split <;> rfl

theorem isShut_cancel (s : Scheduler τ) (handle : TaskHandle) :
    (s.cancel handle).isShut = s.isShut := by
  cases s <;> cases handle <;> rfl

/-- A scheduler hands out a task, if any. The others still wait then, unless they were dropped. -/
structure HandsOut (s : Scheduler τ) (taken? : Option (Entry τ)) (s' : Scheduler τ) : Prop where
  live : ∀ e ∈ s'.live, e ∈ s.live
  taken : ∀ e, taken? = some e → e ∈ s.live
  kept : s'.isShut = false → s.isShut = false ∧ ∀ e ∈ s.live, e ∈ s'.live ∨ taken? = some e

theorem HandsOut.of_live {s s' : Scheduler τ} (hlive : ∀ e, e ∈ s'.live ↔ e ∈ s.live)
    (hshut : s'.isShut = s.isShut) : s.HandsOut none s' where
  live e he := (hlive e).mp he
  taken e he := by cases he
  kept hopen := ⟨hshut ▸ hopen, fun e he => Or.inl ((hlive e).mpr he)⟩

theorem HandsOut.of_dropped {s s' : Scheduler τ} (hlive : ∀ e ∈ s'.live, e ∈ s.live)
    (hshut : s'.isShut = true) : s.HandsOut none s' where
  live := hlive
  taken e he := by cases he
  kept hopen := by
    rw [hshut] at hopen
    cases hopen

theorem HandsOut.of_taken {s s' : Scheduler τ} (hlive : ∀ x, x ∈ s.live ↔ x = e ∨ x ∈ s'.live)
    (hshut : s'.isShut = s.isShut) : s.HandsOut (some e) s' where
  live x hx := (hlive x).mpr (Or.inr hx)
  taken x hx := by
    cases hx
    exact (hlive e).mpr (Or.inl rfl)
  kept hopen := by
    refine ⟨hshut ▸ hopen, ?_⟩
    intro x hx
    rcases (hlive x).mp hx with rfl | hrest
    · exact Or.inr rfl
    · exact Or.inl hrest

/-- A worker still receives what was sent to it before it was shut down. -/
theorem mem_live_shutdown {w : Worker τ} :
    e ∈ (Scheduler.worker w).shutdown.live ↔ e ∈ (Scheduler.worker w).live := by
  by_cases hclosed : w.closed = true
  · rw [shutdown, Worker.shutdown, if_pos hclosed]
  · rw [shutdown, Worker.shutdown, if_neg hclosed, mem_live_worker, mem_live_worker]
    simp

theorem handsOut_shutdown (s : Scheduler τ) : s.HandsOut none s.shutdown := by
  cases s with
  | timeline t =>
    refine HandsOut.of_dropped (fun e he => ?_) rfl
    cases he
  | worker w =>
    refine HandsOut.of_live (fun e => mem_live_shutdown) ?_
    simp only [shutdown, Worker.shutdown]
    split <;> rfl

theorem handsOut_passUntil (s : Scheduler τ) (instant : Duration) :
    s.HandsOut none (s.passUntil instant) := by
  cases s with
  | timeline t => exact HandsOut.of_live (fun _ => Iff.rfl) rfl
  | worker w =>
    refine HandsOut.of_live (fun e => ?_) rfl
    exact mem_live_worker.trans mem_live_worker.symm

theorem handsOut_takeDue? {t t' : Timeline τ} {target : Duration} {e : Entry τ}
    (h : t.takeDue? target = some (e, t')) :
    (timeline t).HandsOut (some e) (timeline t') := by
  obtain ⟨hqueue, -, hshut⟩ := Timeline.takeDue?_eq_some h
  refine HandsOut.of_taken (fun x => ?_) hshut
  change x ∈ t.queue ↔ _
  rw [hqueue, List.mem_cons]
  rfl

/-- What one move of a worker does to its tasks. -/
theorem handsOut_move? {w w' : Worker τ} {due? : Option (Entry τ)}
    (h : w.move? = some (due?, w')) : (worker w).HandsOut due? (worker w') := by
  cases (Worker.goes_of_move? h).2 with
  | starts first rest hqueue hdue hkept =>
    refine HandsOut.of_taken (fun e => ?_) rfl
    rw [mem_live_worker, mem_live_worker]
    by_cases heq : e = first
    · subst heq
      simp [hqueue, hkept]
    · simp [hqueue, heq]
  | skips first rest hqueue hdue hcancelled =>
    refine HandsOut.of_live (fun e => ?_) rfl
    rw [mem_live_worker, mem_live_worker]
    by_cases heq : e = first
    · subst heq
      simp [hcancelled]
    · simp [hqueue, heq]
  | receives entry rest hidle hcommands =>
    refine HandsOut.of_live (fun e => ?_) rfl
    rw [mem_live_worker, mem_live_worker]
    simp only [Timeline.mem_enqueue, hcommands, List.mem_cons, Worker.Command.schedule.injEq]
    rw [or_assoc, or_left_comm]
  | stops rest hidle hcommands =>
    refine HandsOut.of_dropped (fun e he => ?_) rfl
    obtain ⟨hwaits, hkept⟩ := mem_live_worker.mp he
    refine mem_live_worker.mpr ⟨Or.inr ?_, hkept⟩
    rcases hwaits with hqueue | hsent
    · cases hqueue
    · exact hcommands ▸ List.mem_cons_of_mem _ hsent

end Scheduler

end Lwm2mClient
