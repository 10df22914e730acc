import Lwm2mClient.Proofs.Timeline.Serving
import Lwm2mClient.Timeline.Scheduler

/-!
Schedulers do not care what their tasks are. When a task is due, under which number it was
accepted and whether it was cancelled decides everything; so a scheduler goes on in the same way
where other tasks stand in place of its own.
-/
namespace Lwm2mClient

variable {τ υ φ : Type}

def Timeline.Entry.map (f : τ → υ) (e : Timeline.Entry τ) : Timeline.Entry υ :=
  ⟨e.due, e.number, f e.task⟩

open Timeline (Entry enqueue)

/-! ### Timelines -/

namespace Timeline

/-- The timeline with other tasks in place of its own. -/
def map (f : τ → υ) (t : Timeline τ) : Timeline υ where
  now := t.now
  accepted := t.accepted
  queue := t.queue.map (Entry.map f)
  cancelled := t.cancelled
  shutDown := t.shutDown

variable (f : τ → υ) (t : Timeline τ)

theorem enqueue_map (e : Entry τ) (queue : List (Entry τ)) :
    enqueue (e.map f) (queue.map (Entry.map f)) = (enqueue e queue).map (Entry.map f) := by
  induction queue with
  | nil => rfl
  | cons x xs ih =>
    simp only [List.map_cons, enqueue, ih]
    split
    · rw [if_pos (by assumption)]
      rfl
    · rw [if_neg (by assumption)]
      rfl

theorem schedule_map (delay : Duration) (task : τ) :
    (t.map f).schedule delay (f task) =
      ((t.schedule delay task).1, (t.schedule delay task).2.map f) := by
  have hqueue := enqueue_map f ⟨t.now.saturatingAdd delay, t.accepted + 1, task⟩ t.queue
  by_cases hshut : t.shutDown = true
  · simp only [schedule, map, hshut, if_true]
  · simp only [schedule, map, hshut, Bool.false_eq_true, if_false, ← hqueue]
    rfl

theorem cancel_map (handle : TaskHandle) : (t.map f).cancel handle = (t.cancel handle).map f := by
  cases handle with
  | refused => rfl
  | accepted number =>
    simp only [cancel, map, List.filter_map]
    rfl

theorem isCancelled_map (handle : TaskHandle) :
    (t.map f).isCancelled handle = t.isCancelled handle := by
  cases handle <;> rfl

theorem pending_map : (t.map f).pending = t.pending := by
  simp only [pending, map, List.map_map]
  rfl

theorem takeDue?_map (target : Duration) :
    (t.map f).takeDue? target = (t.takeDue? target).map fun due =>
      (due.1.map f, due.2.map f) := by
  obtain ⟨now, accepted, _ | ⟨e, rest⟩, cancelled, shutDown⟩ := t
  · rfl
  · by_cases hdue : e.due ≤ target
    · simp only [takeDue?, map, List.map_cons, Entry.map, hdue, if_true, Option.map_some]
    · simp only [takeDue?, map, List.map_cons, Entry.map, hdue, if_false, Option.map_none]

end Timeline

/-! ### Workers -/

namespace Worker

def Command.map (f : τ → υ) : Command τ → Command υ
  | schedule entry => schedule (entry.map f)
  | stop => stop

/-- The worker with other tasks in place of its own. -/
def map (f : τ → υ) (w : Worker τ) : Worker υ where
  now := w.now
  accepted := w.accepted
  commands := w.commands.map (Command.map f)
  queue := w.queue.map (Entry.map f)
  cancelled := w.cancelled
  closed := w.closed
  stopped := w.stopped

variable (f : τ → υ) (w : Worker τ)

theorem schedule_map (delay : Duration) (task : τ) :
    (w.map f).schedule delay (f task) =
      ((w.schedule delay task).1, (w.schedule delay task).2.map f) := by
  by_cases hclosed : w.closed = true
  · simp only [schedule, map, hclosed, if_true]
  · simp only [schedule, map, hclosed, Bool.false_eq_true, if_false, List.map_append]
    rfl

theorem cancel_map (handle : TaskHandle) : (w.map f).cancel handle = (w.cancel handle).map f := by
  cases handle <;> rfl

theorem isCancelled_map (handle : TaskHandle) :
    (w.map f).isCancelled handle = w.isCancelled handle := by
  cases handle <;> rfl

theorem shutdown_map : (w.map f).shutdown = w.shutdown.map f := by
  by_cases hclosed : w.closed = true
  · simp only [shutdown, map, hclosed, if_true]
  · simp only [shutdown, map, hclosed, Bool.false_eq_true, if_false, List.map_append]
    rfl

theorem receive?_map :
    (w.map f).receive? = w.receive?.map fun moved =>
      (moved.1.map (Entry.map f), moved.2.map f) := by
  obtain ⟨now, accepted, _ | ⟨entry | _, commands⟩, queue, cancelled, closed, stopped⟩ := w
  · rfl
  · have hqueue := Timeline.enqueue_map f entry queue
    simp only [receive?, map, List.map_cons, Command.map, hqueue]
    rfl
  · rfl

theorem isIdle_map (h : w.IsIdle) : (w.map f).IsIdle := by
  intro e he
  have hhead : (w.queue.head?.map (Entry.map f)) = some e := List.head?_map ▸ he
  obtain ⟨first, hfirst, rfl⟩ := Option.map_eq_some_iff.mp hhead
  exact h first hfirst

theorem move?_map :
    (w.map f).move? = w.move?.map fun moved => (moved.1.map (Entry.map f), moved.2.map f) := by
  by_cases hstopped : w.stopped = true
  · have hmapped : (w.map f).stopped = true := hstopped
    simp only [move?, hstopped, hmapped, if_true, Option.map_none]
  · rw [Bool.not_eq_true] at hstopped
    have hserving : (w.map f).stopped = false := hstopped
    rcases w.isIdle_or_due with hidle | ⟨e, rest, hqueue, hdue⟩
    · rw [move?_of_isIdle hstopped hidle,
        move?_of_isIdle hserving (isIdle_map f w hidle), receive?_map]
    · have hmapped : (w.map f).queue = e.map f :: rest.map (Entry.map f) :=
        congrArg (List.map (Entry.map f)) hqueue
      rw [move?_of_due hstopped hqueue hdue, move?_of_due hserving hmapped hdue, Option.map_some]
      congr 2
      exact (apply_ite (Option.map (Entry.map f)) (e.number ∈ w.cancelled) none (some e)).symm

theorem isBlocked_map : (w.map f).isBlocked = w.isBlocked := by
  unfold isBlocked
  rw [move?_map, Option.isNone_map]
  rfl

theorem nextDue?_map : (w.map f).nextDue? = w.nextDue? := by
  simp only [nextDue?, map, List.head?_map, Option.map_map]
  rfl

end Worker

/-! ### Schedulers -/

namespace Scheduler

/-- The scheduler with other tasks in place of its own. -/
def map (f : τ → υ) : Scheduler τ → Scheduler υ
  | timeline t => timeline (t.map f)
  | worker w => worker (w.map f)

variable (f : τ → υ) (s : Scheduler τ)

theorem map_map (g : υ → φ) : (s.map f).map g = s.map fun task => g (f task) := by
  have hentry : Entry.map g ∘ Entry.map f = Entry.map fun task => g (f task) := rfl
  have hcommand : Worker.Command.map g ∘ Worker.Command.map f = Worker.Command.map fun task =>
      g (f task) := by
    funext c
    cases c <;> rfl
  cases s with
  | timeline t => simp only [map, Timeline.map, List.map_map, hentry]
  | worker w => simp only [map, Worker.map, List.map_map, hentry, hcommand]

theorem schedule_map (delay : Duration) (task : τ) :
    (s.map f).schedule delay (f task) =
      ((s.schedule delay task).1, (s.schedule delay task).2.map f) := by
  cases s with
  | timeline t => simp only [map, schedule, t.schedule_map]
  | worker w => simp only [map, schedule, w.schedule_map]

theorem cancel_map (handle : TaskHandle) : (s.map f).cancel handle = (s.cancel handle).map f := by
  cases s with
  | timeline t => exact congrArg timeline (t.cancel_map f handle)
  | worker w => exact congrArg worker (w.cancel_map f handle)

@[simp] theorem isCancelled_map (handle : TaskHandle) :
    (s.map f).isCancelled handle = s.isCancelled handle := by
  cases s with
  | timeline t => exact t.isCancelled_map f handle
  | worker w => exact w.isCancelled_map f handle

theorem shutdown_map : (s.map f).shutdown = s.shutdown.map f := by
  cases s with
  | timeline t => rfl
  | worker w => exact congrArg worker (w.shutdown_map f)

theorem passUntil_map (instant : Duration) :
    (s.map f).passUntil instant = (s.passUntil instant).map f := by
  cases s <;> rfl

@[simp] theorem isOpenWorker_map : (s.map f).isOpenWorker = s.isOpenWorker := by
  cases s <;> rfl

@[simp] theorem isServing_map : (s.map f).isServing = s.isServing := by
  cases s <;> rfl

@[simp] theorem isBlocked_map : (s.map f).isBlocked = s.isBlocked := by
  cases s with
  | timeline t => rfl
  | worker w => exact w.isBlocked_map f

@[simp] theorem nextDue?_map : (s.map f).nextDue? = s.nextDue? := by
  cases s with
  | timeline t => rfl
  | worker w => exact w.nextDue?_map f

@[simp] theorem now?_map : (s.map f).now? = s.now? := by
  cases s <;> rfl

@[simp] theorem pending?_map : (s.map f).pending? = s.pending? := by
  cases s with
  | timeline t => exact congrArg some (t.pending_map f)
  | worker w => rfl

end Scheduler
end Lwm2mClient
