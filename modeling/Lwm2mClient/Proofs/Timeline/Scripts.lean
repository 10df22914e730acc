import Lwm2mClient.Proofs.Timeline.Draining

/-!
Scripts for a worker, as uses of its scheduler. Whatever a script does, in its steps, in the
bodies of its tasks and while it waits, comes down to uses of the worker, so what holds after any
uses holds after any script.
-/
namespace Lwm2mClient.WorkerScript

open Timeline (Entry)
open Scheduler (Use Used)

/-- Uses of the worker lead from one state of a script to another, starting the same tasks. -/
def Reaches (s s' : State) : Prop :=
  ∀ entries : List (Entry Task), entries.map (·.task.name) = s.started →
    ∃ uses entries', Used.run ⟨.worker s.worker, entries⟩ uses = ⟨.worker s'.worker, entries'⟩ ∧
      entries'.map (·.task.name) = s'.started

variable {s s' s'' : State}

theorem Reaches.refl (s : State) : Reaches s s :=
  fun entries hstarted => ⟨[], entries, rfl, hstarted⟩

theorem Reaches.trans (h : Reaches s s') (h' : Reaches s' s'') : Reaches s s'' := by
  intro entries hstarted
  obtain ⟨first, entries', hfirst, hstarted'⟩ := h entries hstarted
  obtain ⟨second, entries'', hsecond, hstarted''⟩ := h' entries' hstarted'
  refine ⟨first ++ second, entries'', ?_, hstarted''⟩
  rw [Used.run, List.foldl_append]
  exact (congrArg (fun u => Used.run u second) hfirst).trans hsecond

/-- A use of the worker that starts nothing. -/
theorem Reaches.of_use (use : Use Task) (hstarted : s'.started = s.started)
    (hworker : ∀ entries, Used.step ⟨.worker s.worker, entries⟩ use =
      ⟨.worker s'.worker, entries⟩) : Reaches s s' :=
  fun entries h => ⟨[use], entries, hworker entries, h.trans hstarted.symm⟩

theorem withHandle_reaches (s : State) (name : String) {f : TaskHandle → State × Result}
    (h : ∀ handle, Reaches s (f handle).1) : Reaches s (withHandle s name f).1 := by
  unfold withHandle
  split
  · exact h _
  · exact .refl s

theorem take_reaches (s : State) (step : Step) : Reaches s (take s step).1 := by
  cases step with
  | schedule name delay body fails =>
    exact .of_use (.schedule delay ⟨name, body⟩) rfl fun _ => rfl
  | cancel name =>
    exact withHandle_reaches s name fun handle => .of_use (.cancel handle) rfl fun _ => rfl
  | isCancelled name => exact withHandle_reaches s name fun _ => .refl s
  | wait name => exact .refl s
  | shutdown => exact .of_use .shutdown rfl fun _ => rfl

theorem steps_reach (steps : List Step) (s : State) :
    Reaches s (steps.foldl (fun s step => (take s step).1) s) := by
  induction steps generalizing s with
  | nil => exact .refl s
  | cons step rest ih => exact (take_reaches s step).trans (ih _)

/-- A move of the worker, with what the task does that is started, if any. -/
theorem move_reaches {due? : Option (Entry Task)} {worker : Worker Task}
    (hmove : s.worker.move? = some (due?, worker)) :
    Reaches s
      { s with worker := worker, started := (due?.map (·.task.name)).toList ++ s.started } := by
  intro entries hstarted
  refine ⟨[.serve .zero], due?.toList ++ entries, ?_, ?_⟩
  · simp only [Used.run, List.foldl_cons, List.foldl_nil, Used.step, Scheduler.serve?, hmove,
      Option.map_some]
  · cases due? <;> simp [hstarted]

theorem settle_reaches (n : Nat) (s : State) : Reaches s (settle n s) := by
  induction n generalizing s with
  | zero => exact .refl s
  | succ n ih =>
    unfold settle
    split
    · exact ((move_reaches ‹_›).trans (steps_reach _ _)).trans (ih _)
    · exact (move_reaches ‹_›).trans (ih _)
    · exact .refl s

theorem pass_reaches (s : State) (instant : Duration) :
    Reaches s { s with worker := s.worker.passUntil instant } :=
  .of_use (.pass instant) rfl fun _ => rfl

theorem waitFor_reaches (moves : Nat) (name : String) (deadline : Duration) (n : Nat)
    (s : State) : Reaches s (waitFor moves name deadline n s).1 := by
  induction n generalizing s with
  | zero => exact .refl s
  | succ n ih =>
    unfold waitFor
    split
    · exact .refl s
    · split
      · exact ((pass_reaches s _).trans (settle_reaches moves _)).trans (ih _)
      · exact pass_reaches s deadline

theorem hostStep_reaches (moves : Nat) (s : State) (step : Step) :
    Reaches s (hostStep moves s step).1 := by
  unfold hostStep
  split
  · exact waitFor_reaches moves _ _ moves s
  · exact (take_reaches s step).trans (settle_reaches moves _)

theorem hostSteps_reach (moves : Nat) (steps : List Step) (s : State) (results : List Result) :
    Reaches s (steps.foldl (fun (s, results) step =>
      let (s, result) := hostStep moves s step
      (s, result :: results)) (s, results)).1 := by
  induction steps generalizing s results with
  | nil => exact .refl s
  | cons step rest ih => exact (hostStep_reaches moves s step).trans (ih _ _)

/-- The tasks that a script runs are those that a worker starts in the course of some uses. -/
theorem uses_of_run (moves : Nat) (steps : List Step) :
    ∃ uses, ((Used.run (⟨.worker {}, []⟩ : Used Task) uses).started.map (·.task.name)).reverse =
      (run moves steps).2 := by
  have hrun : Reaches {} (settle moves _) :=
    ((hostSteps_reach moves steps {} []).trans (take_reaches _ .shutdown)).trans
      (settle_reaches moves _)
  obtain ⟨uses, entries, huses, hstarted⟩ := hrun [] rfl
  refine ⟨uses, ?_⟩
  rw [huses]
  exact congrArg List.reverse hstarted

end Lwm2mClient.WorkerScript
