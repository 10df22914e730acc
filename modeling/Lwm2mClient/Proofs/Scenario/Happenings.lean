import Lwm2mClient.Scenario.Run

/-!
Scenarios told by what happens in them. Whatever a scenario does to a world comes down to a few
happenings: a step begins on a thread of its own, a thread moves or time passes, what is left of a
step that is over is dropped, and notes are told. What holds for all sequences of happenings holds
in particular for every scenario and at every moment of it.
-/
namespace Lwm2mClient.Scenario

inductive Happening where
  /-- A step begins on a thread of its own. -/
  | begin (step : Step)
  /-- A thread moves or, where all are blocked, time passes. -/
  | tick
  /-- All threads but the worker are dropped, with the results of those that ended. -/
  | join
  /-- What was noted is told. -/
  | told

namespace World

def happen (w : World) : Happening → World
  | .begin step => w.beginStep step
  | .tick => w.tick
  | .join => { w with threads := w.threads.filter (·.role = .worker), ended := [] }
  | .told => w.clearNotes

/-- The world after some happenings. -/
def after (w : World) (happenings : List Happening) : World := happenings.foldl happen w

@[simp] theorem after_cons (w : World) (h : Happening) (rest : List Happening) :
    w.after (h :: rest) = (w.happen h).after rest := rfl

theorem after_append (w : World) (before rest : List Happening) :
    w.after (before ++ rest) = (w.after before).after rest :=
  List.foldl_append

/-- What every happening keeps, every run of them keeps. -/
theorem after_induction {P : World → Prop} (hhappen : ∀ w h, P w → P (w.happen h)) {w : World}
    (hw : P w) (happenings : List Happening) : P (w.after happenings) := by
  induction happenings generalizing w with
  | nil => exact hw
  | cons h rest ih => exact ih (hhappen w h hw)

/-- A program that operates no engine, or goes on in the middle of an operation, is
followed from call to call. -/
theorem follow_call {α : Type} {engine : Option Nat} {c : Call} {next : c.Answer → Program α}
    {w : World} (hacquire : c ≠ .acquire) (hrelease : c ≠ .release) :
    follow engine (.call c next) w =
      match w.answer? engine c with
      | some (w, .ok answer) => follow engine (next answer) w
      | some (w, .error fault) => (w, .failed fault)
      | none => (w, .asking c next) := by
  cases c with
  | acquire => exact absurd rfl hacquire
  | release => exact absurd rfl hrelease
  | _ => rcases hanswer :
      w.answer? engine _ with _ | ⟨w', fault | answer⟩ <;> simp only [follow, hanswer]

/-! ### Scenarios -/

theorem runUntil_after (stop : World → Bool) (moves : Nat) (w : World) :
    ∃ happenings, runUntil stop moves w = w.after happenings := by
  induction moves generalizing w with
  | zero => exact ⟨[], rfl⟩
  | succ n ih =>
    unfold runUntil
    split
    · exact ⟨[], rfl⟩
    · obtain ⟨rest, hrest⟩ := ih w.tick
      exact ⟨.tick :: rest, hrest⟩

theorem tell_after (moves : Nat) (w : World) (step : Step) :
    ∃ happenings, (w.tell moves step).1 = w.after happenings := by
  obtain ⟨during, hduring⟩ := runUntil_after isJoined moves (w.beginStep step)
  let joined := (runUntil isJoined moves (w.beginStep step)).happen .join
  obtain ⟨still, hstill⟩ := runUntil_after isSettled moves joined
  refine ⟨.begin step :: (during ++ .join :: (still ++ [.told])), ?_⟩
  have hjoined : ((w.happen (.begin step)).after during).happen .join = joined :=
    congrArg (·.happen .join) hduring.symm
  rw [after_cons, after_append, after_cons, after_append, hjoined, ← hstill]
  rfl

/-- Every scenario is a run of happenings. -/
theorem tellAll_after (moves : Nat) (w : World) (steps : List Step) :
    ∃ happenings, (w.tellAll moves steps).1 = w.after happenings := by
  induction steps generalizing w with
  | nil => exact ⟨[], rfl⟩
  | cons step rest ih =>
    obtain ⟨first, hfirst⟩ := tell_after moves w step
    obtain ⟨others, hothers⟩ := ih (w.tell moves step).1
    refine ⟨first ++ others, ?_⟩
    rw [after_append, ← hfirst, ← hothers]
    rfl

end World
end Lwm2mClient.Scenario
