import Lwm2mClient.Proofs.Scenario.Tellings
import Lwm2mClient.Proofs.Timeline.Splitting
import Mathlib.Logic.Function.Iterate

/-!
Scripted tasks that hand over and cancel tasks, look at the timeline, shut it down or fail, and
do nothing else. A thread that moves the clock starts them one after the other and takes their
steps, move by move; what comes of it is what comes of bodies that do the same. So a thread that
moves the clock by two spans, one after the other, leads a world to where a thread leads it that
moves the clock by both at once.
-/
namespace Lwm2mClient.Scenario

open Timeline (Body Staffed)

/-- A step that uses the timeline without moving its clock, and hands over only tasks of such
steps. -/
inductive Step.IsErrand : Step → Prop
  | schedule (task : String) (delay : Duration) {body : List Step}
    (hbody : ∀ s ∈ body, IsErrand s) :
    IsErrand (.schedule task delay body)
  | cancelTask (task : String) : IsErrand (.cancelTask task)
  | isCancelled (task : String) : IsErrand (.isCancelled task)
  | pending : IsErrand .pending
  | now : IsErrand .now
  | shutDownTimeline : IsErrand .shutDownTimeline
  | fail : IsErrand .fail

def Task.IsErrand : Task → Prop
  | .work .. => False
  | .body _ steps => ∀ s ∈ steps, s.IsErrand

/-- What a task does with the timeline by its steps. The rest of the world is what it remembers,
with the handles and with the notes of what it does. -/
def errand (task : String) : List Step → World → Body Task World
  | [], w => .ended w
  | .schedule name delay body :: rest, w =>
    .schedule delay (.body name body) fun h =>
      let w := { w with handles := (name, h) :: w.handles.filter (·.1 ≠ name) }
      .isCancelled h fun c => errand task rest (w.note (.result task (.handle c)))
  | .cancelTask name :: rest, w =>
    match w.handles.lookup name with
    | some h =>
      .cancel h (.isCancelled h fun c => errand task rest (w.note (.result task (.flag c))))
    | none => errand task rest (w.note (.result task .nothing))
  | .isCancelled name :: rest, w =>
    match w.handles.lookup name with
    | some h => .isCancelled h fun c => errand task rest (w.note (.result task (.flag c)))
    | none => errand task rest (w.note (.result task .nothing))
  | .pending :: rest, w => .pending fun delays =>
    errand task rest (w.note (.result task (.durations (some delays))))
  | .now :: rest, w => .now fun now =>
    errand task rest (w.note (.result task (.duration (some now))))
  | .shutDownTimeline :: rest, w => .shutdown (errand task rest (w.note (.result task .nothing)))
  | _ :: _, w => .failed (w.report [.taskFailed])

/-- What a task does that is started. -/
def errands : Task → World → Body Task World
  | .work .., w => .ended w
  | .body task steps, w => .now fun now => errand task steps (w.note (.started task (some now)))

namespace World

variable {w w' w'' : World} {t t' : Timeline Task} {role : Role} {frames outer : List Frame}
    {target : Duration}

/-- Moves of the threads lead from a world to another one. -/
def Leads (w w' : World) : Prop := ∃ moves, tick^[moves] w = w'

theorem Leads.refl (w : World) : w.Leads w := ⟨0, rfl⟩

theorem Leads.trans (h : w.Leads w') (h' : w'.Leads w'') : w.Leads w'' := by
  obtain ⟨moves, rfl⟩ := h
  obtain ⟨moves', rfl⟩ := h'
  exact ⟨moves' + moves, Function.iterate_add_apply tick moves' moves w⟩

/-- A thread that is not blocked moves first. -/
theorem Leads.of_turn {thread : Thread} (hready : w.isBlocked thread = false)
    (h : (w.turn thread).Leads w') : (w.led thread).Leads w' := by
  obtain ⟨moves, rfl⟩ := h
  exact ⟨moves + 1, congrArg tick^[moves] (tick_led hready)⟩

/-- The world with a timeline. -/
def on (w : World) (t : Timeline Task) : World := { w with scheduler := .timeline t }

theorem report_on (w : World) (t : Timeline Task) (lines : List Log.Line) :
    (w.on t).report lines = (w.report lines).on t := by
  have hlevel : (w.on t).level = w.level := rfl
  unfold report
  rw [hlevel]
  split <;> rfl

/-- A step of a task that has its result at once. -/
theorem Leads.of_result {task : String} {s : Step} {rest : List Step} {value : Result} {v : World}
    (htake : (w.on t).take s = (v.on t', .result value))
    (h : (((v.note (.result task value)).on t').led ⟨role, .body task rest :: frames⟩).Leads w') :
    ((w.on t).led ⟨role, .body task (s :: rest) :: frames⟩).Leads w' := by
  refine .of_turn rfl ?_
  have hturn : (w.on t).turn ⟨role, .body task (s :: rest) :: frames⟩ =
      ((v.note (.result task value)).on t').led ⟨role, .body task rest :: frames⟩ := by
    simp only [turn, move, takeStep, htake]
    rfl
  rw [hturn]
  exact h

/-- The steps of a task come to what its body comes to, and then the move of the clock goes on. -/
theorem leads_of_errand (role : Role) (frames : List Frame) (started : Nat) {task : String}
    {steps : List Step} (hsteps : ∀ s ∈ steps, s.IsErrand)
    (hqueue : ∀ e ∈ t.queue, e.task.IsErrand) (hrun : (errand task steps w).run t = (t', w')) :
    ((w.on t).led ⟨role, .body task steps :: .advance target started :: frames⟩).Leads
        ((w'.on t').led ⟨role, .advance target (started + 1) :: frames⟩) ∧
      ∀ e ∈ t'.queue, e.task.IsErrand := by
  induction steps generalizing w t with
  | nil =>
    cases hrun
    exact ⟨.of_turn rfl (.refl _), hqueue⟩
  | cons s rest ih =>
    obtain ⟨hs, hrest⟩ := List.forall_mem_cons.mp hsteps
    cases hs with
    | schedule name delay hbody =>
      refine (ih hrest (fun e he => ?_) hrun).imp_left (.of_result rfl)
      rcases Timeline.mem_schedule he with hold | ⟨-, htask, -⟩
      · exact hqueue e hold
      · exact htask ▸ hbody
    | cancelTask name =>
      cases hlookup : w.handles.lookup name with
      | none =>
        simp only [errand, hlookup] at hrun
        have htake : (w.on t).take (.cancelTask name) = (w.on t, .result .nothing) := by
          simp only [take, withHandle, on, hlookup]
        exact (ih hrest hqueue hrun).imp_left (.of_result htake)
      | some h =>
        simp only [errand, hlookup] at hrun
        have htake : (w.on t).take (.cancelTask name) =
            (w.on (t.cancel h), .result (.flag ((t.cancel h).isCancelled h))) := by
          simp only [take, withHandle, on, hlookup]
          rfl
        exact (ih hrest (fun e he => hqueue e (Timeline.mem_of_mem_cancel he)) hrun).imp_left
          (.of_result htake)
    | isCancelled name =>
      cases hlookup : w.handles.lookup name with
      | none =>
        simp only [errand, hlookup] at hrun
        have htake : (w.on t).take (.isCancelled name) = (w.on t, .result .nothing) := by
          simp only [take, withHandle, on, hlookup]
        exact (ih hrest hqueue hrun).imp_left (.of_result htake)
      | some h =>
        simp only [errand, hlookup] at hrun
        have htake :
            (w.on t).take (.isCancelled name) = (w.on t, .result (.flag (t.isCancelled h))) := by
          simp only [take, withHandle, on, hlookup]
          rfl
        exact (ih hrest hqueue hrun).imp_left (.of_result htake)
    | pending => exact (ih hrest hqueue hrun).imp_left (.of_result rfl)
    | now => exact (ih hrest hqueue hrun).imp_left (.of_result rfl)
    | shutDownTimeline => exact (ih hrest (List.forall_mem_nil _) hrun).imp_left (.of_result rfl)
    | fail =>
      cases hrun
      refine ⟨.of_turn rfl ?_, hqueue⟩
      rw [← report_on]
      exact .refl _

/-- A move of the clock on which tasks of errands are started comes to where those bodies bring
it. -/
theorem leads_of_movesTo (role : Role) (outer : List Frame) (more : List Step)
    (results : List Result) (started : Nat) {s s' : Staffed Task World} {count : Nat}
    (h : Staffed.MovesTo errands target s count s')
    (hqueue : ∀ e ∈ s.timeline.queue, e.task.IsErrand) :
    ((s.memory.on s.timeline).led
      ⟨role, .advance target started :: .steps more results :: outer⟩).Leads
        ((s'.memory.on s'.timeline).led
          ⟨role, .steps more (results ++ [.count (started + count)]) :: outer⟩) ∧
      ∀ e ∈ s'.timeline.queue, e.task.IsErrand := by
  induction h generalizing started with
  | @rests s hnone =>
    refine ⟨.of_turn rfl ?_, hqueue⟩
    have hturn :
        (s.memory.on s.timeline).turn
          ⟨role, .advance target started :: .steps more results :: outer⟩ =
        (s.memory.on (s.timeline.settle target)).led
          ⟨role, .steps more (results ++ [.count started]) :: outer⟩ := by
      simp only [turn, move, on, hnone]
      rfl
    rw [hturn]
    exact .refl _
  | @starts s s' s'' count hstart hrest ih =>
    obtain ⟨⟨⟨due, number, task⟩, t⟩, htake, rfl⟩ := Option.map_eq_some_iff.mp hstart
    obtain ⟨hsplit, -, -⟩ := Timeline.takeDue?_eq_some htake
    rw [hsplit] at hqueue
    obtain ⟨htask, hleft⟩ := List.forall_mem_cons.mp hqueue
    cases task with
    | work engine work => exact htask.elim
    | body name steps =>
      have hturn :
          (s.memory.on s.timeline).turn
            ⟨role, .advance target started :: .steps more results :: outer⟩ =
          ((s.memory.note (.started name (some t.now))).on t).led
            ⟨role, .body name steps :: .advance target started ::
              .steps more results :: outer⟩ := by
        simp only [turn, move, on, htake]
        rfl
      obtain ⟨hleads, hqueue'⟩ :=
        leads_of_errand role (.steps more results :: outer) started htask hleft rfl
      obtain ⟨hleads', hqueue''⟩ := ih (started + 1) hqueue'
      refine ⟨.of_turn rfl ?_, hqueue''⟩
      rw [hturn, Nat.add_comm count, ← Nat.add_assoc]
      exact hleads.trans hleads'

variable {s stop s' : Staffed Task World} {span a b : Duration} {count before after : Nat}

/-- A thread gets through a step that moves the clock, and is told how many tasks were started. -/
theorem leads_of_advances (role : Role) (outer : List Frame) (more : List Step)
    (results : List Result) (h : Staffed.Advances errands span s count s')
    (hqueue : ∀ e ∈ s.timeline.queue, e.task.IsErrand) :
    ((s.memory.on s.timeline).led ⟨role, .steps (.advance span :: more) results :: outer⟩).Leads
        ((s'.memory.on s'.timeline).led
          ⟨role, .steps more (results ++ [.count count]) :: outer⟩) ∧
      ∀ e ∈ s'.timeline.queue, e.task.IsErrand := by
  obtain ⟨target, htarget, hmoves⟩ := h
  have hturn :
      (s.memory.on s.timeline).turn ⟨role, .steps (.advance span :: more) results :: outer⟩ =
      (s.memory.on s.timeline).led ⟨role, .advance target 0 :: .steps more results :: outer⟩ := by
    simp only [turn, move, takeStep, take, on, Scheduler.now?, htarget]
    rfl
  have hleads := leads_of_movesTo role outer more results 0 hmoves hqueue
  rw [Nat.zero_add] at hleads
  exact hleads.imp_left fun hleads => .of_turn rfl (hturn ▸ hleads)

/-- A thread that moves the clock by two spans, one after the other, leads the world to where a
thread leads it that moves the clock by both at once. -/
theorem leads_alike (role : Role) (outer : List Frame) (more : List Step) (results : List Result)
    (hrange : s.timeline.now.nanos + a.nanos + b.nanos ≤ Duration.maxNanos)
    (hqueue : ∀ e ∈ s.timeline.queue, e.task.IsErrand)
    (hbefore : Staffed.Advances errands a s before stop)
    (hafter : Staffed.Advances errands b stop after s') :
    ∃ v : World,
      ((s.memory.on s.timeline).led
        ⟨role, .steps (.advance a :: .advance b :: more) results :: outer⟩).Leads
        (v.led ⟨role, .steps more (results ++ [.count before, .count after]) :: outer⟩) ∧
      ((s.memory.on s.timeline).led
        ⟨role, .steps (.advance (a.saturatingAdd b) :: more) results :: outer⟩).Leads
        (v.led ⟨role, .steps more (results ++ [.count (before + after)]) :: outer⟩) := by
  obtain ⟨hfirst, hstopped⟩ :=
    leads_of_advances role outer (.advance b :: more) results hbefore hqueue
  obtain ⟨hsecond, -⟩ :=
    leads_of_advances role outer more (results ++ [.count before]) hafter hstopped
  have hboth :=
    (Staffed.advances_iff_of_le hrange).mpr ⟨stop, before, after, hbefore, hafter, rfl⟩
  refine ⟨s'.memory.on s'.timeline, ?_,
    (leads_of_advances role outer more results hboth hqueue).1⟩
  rw [List.append_assoc] at hsecond
  exact hfirst.trans hsecond

end World
end Lwm2mClient.Scenario
