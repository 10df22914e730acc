import Lwm2mClient.Proofs.Scenario.Firsts
import Lwm2mClient.Proofs.Scenario.Silence
import Lwm2mClient.Proofs.Timeline.Waiting

/-!
How the steps of a scenario are told, followed move by move. A step that has its result at once
takes two moves. Where no thread has anything to do but to move the clock or to serve the
timeline, and nothing waits there, no step that moves the clock makes anything happen.
-/
namespace Lwm2mClient.Scenario

/-- The work of those who only move the clock or serve the timeline. -/
def Frame.IsVacant : Frame → Prop
  | .steps rest _ => ∀ s ∈ rest, ∃ span, s = .advance span
  | .advance .. | .serve => True
  | _ => False

namespace World

variable {w w' : World} {stop : World → Bool} {t : Thread}

/-! ### Moves -/

/-- A world with one more thread, which goes on first. -/
def led (w : World) (t : Thread) : World := { w with threads := t :: w.threads }

theorem runUntil_of_stop (h : stop w = true) (n : Nat) : runUntil stop n w = w := by
  cases n with
  | zero => rfl
  | succ n => simp only [runUntil, h, Bool.true_or, if_true]

theorem tick_led (hready : w.isBlocked t = false) : (w.led t).tick = w.turn t := by
  have hready' : ¬ (w.led t).isBlocked t = true := Bool.eq_false_iff.mp hready
  have hspan : (w.led t).threads.span (w.led t).isBlocked = ([], t :: w.threads) := by
    rw [List.span_eq_takeWhile_dropWhile]
    exact congrArg₂ Prod.mk (List.takeWhile_cons_of_neg hready')
      (List.dropWhile_cons_of_neg hready')
  have hfirst : (w.led t).takeReady = some (t, w) := by
    simp only [takeReady, hspan]
    rfl
  simp only [tick, hfirst]

theorem runUntil_led (hstop : stop (w.led t) = false) (hready : w.isBlocked t = false) (n : Nat) :
    runUntil stop (n + 1) (w.led t) = runUntil stop n (w.turn t) := by
  have hmoves : (w.led t).isStuck = false := by
    have hready' : (w.led t).isBlocked t = false := hready
    have hall : (w.led t).isStuck = ((w.led t).isBlocked t && ((w.led t).wake? t).isNone &&
      w.threads.all fun t' =>
        (w.led t).isBlocked t' && ((w.led t).wake? t').isNone) := List.all_cons
    rw [hall, hready']
    rfl
  simp only [runUntil, hstop, hmoves, Bool.or_self, Bool.false_eq_true, if_false, tick_led hready]

/-- A step with a result at once takes two moves, one to take it and one to end its thread. -/
theorem runUntil_of_result {step : Step} {value : Result} (hjoined : w.isJoined = true)
    (htake : w.take step = (w', .result value)) (hthreads : w'.threads = w.threads) (n : Nat) :
    runUntil isJoined (n + 2) (w.beginStep step) = w'.settle .main (.list [value]) := by
  have htaken : w.turn ⟨.main, [.steps [step] []]⟩ = w'.led ⟨.main, [.steps [] [value]]⟩ := by
    simp only [turn, move, takeStep, htake]
    rfl
  have hjoined' : (w'.settle .main (.list [value])).isJoined = true := by
    change w'.threads.all _ = true
    rw [hthreads]
    exact hjoined
  calc runUntil isJoined (n + 2) (w.beginStep step)
      = runUntil isJoined (n + 1) (w'.led ⟨.main, [.steps [] [value]]⟩) := by
        rw [← htaken]
        exact runUntil_led rfl rfl _
    _ = runUntil isJoined n (w'.settle .main (.list [value])) := runUntil_led rfl rfl n
    _ = w'.settle .main (.list [value]) := runUntil_of_stop hjoined' n

/-- A step with a result at once leaves the rest to the worker, if there is one. -/
theorem tell_of_result {step : Step} {value : Result} (hjoined : w.isJoined = true)
    (htake : w.take step = (w', .result value)) (hthreads : w'.threads = w.threads)
    (hended : w'.ended = []) (n : Nat) :
    (w.tell (n + 2) step).1 = (runUntil isSettled (n + 2) w').clearNotes ∧
      (w.tell (n + 2) step).2.sent = (runUntil isSettled (n + 2) w').sent.toList := by
  have hrest : { w'.settle .main (.list [value]) with
      threads := (w'.settle .main (.list [value])).threads.filter (·.role = .worker)
      ended := [] } = w' := by
    have hall : w'.threads.filter (·.role = .worker) = w'.threads := by
      rw [hthreads]
      exact List.filter_eq_self.mpr (List.all_eq_true.mp hjoined)
    change { w' with threads := w'.threads.filter _, ended := [] } = w'
    rw [hall, ← hended]
  simp only [tell, runUntil_of_result hjoined htake hthreads, hrest, and_self]

/-! ### What is shown of it -/

theorem runUntil_silent (hstop : ∀ w, stop (silent w) = stop w) (n : Nat) (w : World) :
    runUntil stop n w.silent = (runUntil stop n w).silent := by
  induction n generalizing w with
  | zero => rfl
  | succ n ih =>
    have hstuck : w.silent.isStuck = w.isStuck := rfl
    simp only [runUntil, hstop, hstuck, tick_silent, ih]
    split <;> rfl

theorem tell_silent (moves : Nat) (w : World) (step : Step) :
    (w.silent.tell moves step).1 = (w.tell moves step).1.silent ∧
      (w.silent.tell moves step).2.sent = (w.tell moves step).2.sent := by
  have hbegun : runUntil isJoined moves (w.silent.beginStep step) =
      (runUntil isJoined moves (w.beginStep step)).silent :=
    runUntil_silent (fun _ => rfl) moves (w.beginStep step)
  have hsettled : ∀ joined : World, runUntil isSettled moves
      { joined.silent with
        threads := joined.silent.threads.filter (·.role = .worker), ended := [] } =
      (runUntil isSettled moves
        { joined with
          threads := joined.threads.filter (·.role = .worker), ended := [] }).silent :=
    fun joined => runUntil_silent (fun _ => rfl) moves (joined.happen .join)
  simp only [tell, hbegun, hsettled]
  exact ⟨rfl, rfl⟩

/-- The same requests are sent, whatever the log shows. -/
theorem tellAll_silent (moves : Nat) (w : World) (steps : List Step) :
    (w.silent.tellAll moves steps).2.map (·.sent) = (w.tellAll moves steps).2.map (·.sent) := by
  induction steps generalizing w with
  | nil => rfl
  | cons step rest ih =>
    obtain ⟨hworld, hsent⟩ := tell_silent moves w step
    simp only [tellAll, List.map_cons, hworld, hsent, ih]

/-! ### Where nothing is left to do -/

/-- No task waits, and no thread does anything but move the clock or serve the timeline. -/
structure IsVacant (w : World) : Prop where
  live : w.scheduler.live = []
  frames : ∀ t ∈ w.threads, ∀ frame ∈ t.frames, frame.IsVacant

/-- A move after which nothing is left to do and nothing was sent. -/
structure Idles (w : World) (moved : World × Next) : Prop where
  live : moved.1.scheduler.live = []
  threads : moved.1.threads = w.threads
  sent : moved.1.sent = w.sent
  frames : ∀ frame ∈ moved.2.frames, frame.IsVacant
  alone : ∀ work frames, moved.2 ≠ .spawn work frames

theorem move_vacant {frame : Frame} {rest : List Frame} (hlive : w.scheduler.live = [])
    (hframe : frame.IsVacant) (hrest : ∀ frame ∈ rest, frame.IsVacant) :
    w.Idles (w.move frame rest) := by
  cases frame with
  | steps remaining results =>
    cases remaining with
    | nil => exact ⟨hlive, rfl, rfl, hrest, by simp [move]⟩
    | cons step others =>
      obtain ⟨⟨span, rfl⟩, hothers⟩ := List.forall_mem_cons.mp hframe
      have hafter : ∀ frame ∈ Frame.steps others results :: rest, frame.IsVacant :=
        List.forall_mem_cons.mpr ⟨hothers, hrest⟩
      simp only [move, takeStep, take]
      cases w.scheduler.now? with
      | none => exact ⟨hlive, rfl, rfl, hafter, by simp⟩
      | some now =>
        dsimp only
        cases now.add? span with
        | none => exact ⟨hlive, rfl, rfl, hrest, by simp⟩
        | some target =>
          exact ⟨hlive, rfl, rfl, List.forall_mem_cons.mpr ⟨trivial, hafter⟩, by simp⟩
  | advance target started =>
    simp only [move]
    cases hscheduler : w.scheduler with
    | worker k => exact ⟨hlive, rfl, rfl, hrest, by simp⟩
    | timeline clock =>
      rw [hscheduler] at hlive
      have hempty : clock.queue = [] := hlive
      simp only [Timeline.takeDue?, hempty]
      exact ⟨hempty, rfl, rfl, hrest, by simp⟩
  | serve =>
    simp only [move]
    cases hscheduler : w.scheduler with
    | timeline clock => exact ⟨hlive, rfl, rfl, hrest, by simp⟩
    | worker k =>
      rw [hscheduler] at hlive
      dsimp only
      rcases hmove : k.move? with _ | ⟨_ | entry, k'⟩
      · exact ⟨hscheduler ▸ hlive, rfl, rfl, hrest, by simp⟩
      · have hleft : (Scheduler.worker k').live = [] :=
          List.eq_nil_iff_forall_not_mem.mpr fun e he => by
            have hold := (Scheduler.handsOut_move? hmove).live e he
            rw [hlive] at hold
            cases hold
        exact ⟨hleft, rfl, rfl, List.forall_mem_cons.mpr ⟨trivial, hrest⟩, by simp⟩
      · have htaken := (Scheduler.handsOut_move? hmove).taken entry rfl
        rw [hlive] at htaken
        cases htaken
  | _ => exact absurd hframe id

theorem deliver_vacant {r : Result} {frames : List Frame} (h : ∀ frame ∈ frames, frame.IsVacant) :
    (w.deliver r frames).1 = w ∧ ∀ frame ∈ (w.deliver r frames).2, frame.IsVacant := by
  cases frames with
  | nil => exact ⟨rfl, h⟩
  | cons frame rest =>
    obtain ⟨hframe, hrest⟩ := List.forall_mem_cons.mp h
    cases frame with
    | steps | advance => exact ⟨rfl, List.forall_mem_cons.mpr ⟨hframe, hrest⟩⟩
    | serve => exact ⟨rfl, h⟩
    | _ => exact absurd hframe id

theorem unwind_vacant {frames : List Frame} (h : ∀ frame ∈ frames, frame.IsVacant) :
    (w.unwind frames).1 = w ∧ ∀ frame ∈ (w.unwind frames).2, frame.IsVacant := by
  induction frames with
  | nil => exact ⟨rfl, h⟩
  | cons frame rest ih =>
    obtain ⟨hframe, hrest⟩ := List.forall_mem_cons.mp h
    cases frame with
    | advance => exact ⟨rfl, List.forall_mem_cons.mpr ⟨trivial, hrest⟩⟩
    | serve => exact ⟨rfl, h⟩
    | steps => exact ih hrest
    | _ => exact absurd hframe id

theorem IsVacant.putBack (h : w.IsVacant) (ht : ∀ frame ∈ t.frames, frame.IsVacant) :
    (w.putBack t).IsVacant := by
  unfold World.putBack
  split
  · exact ⟨h.live, List.forall_mem_append.mpr ⟨h.frames, List.forall_mem_singleton.mpr ht⟩⟩
  · exact ⟨h.live, List.forall_mem_cons.mpr ⟨ht, h.frames⟩⟩

theorem IsVacant.report (h : w.IsVacant) (lines : List Log.Line) : (w.report lines).IsVacant := by
  unfold World.report
  split <;> exact ⟨h.live, h.frames⟩

theorem turn_vacant (h : w.IsVacant) (ht : ∀ frame ∈ t.frames, frame.IsVacant) :
    (w.turn t).IsVacant ∧ (w.turn t).sent = w.sent := by
  obtain ⟨role, _ | ⟨frame, rest⟩⟩ := t
  · exact ⟨⟨h.live, h.frames⟩, rfl⟩
  · obtain ⟨hframe, hrest⟩ := List.forall_mem_cons.mp ht
    obtain ⟨hlive, hthreads, hsent, hframes, halone⟩ := move_vacant h.live hframe hrest
    simp only [turn]
    generalize w.move frame rest = moved at hlive hthreads hsent hframes halone ⊢
    obtain ⟨w', next⟩ := moved
    have hmoved : w'.IsVacant := ⟨hlive, hthreads ▸ h.frames⟩
    cases next with
    | goOn frames => exact ⟨hmoved.putBack hframes, (putBack_sent w' _).trans hsent⟩
    | deliver result frames =>
      cases frames with
      | nil => exact ⟨⟨hmoved.live, hmoved.frames⟩, hsent⟩
      | cons behind others =>
        have hbehind : ∀ frame ∈ behind :: others, frame.IsVacant := hframes
        obtain ⟨hsame, hdelivered⟩ := deliver_vacant (w := w') (r := result) hbehind
        dsimp only
        rw [hsame]
        exact ⟨hmoved.putBack hdelivered, (putBack_sent w' _).trans hsent⟩
    | failed fault frames =>
      have hunwinding : ∀ frame ∈ frames, frame.IsVacant := hframes
      obtain ⟨hsame, hunwound⟩ := unwind_vacant (w := w') hunwinding
      dsimp only
      generalize w'.unwind frames = unwound at hsame hunwound ⊢
      obtain ⟨w'', _ | ⟨behind, others⟩⟩ := unwound
      · obtain rfl := hsame
        exact ⟨⟨hmoved.live, hmoved.frames⟩, hsent⟩
      · obtain rfl := hsame
        exact ⟨(hmoved.report _).putBack hunwound,
          (putBack_sent _ _).trans ((report_sent _ _).trans hsent)⟩
    | spawn work frames => exact absurd rfl (halone work frames)

theorem tick_vacant (h : w.IsVacant) : w.tick.IsVacant ∧ w.tick.sent = w.sent := by
  unfold tick
  cases hready : w.takeReady with
  | none =>
    dsimp only
    split
    · refine ⟨⟨?_, h.frames⟩, rfl⟩
      refine List.eq_nil_iff_forall_not_mem.mpr fun e he => ?_
      have hold := (Scheduler.handsOut_passUntil w.scheduler _).live e he
      rw [h.live] at hold
      cases hold
    · exact ⟨h, rfl⟩
  | some ready =>
    obtain ⟨t, w'⟩ := ready
    obtain ⟨blocked, others, hthreads, rfl⟩ := takeReady_eq_some hready
    obtain ⟨hblocked, hrest⟩ := List.forall_mem_append.mp (hthreads ▸ h.frames)
    obtain ⟨ht, hothers⟩ := List.forall_mem_cons.mp hrest
    have hleft : IsVacant { w with threads := blocked ++ others } :=
      ⟨h.live, List.forall_mem_append.mpr ⟨hblocked, hothers⟩⟩
    exact turn_vacant hleft ht

theorem runUntil_vacant (h : w.IsVacant) (stop : World → Bool) (n : Nat) :
    (runUntil stop n w).IsVacant ∧ (runUntil stop n w).sent = w.sent := by
  induction n generalizing w with
  | zero => exact ⟨h, rfl⟩
  | succ n ih =>
    unfold runUntil
    split
    · exact ⟨h, rfl⟩
    · obtain ⟨hvacant, hsent⟩ := tick_vacant h
      obtain ⟨hvacant', hsent'⟩ := ih hvacant
      exact ⟨hvacant', hsent'.trans hsent⟩

/-- Where nothing is left to do, nothing is sent however the clock is moved. -/
theorem tell_vacant (h : w.IsVacant) (hsent : w.sent = #[]) (moves : Nat) (span : Duration) :
    (w.tell moves (.advance span)).1.IsVacant ∧ (w.tell moves (.advance span)).2.sent = [] := by
  have hstep : ∀ frame ∈ [Frame.steps [.advance span] []], frame.IsVacant :=
    List.forall_mem_singleton.mpr (List.forall_mem_singleton.mpr ⟨span, rfl⟩)
  have hbegun : (w.beginStep (.advance span)).IsVacant :=
    ⟨h.live, List.forall_mem_cons.mpr ⟨hstep, h.frames⟩⟩
  obtain ⟨hrun, hrunSent⟩ := runUntil_vacant hbegun isJoined moves
  have hjoined :
      ((runUntil isJoined moves (w.beginStep (.advance span))).happen .join).IsVacant :=
    ⟨hrun.live, fun t ht => hrun.frames t (List.mem_filter.mp ht).1⟩
  obtain ⟨hsettled, hsettledSent⟩ := runUntil_vacant hjoined isSettled moves
  exact ⟨⟨hsettled.live, hsettled.frames⟩,
    congrArg Array.toList (hsettledSent.trans (hrunSent.trans hsent))⟩

theorem tellAll_vacant (h : w.IsVacant) (hsent : w.sent = #[]) (moves : Nat)
    (spans : List Duration) :
    ∀ report ∈ (w.tellAll moves (spans.map .advance)).2, report.sent = [] := by
  induction spans generalizing w with
  | nil => exact fun _ hreport => by cases hreport
  | cons span rest ih =>
    obtain ⟨hvacant, hnothing⟩ := tell_vacant h hsent moves span
    exact List.forall_mem_cons.mpr ⟨hnothing, ih hvacant rfl⟩

end World
end Lwm2mClient.Scenario
