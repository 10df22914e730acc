import Lwm2mClient.Proofs.Service.Endings

/-!
A job from its turn on. The events that are due to it leave the marks of its track; what happens
aside in the meantime is not due to it.
-/
namespace Lwm2mClient.Service

open Net Engine

/-- The marks of some events. The latest event comes first, and so does the earliest mark. -/
def marksOf (events : List Event) : List Mark := (events.filterMap Event.mark?).reverse

theorem marksOf_append (events earlier : List Event) :
    marksOf (events ++ earlier) = marksOf earlier ++ marksOf events := by
  rw [marksOf, List.filterMap_append, List.reverse_append]
  rfl

theorem marksOf_cons (e : Event) (events : List Event) :
    marksOf (e :: events) = marksOf events ++ e.mark?.toList := by
  unfold marksOf
  cases hmark : e.mark? <;> simp [hmark]

theorem marksOf_reported (lines : List Log.Line) :
    marksOf (lines.reverse.map .reported) = lines.filterMap lineMark? := by
  unfold marksOf
  rw [List.filterMap_map, List.filterMap_reverse, List.reverse_reverse]
  rfl

/-- The track of a job, given the events that are due to it. -/
def track (own : List Event) (s : Service) : Track := ⟨s.client, inHand s.waiting, marksOf own⟩

/-- Where a job stands that had its turn on a track: it waits in the middle of its work, or it has
ended. -/
inductive Standing (t₀ : Track) (job : Job) (own : List Event) (s : Service) : Prop
  | underway {c : Call} {next : c.Answer → Program Bool} (hasked : isAsked c = true)
      (hcurrent : s.current = some ⟨job, .call c fun a => next a >>= job.close⟩)
      (htracks : Tracks (Poised t₀) (.call c next)
        (fun result t => Concludes t₀ job result (t.note (.ended job result))) (track own s))
  | done {result : Bool} {earlier : List Event} (hidle : s.current = none)
      (hown : own = .ended job result :: earlier)
      (hconcludes : Concludes t₀ job result (track own s))

variable {setup : Setup} {s s' : Service} {t₀ : Track} {job : Job} {own : List Event}

theorem report_track (client : Client Task) (hand : List (Timeline.Entry Task)) (own : List Event)
    (lines : List Log.Line) :
    Track.report ⟨client, hand, marksOf own⟩ lines =
      ⟨client, hand, marksOf (lines.reverse.map .reported ++ own)⟩ := by
  rw [marksOf_append, marksOf_reported]
  rfl

theorem note_track (client : Client Task) (hand : List (Timeline.Entry Task)) (own : List Event)
    (e : Event) :
    Track.note ⟨client, hand, marksOf own⟩ e = ⟨client, hand, marksOf (e :: own)⟩ := by
  rw [marksOf_cons]
  rfl

namespace Standing

/-- A job goes on with its work until it waits again or ends. -/
theorem enter {p : Program Bool} (hcurrent : s.current = none)
    (h : Tracks (Poised t₀) p
      (fun result t => Concludes t₀ job result (t.note (.ended job result))) (track own s)) :
    ∃ events, (s.enter true job (p >>= job.close)).history = events ++ s.history ∧
      Standing t₀ job (events ++ own) (s.enter true job (p >>= job.close)) := by
  obtain ⟨hholds, htracks, hasked⟩ := h.proceed
  let progress := proceed true p s.client
  let reported : List Event := progress.lines.reverse.map .reported
  change progress.holds = true at hholds
  change Tracks _ progress.rest _
    (Track.report ⟨progress.client, inHand s.waiting, marksOf own⟩ progress.lines) at htracks
  rw [report_track] at htracks
  cases hrest : progress.rest with
  | done result =>
    rw [hrest] at htracks
    rw [enter_of_finished hholds hrest, depart_eq, report_eq]
    refine ⟨.ended job result :: reported, ?_, done hcurrent rfl ?_⟩
    · change Event.ended job result :: (Service.report _ _).history = _
      rw [report_history]
      rfl
    · have hconcludes : Concludes t₀ job result
          (Track.note ⟨progress.client, inHand s.waiting, marksOf (reported ++ own)⟩
            (.ended job result)) := htracks
      rw [note_track] at hconcludes
      exact hconcludes
  | call c next =>
    rw [hrest] at htracks
    rw [enter_of_asking hholds hrest, report_eq]
    refine ⟨reported, ?_, underway (hasked c next hrest) rfl htracks⟩
    change (Service.report _ _).history = _
    rw [report_history]

/-- A job that has its turn begins on a track of its own. -/
theorem turn (hcurrent : s.current = none) (hsane : Sane (track [] s)) (job : Job) :
    ∃ events, (s.enter true job (job.body setup >>= job.close)).history = events ++ s.history ∧
      Standing (track [] s) job events (s.enter true job (job.body setup >>= job.close)) := by
  have hbody : Tracks (Poised (track [] s)) (job.body setup)
      (fun result t => Concludes (track [] s) job result (t.note (.ended job result)))
      (track [] s) := Tracks.body hsane rfl job
  obtain ⟨events, hevents, hstanding⟩ := enter hcurrent hbody
  exact ⟨events, hevents, List.append_nil events ▸ hstanding⟩

/-- The operation in progress gets an answer. -/
theorem answer {answer : Answer} (h : Standing t₀ job own s)
    (hstep : step setup s (.answer answer) = some s') :
    ∃ events, s'.history = events ++ s.history ∧ Standing t₀ job (events ++ own) s' := by
  obtain ⟨job', c', next', a, hcurrent', -, rfl⟩ := step_answer hstep
  cases h with
  | done hidle hown hconcludes => cases hidle.symm.trans hcurrent'
  | @underway c next hasked hcurrent htracks =>
    cases hcurrent.symm.trans hcurrent'
    simp only [Tracks, answer?_of_isAsked hasked] at htracks
    have hnext := (htracks.2 _ (Track.Drift.refl _)).2 a
    let heard : Event := .answered c' a s.client.scheduler.clock
    change Tracks _ _ _ (Track.note ⟨s.client, inHand s.waiting, marksOf own⟩ heard) at hnext
    rw [note_track] at hnext
    let answered : Service := { s with current := none }.note heard
    have htold : Tracks _ _ _ (track (heard :: own) answered) := hnext
    obtain ⟨events, hhistory, hstanding⟩ := Standing.enter rfl htold
    refine ⟨events ++ [heard], ?_, ?_⟩
    · rw [hhistory, List.append_assoc]
      rfl
    · rw [List.append_assoc]
      exact hstanding

end Standing

/-! ### What happens aside -/

theorem track_drift {input : Input} (hstep : step setup s input = some s')
    (haside : input.isAside = true) (own : List Event) : (track own s).Drift (track own s') := by
  have hregistration := (step_aside hstep haside).registration
  have hages := step_ages hstep haside
  refine ⟨⟨?_, ?_, ?_, hages⟩, rfl⟩
  · exact congrArg Registration.id hregistration
  · exact congrArg Registration.renewal hregistration
  · exact congrArg Registration.generation hregistration

theorem Standing.aside {input : Input} (h : Standing t₀ job own s)
    (hstep : step setup s input = some s') (haside : input.isAside = true) :
    Standing t₀ job own s' := by
  have hcurrent' := (step_aside hstep haside).current
  have hdrift := track_drift hstep haside own
  cases h with
  | underway hasked hcurrent htracks =>
    exact underway hasked (hcurrent'.trans hcurrent) (htracks.drift hasked hdrift)
  | done hidle hown hconcludes =>
    exact done (hcurrent'.trans hidle) hown (hconcludes.drift hdrift)

end Lwm2mClient.Service
