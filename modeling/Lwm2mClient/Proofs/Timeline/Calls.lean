import Lwm2mClient.Proofs.Timeline.Fates

/-!
A call that moves the clock. Where its tasks do not move the clock themselves, it comes to its end
exactly where it was to end, tells how many tasks it started, and leaves nothing that is due by
then. Together with the fates of the tasks this says that a timeline loses nothing.
-/
namespace Lwm2mClient.Timeline.Driven

variable {τ : Type} {d d' : Driven τ} {target : Duration} {before : Nat}

def Note.returned? (n : Note τ) : Option Nat :=
  match n.event with
  | .returned started => some started
  | _ => none

/-- What a move of the clock told that has just come to its end. -/
def told? (d : Driven τ) : Option Nat := d.history.head?.bind Note.returned?

/-- The only move of the clock in progress, with the number of tasks that had been started before
it. -/
structure Moving (target : Duration) (before : Nat) (d : Driven τ) : Prop where
  move : ∃ m, d.moves = [m] ∧ m.target = target ∧
    d.starts.length = before + m.started + m.busy.toNat
  now : d.timeline.now ≤ target
  untold : d.told? = none

/-- The move has come to its end, and no other one has begun. -/
structure Moved (target : Duration) (before : Nat) (d : Driven τ) : Prop where
  moves : d.moves = []
  told : ∀ started, d.told? = some started →
    d.timeline.now = target ∧ (∀ e ∈ d.timeline.queue, target < e.due) ∧
      d.starts.length = before + started

/-- An event by which no task is started and no move of the clock begins or ends. -/
theorem Moving.same (h : d.Moving target before) {t : Timeline τ} {event : Event τ}
    (hnow : t.now = d.timeline.now) (hstarted : Note.started? ⟨t.now, event⟩ = none)
    (huntold : Note.returned? ⟨t.now, event⟩ = none) :
    ({ d with timeline := t }.note event).Moving target before := by
  have hs : ({ d with timeline := t }.note event).starts = d.starts :=
    List.filterMap_cons_none hstarted
  refine ⟨?_, hnow ▸ h.now, huntold⟩
  rw [hs]
  exact h.move

/-- While nobody moves the clock, no move of it comes to its end that is not in progress. -/
theorem untold_of_goes {input : Input τ} (hmoves : d.moves = [])
    (hinput : ∀ span, input ≠ .advance span) (hgoes : d.Goes input d') :
    d'.moves = [] ∧ d'.told? = none := by
  cases hgoes with
  | calls span target htarget => exact absurd rfl (hinput span)
  | overflows span htarget => exact absurd rfl (hinput span)
  | starts m outer e t hmoves' hidle htake => cases hmoves.symm.trans hmoves'
  | returns m outer hmoves' hidle hnone => cases hmoves.symm.trans hmoves'
  | ends m outer failed hmoves' hbusy => cases hmoves.symm.trans hmoves'
  | _ => exact ⟨hmoves, rfl⟩

theorem Moved.goes {input : Input τ} (h : d.Moved target before)
    (hinput : ∀ span, input ≠ .advance span)
    (hgoes : d.Goes input d') : d'.Moved target before := by
  obtain ⟨hmoves, huntold⟩ := untold_of_goes h.moves hinput hgoes
  refine ⟨hmoves, fun started htold => ?_⟩
  cases huntold.symm.trans htold

/-- While nobody moves the clock, the move goes on or comes to its end. -/
theorem Moving.goes {input : Input τ} (h : d.Moving target before) (horderly : d.timeline.Orderly)
    (hinput : ∀ span, input ≠ .advance span) (hgoes : d.Goes input d') :
    d'.Moving target before ∨ d'.Moved target before := by
  obtain ⟨m, hmoves, htarget, hcount⟩ := h.move
  cases hgoes with
  | refuses delay task hshut => exact Or.inl (h.same rfl rfl rfl)
  | accepts delay task hopen => exact Or.inl (h.same rfl rfl rfl)
  | cancelsNone => exact Or.inl (h.same rfl rfl rfl)
  | cancels number hgiven => exact Or.inl (h.same rfl rfl rfl)
  | shutsDown => exact Or.inl (h.same rfl rfl rfl)
  | calls span target htarget => exact absurd rfl (hinput span)
  | overflows span htarget => exact absurd rfl (hinput span)
  | starts m' outer e t hmoves' hidle htake =>
    obtain ⟨rfl, rfl⟩ := List.cons.inj (hmoves'.symm.trans hmoves)
    obtain ⟨-, -, hdue, hnow, -⟩ := horderly.takeDue? htake
    refine Or.inl ⟨⟨_, rfl, htarget, ?_⟩, ?_, rfl⟩
    · change d.starts.length + 1 = _
      rw [hcount, hidle]
      rfl
    · exact Duration.le_trans (Nat.le_of_eq (congrArg Duration.nanos hnow)) (htarget ▸ hdue)
  | returns m' outer hmoves' hidle hnone =>
    obtain ⟨rfl, rfl⟩ := List.cons.inj (hmoves'.symm.trans hmoves)
    refine Or.inr ⟨rfl, ?_⟩
    intro started htold
    have hstarted : m'.started = started := Option.some.inj htold
    refine ⟨Duration.later_of_le h.now ▸ htarget ▸ rfl, ?_, ?_⟩
    · exact htarget ▸ horderly.takeDue?_eq_none_iff.mp hnone
    · rw [← hstarted]
      change d.starts.length = _
      rw [hcount, hidle]
      rfl
  | ends m' outer failed hmoves' hbusy =>
    obtain ⟨rfl, rfl⟩ := List.cons.inj (hmoves'.symm.trans hmoves)
    refine Or.inl ⟨⟨_, rfl, htarget, ?_⟩, h.now, rfl⟩
    change d.starts.length = _
    rw [hcount, hbusy]
    rfl

theorem Moving.run {inputs : List (Input τ)} (h : d.Moving target before) (hrecorded : d.Recorded)
    (hinputs : ∀ span, Input.advance span ∉ inputs) (hrun : run d inputs = some d') :
    d'.Moving target before ∨ d'.Moved target before := by
  refine And.right
    (run_induction (P := fun d => d.Recorded ∧ (d.Moving target before ∨ d.Moved target before))
    (fun d input d' hinput hd hgoes => ?_) ⟨hrecorded, Or.inl h⟩ hrun)
  obtain ⟨hrecorded, hmoving | hmoved⟩ := hd
  · refine ⟨hrecorded.goes hgoes, hmoving.goes hrecorded.orderly (fun span hspan => ?_) hgoes⟩
    exact hinputs span (hspan ▸ hinput)
  · refine ⟨hrecorded.goes hgoes, Or.inr (hmoved.goes (fun span hspan => ?_) hgoes)⟩
    exact hinputs span (hspan ▸ hinput)

theorem untold_of_run {inputs : List (Input τ)} (hmoves : d.moves = []) (huntold : d.told? = none)
    (hinputs : ∀ span, Input.advance span ∉ inputs)
    (hrun : run d inputs = some d') : d'.told? = none := by
  refine And.right (run_induction (P := fun d => d.moves = [] ∧ d.told? = none)
    (fun d input d' hinput hd hgoes => ?_) ⟨hmoves, huntold⟩ hrun)
  exact untold_of_goes hd.1 (fun span hspan => hinputs span (hspan ▸ hinput)) hgoes

/-- A call that moves the clock while no other one does, and whose tasks do not move it,
ends where it was to end. -/
theorem returns_of_run {span : Duration} {rest : List (Input τ)} {started : Nat}
    (hrecorded : d.Recorded) (hmoves : d.moves = []) (hrest : ∀ other, Input.advance other ∉ rest)
    (hrun : run d (.advance span :: rest) = some d') (htold : d'.told? = some started) :
    d'.moves = [] ∧ d'.timeline.now.nanos = d.timeline.now.nanos + span.nanos ∧
      (∀ e ∈ d'.timeline.queue, d'.timeline.now < e.due) ∧
      d'.starts.length = d.starts.length + started := by
  obtain ⟨called, hcalled, hrun⟩ := Option.bind_eq_some_iff.mp hrun
  have hgoes := goes_of_step hcalled
  have hrecorded' := hrecorded.goes hgoes
  cases hgoes with
  | overflows _ htarget =>
    have hmoves' : (d.note (.overflowed span)).moves = [] := hmoves
    cases (untold_of_run hmoves' rfl hrest hrun).symm.trans htold
  | calls _ target htarget =>
    have hmoving :
        ({ d with moves := { target } :: d.moves }.note (.called span)).Moving target
          d.starts.length :=
      ⟨⟨_, congrArg (List.cons _) hmoves, rfl, rfl⟩, Duration.le_of_add? htarget, rfl⟩
    rcases hmoving.run hrecorded' hrest hrun with hmoving | hmoved
    · cases hmoving.untold.symm.trans htold
    · obtain ⟨hnow, hlater, hcount⟩ := hmoved.told started htold
      refine ⟨hmoved.moves, ?_, hnow ▸ hlater, hcount⟩
      rw [hnow, Duration.nanos_of_add? htarget]

/-- No task is lost, what is told of the waiting tasks is true, and so is what a move of the clock
tells. -/
structure LosesNothing (d : Driven τ) : Prop where
  /-- Each task that was accepted met one fate, and no other. -/
  fates : ∀ e ∈ d.accepted, ∃ fate, d.Meets e.number fate ∧ ∀ other,
    d.Meets e.number other → other = fate
  /-- How long each of the tasks whose fate is to wait has still to wait is told in ascending
  order. -/
  pending :
    ∃ waiting : List (Entry τ), (∀ e, e ∈ waiting ↔ e ∈ d.accepted ∧ d.Meets e.number .waiting) ∧
    waiting.Pairwise Entry.Before ∧ (∀ e ∈ waiting, d.timeline.now ≤ e.due) ∧
      d.timeline.pending = waiting.map fun e => e.due.remaining d.timeline.now
  ascending : d.timeline.pending.Pairwise (· ≤ ·)
  /-- A call that moves the clock by a span, none of whose tasks moves it, ends with the clock
  moved by that span, leaves nothing that is due by then, and tells how many tasks it started. -/
  returns : ∀ span rest d' started, d.moves = [] → (∀ other, Input.advance other ∉ rest) →
    run d (.advance span :: rest) = some d' → d'.told? = some started →
      d'.moves = [] ∧ d'.timeline.now.nanos = d.timeline.now.nanos + span.nanos ∧
        (∀ e ∈ d'.timeline.queue, d'.timeline.now < e.due) ∧
          d'.starts.length = d.starts.length + started
  /-- A call that is to move the clock farther than it can show fails, and changes nothing. -/
  overflows : ∀ span d', d.timeline.now.add? span = none → d.step (.advance span) = some d' →
    d'.timeline = d.timeline ∧ d'.moves = d.moves ∧
      d'.history = ⟨d.timeline.now, .overflowed span⟩ :: d.history

theorem losesNothing_of_run {inputs : List (Input τ)}
    (hrun : run {} inputs = some d) : d.LosesNothing := by
  have h := accounted_of_run hrun
  have hrecorded := h.punctual.recorded
  refine ⟨fun e he => ?_, ⟨d.timeline.queue, fun e => h.mem_queue_iff, hrecorded.orderly.order,
    hrecorded.orderly.timely, rfl⟩, hrecorded.orderly.pending, ?_, ?_⟩
  · exact ⟨d.fateOf e.number, h.meets_fateOf he, fun _ hother => h.eq_fateOf hother⟩
  · exact fun span rest d' started hmoves hrest hrun' htold =>
      returns_of_run hrecorded hmoves hrest hrun' htold
  · intro span d' htarget hstep
    cases goes_of_step hstep with
    | calls _ target htarget' => cases htarget.symm.trans htarget'
    | overflows => exact ⟨rfl, rfl, rfl⟩

/-- Two tasks are started. The first of them hands over another one, and cancels one
that is due with the second. -/
def mixedFates : List (Input String) :=
  [.schedule (.ofSeconds 1) "first", .schedule (.ofSeconds 2) "second",
    .schedule (.ofSeconds 2) "unwanted", .advance (.ofSeconds 2), .goOn, .schedule
    (.ofSeconds 5) "third", .cancel (.accepted 3), .finish false, .goOn, .finish true, .goOn]

theorem losesNothing_once_moved :
    ∃ d, run {} mixedFates = some d ∧ d.told? = some 2 ∧
      [1, 2, 3, 4].map d.fateOf = [.started, .started, .cancelled, .waiting] ∧
      d.LosesNothing := by
  have hpossible : (run {} mixedFates).any fun d => decide (d.told? = some 2 ∧
      [1, 2, 3, 4].map d.fateOf = [.started, .started, .cancelled, .waiting]) := by
    decide +kernel
  obtain ⟨d, hrun, hcheck⟩ := (Option.any_eq_true _ _).mp hpossible
  obtain ⟨htold, hfates⟩ := of_decide_eq_true hcheck
  exact ⟨d, hrun, htold, hfates, losesNothing_of_run hrun⟩

end Lwm2mClient.Timeline.Driven
