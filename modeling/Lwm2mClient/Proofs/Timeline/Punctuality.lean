import Lwm2mClient.Proofs.Timeline.Records

/-!
A driven timeline is punctual. Whatever its tasks do, and however the moves of its clock are
nested, it starts the tasks in the order of their due times and of their acceptance, each when the
clock shows its due time, and none twice or after it was cancelled; the clock never goes back, and
nothing waits for a time that has passed.
-/
namespace Lwm2mClient.Timeline.Driven

variable {τ : Type} {d d' : Driven τ} {x : Entry τ}

/-- Whether a task may be started after an event: it comes after the task that the event started,
and is not the one that it cancelled. -/
structure Note.Permits (n : Note τ) (x : Entry τ) : Prop where
  before : ∀ e, n.event = .started e → e.Before x ∧ e.number ≠ x.number
  kept : n.event ≠ .cancelled (.accepted x.number)

/-- What holds of an event and an earlier one. -/
structure Note.Follows (later earlier : Note τ) : Prop where
  clock : earlier.clock ≤ later.clock
  permitted : ∀ e, later.event = .started e → earlier.Permits e

/-- The events follow one another, every task was started when it was due, and every task that
waits may be started after all that has happened. -/
structure Punctual (d : Driven τ) : Prop where
  recorded : d.Recorded
  follows : d.history.Pairwise Note.Follows
  past : ∀ n ∈ d.history, n.clock ≤ d.timeline.now
  atDue : ∀ n ∈ d.history, ∀ e, n.event = .started e → n.clock = e.due
  permitted : ∀ n ∈ d.history, ∀ x ∈ d.timeline.queue, n.Permits x

theorem punctual_empty : ({} : Driven τ).Punctual :=
  ⟨recorded_empty, List.Pairwise.nil, by simp, by simp, by simp⟩

theorem Note.permits_of_isGeneral {n : Note τ} (h : n.event.isGeneral = true)
    (x : Entry τ) : n.Permits x := by
  refine ⟨fun e he => ?_, fun hcancelled => ?_⟩
  · rw [he] at h
    cases h
  · rw [hcancelled] at h
    cases h

/-- What holds after one more event. -/
theorem Punctual.note (h : d.Punctual) {t : Timeline τ} {moves : List Move} {event : Event τ}
    (hrecorded : ({ d with timeline := t, moves := moves }.note event).Recorded)
    (hnow : d.timeline.now ≤ t.now)
    (hstarted : ∀ e, event = .started e → t.now = e.due ∧ e ∈ d.timeline.queue)
    (hwaits : ∀ x ∈ t.queue, (∀ n ∈ d.history, n.Permits x) ∧ Note.Permits ⟨t.now, event⟩ x) :
    ({ d with timeline := t, moves := moves }.note event).Punctual := by
  refine ⟨hrecorded, ?_, ?_, ?_, ?_⟩
  · refine List.pairwise_cons.mpr
      ⟨fun n hn => ⟨Duration.le_trans (h.past n hn) hnow, ?_⟩, h.follows⟩
    exact fun e he => h.permitted n hn e (hstarted e he).2
  · intro n hn
    rcases List.mem_cons.mp hn with rfl | hold
    · exact Nat.le_refl _
    · exact Duration.le_trans (h.past n hold) hnow
  · intro n hn e he
    rcases List.mem_cons.mp hn with rfl | hold
    · exact (hstarted e he).1
    · exact h.atDue n hold e he
  · intro n hn x hx
    rcases List.mem_cons.mp hn with rfl | hold
    · exact (hwaits x hx).2
    · exact (hwaits x hx).1 n hold

/-- An event that concerns no single task. -/
theorem Punctual.general (h : d.Punctual) {t : Timeline τ} {moves : List Move} {event : Event τ}
    (hgeneral : event.isGeneral = true)
    (hrecorded : ({ d with timeline := t, moves := moves }.note event).Recorded)
    (hnow : d.timeline.now ≤ t.now) (hqueue : t.queue.Sublist d.timeline.queue) :
    ({ d with timeline := t, moves := moves }.note event).Punctual := by
  refine h.note hrecorded hnow (fun e he => ?_) fun x hx => ?_
  · rw [he] at hgeneral
    cases hgeneral
  · exact ⟨fun n hn => h.permitted n hn x (hqueue.subset hx),
      Note.permits_of_isGeneral hgeneral x⟩

/-- A task that is accepted now comes after all that were started, and nobody had its handle
before. -/
theorem Punctual.permits_entry (h : d.Punctual) (delay : Duration) (task : τ) {n : Note τ}
    (hn : n ∈ d.history) : n.Permits (d.entry delay task) := by
  refine ⟨fun e he => ?_, fun hcancelled => ?_⟩
  · have haccepted : e ∈ d.accepted := h.recorded.started e (mem_starts.mpr ⟨n, hn, he⟩)
    have hnumber : e.number < (d.entry delay task).number :=
      Nat.lt_succ_of_le (h.recorded.bound e haccepted)
    have hdue : e.due ≤ (d.entry delay task).due := by
      rw [← h.atDue n hn e he]
      exact Duration.le_trans (h.past n hn) (Duration.le_saturatingAdd d.timeline.now delay)
    exact ⟨.of_le hdue hnumber, Nat.ne_of_lt hnumber⟩
  · have hmem : (d.entry delay task).number ∈ d.cancellations :=
      List.mem_filterMap.mpr ⟨n, hn, by rw [Note.cancelled?, hcancelled]⟩
    exact absurd (h.recorded.cancelled _ hmem).1 (Nat.not_succ_le_self _)

theorem Punctual.goes {input : Input τ} (h : d.Punctual)
    (hgoes : d.Goes input d') : d'.Punctual := by
  have hrecorded := h.recorded.goes hgoes
  cases hgoes with
  | refuses delay task hshut =>
    exact h.general rfl hrecorded (Nat.le_refl _) (List.Sublist.refl _)
  | accepts delay task hopen =>
    refine h.note hrecorded (Nat.le_refl _) (fun e he => (by cases he)) fun x hx => ?_
    refine ⟨fun n hn => ?_, ⟨fun e he => (by cases he), fun he => (by cases he)⟩⟩
    rcases mem_enqueue.mp hx with rfl | hold
    · exact h.permits_entry delay task hn
    · exact h.permitted n hn x hold
  | cancelsNone => exact h.general rfl hrecorded (Nat.le_refl _) (List.Sublist.refl _)
  | cancels number hgiven =>
    refine h.note hrecorded (Nat.le_refl _) (fun e he => (by cases he)) fun x hx => ?_
    obtain ⟨hold, hother⟩ := mem_queue_cancel.mp hx
    refine ⟨fun n hn => h.permitted n hn x hold, ⟨fun e he => (by cases he), fun he => ?_⟩⟩
    cases he
    exact hother rfl
  | shutsDown => exact h.general rfl hrecorded (Nat.le_refl _) (List.nil_sublist _)
  | calls span target htarget =>
    exact h.general rfl hrecorded (Nat.le_refl _) (List.Sublist.refl _)
  | overflows span htarget => exact h.general rfl hrecorded (Nat.le_refl _) (List.Sublist.refl _)
  | starts m outer e t hmoves hidle htake =>
    obtain ⟨hqueue, -, -⟩ := takeDue?_eq_some htake
    obtain ⟨-, hahead, -, hnow, hbefore⟩ := h.recorded.orderly.takeDue? htake
    have hdistinct := h.recorded.orderly.distinct
    rw [hqueue] at hdistinct
    refine h.note hrecorded (hnow ▸ hahead) (fun x hx => ?_) fun x hx => ?_
    · cases hx
      exact ⟨hnow, hqueue ▸ List.mem_cons_self⟩
    · refine ⟨fun n hn => h.permitted n hn x (hqueue ▸ List.mem_cons_of_mem e hx),
        ⟨fun y hy => ?_, ?_⟩⟩
      · cases hy
        exact ⟨hbefore x hx, (List.pairwise_cons.mp hdistinct).1 x hx⟩
      · exact fun he => by cases he
  | returns m outer hmoves hidle hnone =>
    exact h.general rfl hrecorded (Duration.le_later_left _ _) (List.Sublist.refl _)
  | ends m outer failed hmoves hbusy =>
    exact h.general rfl hrecorded (Nat.le_refl _) (List.Sublist.refl _)

theorem punctual_of_run {inputs : List (Input τ)} (hrun : run {} inputs = some d) : d.Punctual :=
  run_induction (fun _ _ _ _ h hgoes => h.goes hgoes) punctual_empty hrun

/-- The tasks were started in order and on time, and the clock never went back. -/
structure InOrder (d : Driven τ) : Prop where
  /-- Every task that was started had been accepted, and the tasks are numbered as they were
  accepted. -/
  accepted : ∀ e ∈ d.starts, e ∈ d.accepted
  numbered : d.accepted.Pairwise fun later earlier => earlier.number < later.number
  /-- Due times and, where these are equal, numbers ascend from start to start, and no number
  comes twice. -/
  ascending : d.starts.Pairwise fun later earlier =>
    earlier.Before later ∧ earlier.number ≠ later.number
  /-- A task is started when the clock shows its due time, and not after its handle was
  cancelled. -/
  onTime : ∀ n ∈ d.history, ∀ e, n.event = .started e → n.clock = e.due
  kept : d.history.Pairwise fun later earlier => ∀ e, later.event = .started e →
    earlier.event ≠ .cancelled (.accepted e.number)
  /-- The clock never goes back, and no task waits for a time that has passed. -/
  clock : d.history.Pairwise fun later earlier => earlier.clock ≤ later.clock
  now : ∀ n ∈ d.history, n.clock ≤ d.timeline.now
  timely : ∀ e ∈ d.timeline.queue, d.timeline.now ≤ e.due

/-- Over the whole life of a timeline the tasks are started in order and on time, however the
moves of its clock are nested and whichever tasks fail. -/
theorem inOrder_of_run {inputs : List (Input τ)} (hrun : run {} inputs = some d) : d.InOrder := by
  have h := punctual_of_run hrun
  refine ⟨h.recorded.started, h.recorded.ascending, ?_, h.atDue, ?_, ?_, h.past,
    h.recorded.orderly.timely⟩
  · refine List.Pairwise.filterMap _ (fun later earlier hfollows e he x hx => ?_) h.follows
    exact (hfollows.permitted e (event_of_started? he)).before x (event_of_started? hx)
  · exact h.follows.imp fun hfollows e he => (hfollows.permitted e he).kept
  · exact h.follows.imp fun hfollows => hfollows.clock

/-- A task of one second moves the clock by ten seconds, which starts a task that it
has just handed over and, before its time has come in the outer move, the task of
five seconds, which fails. -/
def nestedMoves : List (Input String) :=
  [.schedule (.ofSeconds 5) "later", .schedule (.ofSeconds 1) "nesting",
    .schedule (.ofSeconds 3) "dropped", .advance (.ofSeconds 2), .goOn, .cancel (.accepted 3),
    .schedule .zero "inner", .advance (.ofSeconds 10), .goOn, .finish false, .goOn, .finish true,
    .goOn, .finish false, .goOn]

theorem inOrder_when_nested :
    ∃ d, run {} nestedMoves = some d ∧
      d.starts.map (·.task) = ["later", "inner", "nesting"] ∧ d.InOrder := by
  have hpossible : (run {} nestedMoves).any fun d =>
      decide (d.starts.map (·.task) = ["later", "inner", "nesting"]) := by
    decide +kernel
  obtain ⟨d, hrun, hcheck⟩ := (Option.any_eq_true _ _).mp hpossible
  exact ⟨d, hrun, of_decide_eq_true hcheck, inOrder_of_run hrun⟩

end Lwm2mClient.Timeline.Driven
