import Lwm2mClient.Proofs.Timeline.Driven

/-!
What the history of a driven timeline tells of its tasks: which of them were accepted,
started and cancelled. Every task that waits or was started had been accepted, and one that
was cancelled waits no more.
-/
namespace Lwm2mClient.Timeline.Driven

variable {τ : Type} {d d' : Driven τ}

/-- The entry under which a task was accepted. -/
def Note.accepted? (n : Note τ) : Option (Entry τ) :=
  match n.event with
  | .handedOver delay task (.accepted number) => some ⟨n.clock.saturatingAdd delay, number, task⟩
  | _ => none

def Note.started? (n : Note τ) : Option (Entry τ) :=
  match n.event with
  | .started e => some e
  | _ => none

/-- The number of the task that was cancelled. -/
def Note.cancelled? (n : Note τ) : Option Nat :=
  match n.event with
  | .cancelled (.accepted number) => some number
  | _ => none

theorem event_of_started? {n : Note τ} {e : Entry τ}
    (h : n.started? = some e) : n.event = .started e := by
  unfold Note.started? at h
  split at h
  · cases h
    assumption
  · cases h

/-- The tasks that were accepted, the latest first. -/
def accepted (d : Driven τ) : List (Entry τ) := d.history.filterMap Note.accepted?

/-- The tasks that were started, the latest first. -/
def starts (d : Driven τ) : List (Entry τ) := d.history.filterMap Note.started?

/-- The numbers of the tasks whose handles were cancelled, the latest first. -/
def cancellations (d : Driven τ) : List Nat := d.history.filterMap Note.cancelled?

theorem mem_starts {e : Entry τ} : e ∈ d.starts ↔ ∃ n ∈ d.history, n.event = .started e := by
  refine List.mem_filterMap.trans (exists_congr fun n => and_congr_right fun _ =>
    ⟨event_of_started?, fun he => ?_⟩)
  rw [Note.started?, he]

/-- Whether an event concerns no single task. -/
def Event.isGeneral : Event τ → Bool
  | .handedOver _ _ (.accepted _) | .cancelled (.accepted _) | .started _ => false
  | _ => true

theorem Note.of_isGeneral {n : Note τ} (h : n.event.isGeneral = true) :
    n.accepted? = none ∧ n.started? = none ∧ n.cancelled? = none := by
  obtain ⟨clock, event⟩ := n
  cases event with
  | handedOver delay task handle =>
    cases handle with
    | accepted number => cases h
    | refused => exact ⟨rfl, rfl, rfl⟩
  | cancelled handle =>
    cases handle with
    | accepted number => cases h
    | refused => exact ⟨rfl, rfl, rfl⟩
  | started e => cases h
  | _ => exact ⟨rfl, rfl, rfl⟩

/-- An event that concerns no single task leaves the records of the tasks as they are. -/
theorem note_of_isGeneral (d : Driven τ) (t : Timeline τ) (moves : List Move) {event : Event τ}
    (h : event.isGeneral = true) :
    ({ d with timeline := t, moves := moves }.note event).accepted = d.accepted ∧
      ({ d with timeline := t, moves := moves }.note event).starts = d.starts ∧
      ({ d with timeline := t, moves := moves }.note event).cancellations = d.cancellations := by
  obtain ⟨haccepted, hstarted, hcancelled⟩ := Note.of_isGeneral (n := ⟨t.now, event⟩) h
  exact ⟨List.filterMap_cons_none haccepted, List.filterMap_cons_none hstarted,
    List.filterMap_cons_none hcancelled⟩

/-- The history has an entry for every task that waits, was started or was cancelled, and the
tasks were numbered in the order in which they were accepted. -/
structure Recorded (d : Driven τ) : Prop where
  orderly : d.timeline.Orderly
  bound : ∀ e ∈ d.accepted, e.number ≤ d.timeline.accepted
  ascending : d.accepted.Pairwise fun later earlier => earlier.number < later.number
  waiting : ∀ e ∈ d.timeline.queue, e ∈ d.accepted
  started : ∀ e ∈ d.starts, e ∈ d.accepted
  cancelled : ∀ number ∈ d.cancellations,
    number ≤ d.timeline.accepted ∧ ∀ e ∈ d.timeline.queue, e.number ≠ number

theorem recorded_empty : ({} : Driven τ).Recorded :=
  ⟨orderly_empty,
    by simp [accepted], List.Pairwise.nil, by simp, by simp [starts], by simp [cancellations]⟩

/-- An event that concerns no single task, by which no task comes to wait. -/
theorem Recorded.general (h : d.Recorded) {t : Timeline τ} {moves : List Move} {event : Event τ}
    (hgeneral : event.isGeneral = true) (horderly : t.Orderly)
    (hqueue : t.queue.Sublist d.timeline.queue) (haccepted : t.accepted = d.timeline.accepted) :
    ({ d with timeline := t, moves := moves }.note event).Recorded := by
  obtain ⟨ha, hs, hc⟩ := d.note_of_isGeneral t moves hgeneral
  refine ⟨horderly, ?_, ha ▸ h.ascending, ?_, ?_, ?_⟩
  · rw [ha]
    exact fun e he => haccepted ▸ h.bound e he
  · rw [ha]
    exact fun e he => h.waiting e (hqueue.subset he)
  · rw [ha, hs]
    exact h.started
  · rw [hc]
    intro number hnumber
    obtain ⟨hle, hgone⟩ := h.cancelled number hnumber
    exact ⟨haccepted ▸ hle, fun e he => hgone e (hqueue.subset he)⟩

theorem Recorded.goes {input : Input τ} (h : d.Recorded)
    (hgoes : d.Goes input d') : d'.Recorded := by
  cases hgoes with
  | refuses delay task hshut => exact h.general rfl h.orderly (List.Sublist.refl _) rfl
  | accepts delay task hopen =>
    have horderly := h.orderly.schedule delay task
    rw [Timeline.schedule, if_neg (Bool.eq_false_iff.mp hopen)] at horderly
    refine ⟨horderly, ?_, ?_, ?_, fun e he => List.mem_cons_of_mem _ (h.started e he), ?_⟩
    · intro e he
      rcases List.mem_cons.mp he with rfl | hold
      · exact Nat.le_refl _
      · exact Nat.le_succ_of_le (h.bound e hold)
    · exact List.pairwise_cons.mpr ⟨fun e he => Nat.lt_succ_of_le (h.bound e he), h.ascending⟩
    · intro e he
      rcases mem_enqueue.mp he with rfl | hold
      · exact List.mem_cons_self
      · exact List.mem_cons_of_mem _ (h.waiting e hold)
    · intro number hnumber
      obtain ⟨hle, hgone⟩ := h.cancelled number hnumber
      refine ⟨Nat.le_succ_of_le hle, fun e he => ?_⟩
      rcases mem_enqueue.mp he with rfl | hold
      · exact Nat.ne_of_gt (Nat.lt_succ_of_le hle)
      · exact hgone e hold
  | cancelsNone => exact h.general rfl h.orderly (List.Sublist.refl _) rfl
  | cancels number hgiven =>
    refine ⟨h.orderly.cancel (.accepted number), h.bound, h.ascending,
      fun e he => h.waiting e (mem_queue_cancel.mp he).1, h.started, ?_⟩
    intro other hother
    rcases List.mem_cons.mp hother with rfl | hold
    · exact ⟨hgiven, fun e he => (mem_queue_cancel.mp he).2⟩
    · obtain ⟨hle, hgone⟩ := h.cancelled other hold
      exact ⟨hle, fun e he => hgone e (mem_queue_cancel.mp he).1⟩
  | shutsDown => exact h.general rfl h.orderly.shutdown (List.nil_sublist _) rfl
  | calls span target htarget => exact h.general rfl h.orderly (List.Sublist.refl _) rfl
  | overflows span htarget => exact h.general rfl h.orderly (List.Sublist.refl _) rfl
  | starts m outer e t hmoves hidle htake =>
    obtain ⟨hqueue, haccepted, -⟩ := takeDue?_eq_some htake
    have hmem : ∀ x, x = e ∨ x ∈ t.queue → x ∈ d.timeline.queue := fun x hx =>
      hqueue ▸ List.mem_cons.mpr hx
    refine ⟨(h.orderly.takeDue? htake).1, fun x hx => haccepted ▸ h.bound x hx, h.ascending,
      fun x hx => h.waiting x (hmem x (Or.inr hx)), ?_, ?_⟩
    · intro x hx
      rcases List.mem_cons.mp hx with rfl | hold
      · exact h.waiting x (hmem x (Or.inl rfl))
      · exact h.started x hold
    · intro number hnumber
      obtain ⟨hle, hgone⟩ := h.cancelled number hnumber
      exact ⟨haccepted ▸ hle, fun x hx => hgone x (hmem x (Or.inr hx))⟩
  | returns m outer hmoves hidle hnone =>
    exact h.general rfl (h.orderly.settle hnone) (List.Sublist.refl _) rfl
  | ends m outer failed hmoves hbusy => exact h.general rfl h.orderly (List.Sublist.refl _) rfl

end Lwm2mClient.Timeline.Driven
