import Lwm2mClient.Proofs.Timeline.Punctuality

/-!
What becomes of the tasks on a driven timeline. None is lost: each task that was accepted was
started once, or was cancelled before it started, or was dropped when the timeline was shut down,
or still waits, and only one of these is true of it. A move of the clock whose tasks move the
clock no further ends exactly where it was to end, with nothing left that is due by then.
-/
namespace Lwm2mClient.Timeline.Driven

variable {τ : Type} {d d' : Driven τ} {number : Nat}

inductive Fate where
  | started
  | cancelled
  | dropped
  | waiting
  deriving DecidableEq

/-- The tasks that a shutdown dropped. -/
def Note.dropped (n : Note τ) : List (Entry τ) :=
  match n.event with
  | .shutDown dropped => dropped
  | _ => []

/-- The tasks that were dropped when the timeline was shut down. -/
def dropped (d : Driven τ) : List (Entry τ) := d.history.flatMap Note.dropped

/-- Whether a task met a fate: it was started, once; or it was not, but its handle was
cancelled; or it was neither started nor cancelled, and was dropped; or it was neither started
nor cancelled, and waits. -/
def Meets (d : Driven τ) (number : Nat) : Fate → Prop
  | .started => (d.starts.map (·.number)).count number = 1
  | .cancelled => number ∉ d.starts.map (·.number) ∧ number ∈ d.cancellations
  | .dropped =>
    number ∉ d.starts.map (·.number) ∧ number ∉ d.cancellations ∧
      number ∈ d.dropped.map (·.number)
  | .waiting =>
    number ∉ d.starts.map (·.number) ∧ number ∉ d.cancellations ∧
      number ∈ d.timeline.queue.map (·.number)

/-- No task is forgotten, and none that was dropped waits. -/
structure Accounted (d : Driven τ) : Prop where
  punctual : d.Punctual
  fate : ∀ e ∈ d.accepted,
    e ∈ d.timeline.queue ∨ e ∈ d.starts ∨ e.number ∈ d.cancellations ∨ e ∈ d.dropped
  gone : ∀ e ∈ d.dropped, e.number ≤ d.timeline.accepted ∧ ∀ x ∈ d.timeline.queue,
    x.number ≠ e.number

theorem accounted_empty : ({} : Driven τ).Accounted :=
  ⟨punctual_empty, by simp [accepted], by simp [dropped]⟩

/-- An event by which no task comes to wait, and none ceases to. -/
theorem Accounted.same (h : d.Accounted) {t : Timeline τ} {moves : List Move} {event : Event τ}
    (hpunctual : ({ d with timeline := t, moves := moves }.note event).Punctual)
    (hgeneral : event.isGeneral = true) (hdropped : Note.dropped ⟨t.now, event⟩ = [])
    (hqueue : t.queue = d.timeline.queue) (haccepted : t.accepted = d.timeline.accepted) :
    ({ d with timeline := t, moves := moves }.note event).Accounted := by
  obtain ⟨ha, hs, hc⟩ := d.note_of_isGeneral t moves hgeneral
  have hd : ({ d with timeline := t, moves := moves }.note event).dropped = d.dropped := by
    simp [dropped, Driven.note, hdropped]
  refine ⟨hpunctual, ?_, ?_⟩
  · rw [ha, hs, hc, hd]
    exact fun e he => hqueue ▸ h.fate e he
  · rw [hd]
    intro e he
    obtain ⟨hle, hgone⟩ := h.gone e he
    exact ⟨haccepted ▸ hle, hqueue ▸ hgone⟩

theorem Accounted.goes {input : Input τ} (h : d.Accounted)
    (hgoes : d.Goes input d') : d'.Accounted := by
  have hpunctual := h.punctual.goes hgoes
  cases hgoes with
  | refuses delay task hshut => exact h.same hpunctual rfl rfl rfl rfl
  | accepts delay task hopen =>
    refine ⟨hpunctual, fun e he => ?_, fun e he => ?_⟩
    · rcases List.mem_cons.mp he with rfl | hold
      · exact Or.inl (mem_enqueue.mpr (Or.inl rfl))
      · exact (h.fate e hold).imp_left fun hwaits => mem_enqueue.mpr (Or.inr hwaits)
    · obtain ⟨hle, hgone⟩ := h.gone e he
      refine ⟨Nat.le_succ_of_le hle, fun x hx => ?_⟩
      rcases mem_enqueue.mp hx with rfl | hold
      · exact Nat.ne_of_gt (Nat.lt_succ_of_le hle)
      · exact hgone x hold
  | cancelsNone => exact h.same hpunctual rfl rfl rfl rfl
  | cancels number hgiven =>
    refine ⟨hpunctual, fun e he => ?_, fun e he => ?_⟩
    · by_cases hnumber : e.number = number
      · exact Or.inr (Or.inr (Or.inl (hnumber ▸ List.mem_cons_self)))
      · rcases h.fate e he with hwaits | hstarted | hcancelled | hdropped
        · exact Or.inl (mem_queue_cancel.mpr ⟨hwaits, hnumber⟩)
        · exact Or.inr (Or.inl hstarted)
        · exact Or.inr (Or.inr (Or.inl (List.mem_cons_of_mem number hcancelled)))
        · exact Or.inr (Or.inr (Or.inr hdropped))
    · obtain ⟨hle, hgone⟩ := h.gone e he
      exact ⟨hle, fun x hx => hgone x (mem_queue_cancel.mp hx).1⟩
  | shutsDown =>
    refine ⟨hpunctual, fun e he => ?_, fun e he => ?_⟩
    · rcases h.fate e he with hwaits | hstarted | hcancelled | hdropped
      · exact Or.inr (Or.inr (Or.inr (List.mem_append_left _ hwaits)))
      · exact Or.inr (Or.inl hstarted)
      · exact Or.inr (Or.inr (Or.inl hcancelled))
      · exact Or.inr (Or.inr (Or.inr (List.mem_append_right _ hdropped)))
    · refine ⟨?_, fun x hx => (by cases hx)⟩
      rcases List.mem_append.mp he with hwaited | hdropped
      · exact h.punctual.recorded.orderly.bound e hwaited
      · exact (h.gone e hdropped).1
  | calls span target htarget => exact h.same hpunctual rfl rfl rfl rfl
  | overflows span htarget => exact h.same hpunctual rfl rfl rfl rfl
  | starts m outer e t hmoves hidle htake =>
    obtain ⟨hqueue, haccepted, -⟩ := takeDue?_eq_some htake
    refine ⟨hpunctual, fun x hx => ?_, fun x hx => ?_⟩
    · rcases h.fate x hx with hwaits | hstarted | hcancelled | hdropped
      · rw [hqueue] at hwaits
        rcases List.mem_cons.mp hwaits with rfl | hleft
        · exact Or.inr (Or.inl List.mem_cons_self)
        · exact Or.inl hleft
      · exact Or.inr (Or.inl (List.mem_cons_of_mem e hstarted))
      · exact Or.inr (Or.inr (Or.inl hcancelled))
      · exact Or.inr (Or.inr (Or.inr hdropped))
    · obtain ⟨hle, hgone⟩ := h.gone x hx
      exact ⟨haccepted ▸ hle, fun y hy => hgone y (hqueue ▸ List.mem_cons_of_mem e hy)⟩
  | returns m outer hmoves hidle hnone => exact h.same hpunctual rfl rfl rfl rfl
  | ends m outer failed hmoves hbusy => exact h.same hpunctual rfl rfl rfl rfl

theorem accounted_of_run {inputs : List (Input τ)}
    (hrun : run {} inputs = some d) : d.Accounted :=
  run_induction (fun _ _ _ _ h hgoes => h.goes hgoes) accounted_empty hrun

/-- No task is started twice. -/
theorem Punctual.nodup_starts (h : d.Punctual) : (d.starts.map (·.number)).Nodup := by
  refine List.pairwise_map.mpr
    (List.Pairwise.filterMap _ (fun later earlier hfollows e he x hx => ?_) h.follows)
  exact ((hfollows.permitted e (event_of_started? he)).before x (event_of_started? hx)).2.symm

/-- A task that waits was not started. -/
theorem Punctual.not_mem_starts (h : d.Punctual)
    (hwaits : number ∈ d.timeline.queue.map (·.number)) : number ∉ d.starts.map (·.number) := by
  obtain ⟨x, hx, rfl⟩ := List.mem_map.mp hwaits
  intro hstarted
  obtain ⟨e, he, hnumber⟩ := List.mem_map.mp hstarted
  obtain ⟨n, hn, hevent⟩ := mem_starts.mp he
  exact ((h.permitted n hn x hx).before e hevent).2 hnumber

/-- The fate of a task that was accepted, as what has happened and what waits tell it. -/
def fateOf (d : Driven τ) (number : Nat) : Fate :=
  if number ∈ d.starts.map (·.number) then .started
  else if number ∈ d.cancellations then .cancelled
  else if number ∈ d.timeline.queue.map (·.number) then .waiting
  else .dropped

/-- A task meets no other fate. -/
theorem Accounted.eq_fateOf (h : d.Accounted) {fate : Fate} (hfate : d.Meets number fate) :
    fate = d.fateOf number := by
  unfold fateOf
  cases fate with
  | started =>
    have hstarted : number ∈ d.starts.map (·.number) :=
      List.count_pos_iff.mp (Nat.lt_of_lt_of_eq Nat.one_pos hfate.symm)
    rw [if_pos hstarted]
  | cancelled => rw [if_neg hfate.1, if_pos hfate.2]
  | dropped =>
    obtain ⟨hstarted, hcancelled, hdropped⟩ := hfate
    obtain ⟨e, he, rfl⟩ := List.mem_map.mp hdropped
    have hwaits : e.number ∉ d.timeline.queue.map (·.number) := by
      intro hmem
      obtain ⟨x, hx, hnumber⟩ := List.mem_map.mp hmem
      exact (h.gone e he).2 x hx hnumber
    rw [if_neg hstarted, if_neg hcancelled, if_neg hwaits]
  | waiting => rw [if_neg hfate.1, if_neg hfate.2.1, if_pos hfate.2.2]

/-- A task that was accepted meets its fate. -/
theorem Accounted.meets_fateOf (h : d.Accounted) {e : Entry τ} (he : e ∈ d.accepted) :
    d.Meets e.number (d.fateOf e.number) := by
  unfold fateOf
  split
  · rename_i hstarted
    exact Nat.le_antisymm (List.nodup_iff_count.mp h.punctual.nodup_starts _)
      (List.count_pos_iff.mpr hstarted)
  · rename_i hstarted
    split
    · rename_i hcancelled
      exact ⟨hstarted, hcancelled⟩
    · rename_i hcancelled
      split
      · rename_i hwaits
        exact ⟨hstarted, hcancelled, hwaits⟩
      · rename_i hwaits
        refine ⟨hstarted, hcancelled, ?_⟩
        rcases h.fate e he with hwaits' | hstarted' | hcancelled' | hdropped
        · exact absurd (List.mem_map_of_mem hwaits') hwaits
        · exact absurd (List.mem_map_of_mem hstarted') hstarted
        · exact absurd hcancelled' hcancelled
        · exact List.mem_map_of_mem hdropped

/-- The tasks on the timeline are those whose fate is to wait. -/
theorem Accounted.mem_queue_iff (h : d.Accounted) {e : Entry τ} :
    e ∈ d.timeline.queue ↔ e ∈ d.accepted ∧ d.Meets e.number .waiting := by
  constructor
  · intro hwaits
    have hnumber : e.number ∈ d.timeline.queue.map (·.number) := List.mem_map_of_mem hwaits
    refine ⟨h.punctual.recorded.waiting e hwaits, h.punctual.not_mem_starts hnumber,
      fun hcancelled => ?_, hnumber⟩
    exact (h.punctual.recorded.cancelled _ hcancelled).2 e hwaits rfl
  · rintro ⟨haccepted, hstarted, hcancelled, hwaits⟩
    rcases h.fate e haccepted with hqueue | hstarted' | hcancelled' | hdropped
    · exact hqueue
    · exact absurd (List.mem_map_of_mem hstarted') hstarted
    · exact absurd hcancelled' hcancelled
    · obtain ⟨x, hx, hnumber⟩ := List.mem_map.mp hwaits
      exact absurd hnumber ((h.gone e hdropped).2 x hx)

end Lwm2mClient.Timeline.Driven
