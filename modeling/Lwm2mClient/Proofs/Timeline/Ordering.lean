import Lwm2mClient.Proofs.Durations
import Lwm2mClient.Proofs.Timeline.Numbering

/-!
The order of a timeline. The tasks wait in the order of their due times and, where these are
equal, in the order in which they were accepted. No task waits for a time before the one that
the clock shows, so the task that is taken out next comes before all that wait then, and before
all that are accepted later.
-/
namespace Lwm2mClient.Timeline

variable {τ : Type} {t t' : Timeline τ} {e x : Entry τ} {target : Duration}

/-- Whether an entry is due earlier than another one or, where both are due at once, was accepted
earlier. -/
def Entry.Before (a b : Entry τ) : Prop :=
  a.due < b.due ∨ a.due = b.due ∧ a.number < b.number

namespace Entry.Before

variable {a b c : Entry τ}

theorem trans (hab : a.Before b) (hbc : b.Before c) : a.Before c := by
  rcases hab with hab | ⟨hab, hnumber⟩
  · rcases hbc with hbc | ⟨hbc, -⟩
    · exact Or.inl (Nat.lt_trans hab hbc)
    · exact Or.inl (hbc ▸ hab)
  · rcases hbc with hbc | ⟨hbc, hnumber'⟩
    · exact Or.inl (hab ▸ hbc)
    · exact Or.inr ⟨hab.trans hbc, Nat.lt_trans hnumber hnumber'⟩

theorem due_le (h : a.Before b) : a.due ≤ b.due := by
  rcases h with hlt | ⟨heq, -⟩
  · exact Nat.le_of_lt hlt
  · exact heq ▸ Nat.le_refl _

/-- What is due no earlier and was accepted later comes later. -/
theorem of_le (hdue : a.due ≤ b.due) (hnumber : a.number < b.number) : a.Before b := by
  rcases Nat.lt_or_eq_of_le hdue with hlt | heq
  · exact Or.inl hlt
  · exact Or.inr ⟨Duration.ext heq, hnumber⟩

end Entry.Before

/-- The tasks wait in order, each under a number of its own and for a time that the clock does
not show yet or shows now. -/
structure Orderly (t : Timeline τ) : Prop extends t.Numbered where
  order : t.queue.Pairwise Entry.Before
  timely : ∀ e ∈ t.queue, t.now ≤ e.due

theorem orderly_empty : ({} : Timeline τ).Orderly :=
  ⟨numbered_empty, List.Pairwise.nil, by simp⟩

/-- A task finds its place behind those that are due no later. -/
theorem pairwise_enqueue {q : List (Entry τ)} (h : q.Pairwise Entry.Before)
    (hnumber : ∀ x ∈ q, x.number < e.number) : (enqueue e q).Pairwise Entry.Before := by
  induction q with
  | nil => exact List.pairwise_singleton _ _
  | cons x xs ih =>
    obtain ⟨hx, hxs⟩ := List.pairwise_cons.mp h
    simp only [enqueue]
    split
    · rename_i hlt
      refine List.pairwise_cons.mpr ⟨fun y hy => ?_, h⟩
      rcases List.mem_cons.mp hy with rfl | hy
      · exact Or.inl hlt
      · exact Or.inl (Nat.lt_of_lt_of_le hlt (hx y hy).due_le)
    · rename_i hlt
      refine List.pairwise_cons.mpr ⟨fun y hy => ?_, ih hxs fun y hy =>
        hnumber y (List.mem_cons_of_mem x hy)⟩
      rcases mem_enqueue.mp hy with rfl | hy
      · exact .of_le (Nat.le_of_not_lt hlt) (hnumber x (List.mem_cons_self))
      · exact hx y hy

theorem Orderly.mono (h : t.Orderly) (hq : t'.queue.Sublist t.queue)
    (ha : t.accepted ≤ t'.accepted) (hnow : ∀ e ∈ t'.queue, t'.now ≤ e.due) : t'.Orderly :=
  ⟨h.toNumbered.mono hq ha, h.order.sublist hq, hnow⟩

theorem Orderly.schedule (h : t.Orderly) (delay : Duration) (task : τ) :
    (t.schedule delay task).2.Orderly := by
  refine ⟨h.toNumbered.schedule delay task, ?_, ?_⟩
  · unfold Timeline.schedule
    split
    · exact h.order
    · exact pairwise_enqueue h.order fun x hx => Nat.lt_succ_of_le (h.bound x hx)
  · intro e he
    rw [schedule_now]
    rcases mem_schedule he with hold | ⟨-, -, hdue⟩
    · exact h.timely e hold
    · exact hdue ▸ Duration.le_saturatingAdd t.now delay

theorem Orderly.cancel (h : t.Orderly) (handle : TaskHandle) : (t.cancel handle).Orderly := by
  cases handle with
  | refused => exact h
  | accepted number =>
    exact h.mono List.filter_sublist (Nat.le_refl _) fun e he =>
      h.timely e (mem_queue_cancel.mp he).1

theorem Orderly.shutdown (h : t.Orderly) : t.shutdown.Orderly :=
  h.mono (List.nil_sublist _) (Nat.le_refl _) fun e he => by cases he

/-- Nothing is taken out where everything that waits is due later. -/
theorem Orderly.takeDue?_eq_none_iff (h : t.Orderly) :
    t.takeDue? target = none ↔ ∀ e ∈ t.queue, target < e.due := by
  unfold takeDue?
  split
  · rename_i first rest hqueue
    have horder := h.order
    rw [hqueue] at horder ⊢
    split
    · rename_i hdue
      refine ⟨fun hnone => (by cases hnone), fun hlater => ?_⟩
      exact absurd (hlater first List.mem_cons_self) (Nat.not_lt_of_le hdue)
    · rename_i hdue
      refine ⟨fun _ e he => ?_, fun _ => rfl⟩
      rcases List.mem_cons.mp he with rfl | hrest
      · exact Nat.lt_of_not_le hdue
      · have hfirst := (List.pairwise_cons.mp horder).1 e hrest
        exact Nat.lt_of_lt_of_le (Nat.lt_of_not_le hdue) hfirst.due_le
  · rename_i hqueue
    simp [hqueue]

/-- The clock moves to the due time of the task that is taken out, which comes before all
others. -/
theorem Orderly.takeDue? (h : t.Orderly) (htake : t.takeDue? target = some (e, t')) :
    t'.Orderly ∧ t.now ≤ e.due ∧ e.due ≤ target ∧ t'.now = e.due ∧ ∀ x ∈ t'.queue,
      e.Before x := by
  obtain ⟨rest, hqueue, hdue, rfl⟩ := takeDue?_eq_some_iff.mp htake
  have hahead : t.now ≤ e.due := h.timely e (hqueue ▸ List.mem_cons_self)
  have hbefore : ∀ x ∈ rest, e.Before x := (List.pairwise_cons.mp (hqueue ▸ h.order)).1
  have hnow : t.now.later e.due = e.due := Duration.later_of_le hahead
  refine ⟨?_, hahead, hdue, hnow, hbefore⟩
  refine h.mono (hqueue ▸ List.sublist_cons_self e rest) (Nat.le_refl _) fun x hx => ?_
  rw [hnow]
  exact (hbefore x hx).due_le

/-- The clock may move to a time by which nothing is due. -/
theorem Orderly.settle (h : t.Orderly) (hnone : t.takeDue? target = none) :
    (t.settle target).Orderly := by
  refine h.mono (List.Sublist.refl _) (Nat.le_refl _) fun e he => ?_
  have hlater : target ≤ e.due := Nat.le_of_lt (h.takeDue?_eq_none_iff.mp hnone e he)
  exact Duration.later_le (h.timely e he) hlater

/-- What is told of the waiting tasks is told in ascending order. -/
theorem Orderly.pending (h : t.Orderly) : t.pending.Pairwise (· ≤ ·) :=
  List.pairwise_map.mpr
    (h.order.imp fun hbefore => Nat.sub_le_sub_right hbefore.due_le t.now.nanos)

end Lwm2mClient.Timeline
