import Lwm2mClient.Timeline.Basic

/-!
The numbers of the tasks on a timeline. Every accepted task has a number of its own, so a handle
cancels the task that it was given for and no other one.
-/
namespace Lwm2mClient.Timeline

variable {τ : Type}

/-- The waiting tasks have different numbers, none of them beyond the number of tasks accepted. -/
structure Numbered (t : Timeline τ) : Prop where
  bound : ∀ e ∈ t.queue, e.number ≤ t.accepted
  distinct : t.queue.Pairwise fun a b => a.number ≠ b.number

theorem enqueue_perm (e : Entry τ) (q : List (Entry τ)) : (enqueue e q).Perm (e :: q) := by
  induction q with
  | nil => exact List.Perm.refl _
  | cons x xs ih =>
    simp only [enqueue]
    split
    · exact List.Perm.refl _
    · exact (ih.cons x).trans (List.Perm.swap e x xs)

@[simp] theorem mem_enqueue {e x : Entry τ} {q : List (Entry τ)} :
    x ∈ enqueue e q ↔ x = e ∨ x ∈ q := by
  rw [(enqueue_perm e q).mem_iff, List.mem_cons]

theorem numbered_empty : ({} : Timeline τ).Numbered := ⟨by simp, List.Pairwise.nil⟩

/-- At most one waiting task has a given number. -/
theorem Numbered.length_filter_le {t : Timeline τ} (h : t.Numbered) {p : Entry τ → Bool}
    (hp : ∀ a ∈ t.queue, ∀ b ∈ t.queue, p a → p b → a.number = b.number) :
    (t.queue.filter p).length ≤ 1 := by
  have hdistinct := h.distinct.filter p
  have hsame : ∀ a ∈ t.queue.filter p, ∀ b ∈ t.queue.filter p, a.number = b.number := by
    intro a ha b hb
    obtain ⟨haq, hpa⟩ := List.mem_filter.mp ha
    obtain ⟨hbq, hpb⟩ := List.mem_filter.mp hb
    exact hp a haq b hbq hpa hpb
  match hl : t.queue.filter p with
  | [] => simp
  | [_] => simp
  | a :: b :: rest =>
    rw [hl] at hdistinct hsame
    have hne : a.number ≠ b.number := (List.pairwise_cons.mp hdistinct).1 b (by simp)
    exact absurd (hsame a (by simp) b (by simp)) hne

theorem Numbered.mono {t t' : Timeline τ} (h : t.Numbered) (hq : t'.queue.Sublist t.queue)
    (ha : t.accepted ≤ t'.accepted) : t'.Numbered where
  bound e he := Nat.le_trans (h.bound e (hq.subset he)) ha
  distinct := h.distinct.sublist hq

theorem Numbered.schedule {t : Timeline τ} (h : t.Numbered) (delay : Duration) (task : τ) :
    (t.schedule delay task).2.Numbered := by
  unfold Timeline.schedule
  split
  · exact h
  · refine ⟨fun e he => ?_, ?_⟩
    · rcases mem_enqueue.mp he with rfl | he
      · exact Nat.le_refl _
      · exact Nat.le_succ_of_le (h.bound e he)
    · refine ((enqueue_perm _ _).pairwise_iff fun hne => Ne.symm hne).mpr ?_
      refine List.pairwise_cons.mpr ⟨fun e he => ?_, h.distinct⟩
      have hle := h.bound e he
      simp only
      omega

/-- A task that waits after another was handed over either waited before or is that one. -/
theorem mem_schedule {t : Timeline τ} {delay : Duration} {task : τ} {e : Entry τ}
    (h : e ∈ (t.schedule delay task).2.queue) :
    e ∈ t.queue ∨ (t.schedule delay task).1 = .accepted e.number ∧ e.task = task ∧
      e.due = t.now.saturatingAdd delay := by
  unfold Timeline.schedule at h ⊢
  split at h
  · exact Or.inl h
  · rename_i hopen
    rw [if_neg hopen]
    rcases mem_enqueue.mp h with rfl | hold
    · exact Or.inr ⟨rfl, rfl, rfl⟩
    · exact Or.inl hold

theorem mem_schedule_of_mem {t : Timeline τ} {delay : Duration} {task : τ} {e : Entry τ}
    (h : e ∈ t.queue) : e ∈ (t.schedule delay task).2.queue := by
  unfold Timeline.schedule
  split
  · exact h
  · exact mem_enqueue.mpr (Or.inr h)

theorem accepted_le_schedule (t : Timeline τ) (delay : Duration) (task : τ) :
    t.accepted ≤ (t.schedule delay task).2.accepted := by
  unfold Timeline.schedule
  split
  · exact Nat.le_refl _
  · exact Nat.le_succ _

theorem le_accepted_of_schedule {t : Timeline τ} {delay : Duration} {task : τ} {number : Nat}
    (h : (t.schedule delay task).1 = .accepted number) :
    number ≤ (t.schedule delay task).2.accepted := by
  unfold Timeline.schedule at h
  split at h
  · cases h
  · rename_i hopen
    cases h
    have hnext : (t.schedule delay task).2.accepted = t.accepted + 1 :=
      congrArg (fun r : TaskHandle × Timeline τ => r.2.accepted) (if_neg hopen)
    exact Nat.le_of_eq hnext.symm

theorem schedule_shutDown (t : Timeline τ) (delay : Duration) (task : τ) :
    (t.schedule delay task).2.shutDown = t.shutDown := by
  unfold Timeline.schedule
  split <;> rfl

theorem schedule_now (t : Timeline τ) (delay : Duration) (task : τ) :
    (t.schedule delay task).2.now = t.now := by
  unfold Timeline.schedule
  split <;> rfl

/-- A timeline that is not shut down takes every task. -/
theorem schedule_of_open {t : Timeline τ} (hopen : t.shutDown = false) (delay : Duration)
    (task : τ) :
    ∃ e ∈ (t.schedule delay task).2.queue, (t.schedule delay task).1 = .accepted e.number ∧
      t.accepted < e.number ∧ e.task = task ∧ e.due = t.now.saturatingAdd delay := by
  unfold Timeline.schedule
  rw [if_neg (by simp [hopen])]
  exact ⟨_, mem_enqueue.mpr (Or.inl rfl), rfl, Nat.lt_succ_self _, rfl, rfl⟩

theorem Numbered.cancel {t : Timeline τ} (h : t.Numbered) (handle : TaskHandle) :
    (t.cancel handle).Numbered := by
  cases handle with
  | refused => exact h
  | accepted number => exact h.mono List.filter_sublist (Nat.le_refl _)

theorem Numbered.shutdown {t : Timeline τ} (h : t.Numbered) : t.shutdown.Numbered :=
  h.mono (List.nil_sublist _) (Nat.le_refl _)

theorem Numbered.settle {t : Timeline τ} (h : t.Numbered) (target : Duration) :
    (t.settle target).Numbered :=
  h.mono (List.Sublist.refl _) (Nat.le_refl _)

/-- What is taken out is the first task, if it is due, and the clock moves to its due time. -/
theorem takeDue?_eq_some_iff {t t' : Timeline τ} {target : Duration} {e : Entry τ} :
    t.takeDue? target = some (e, t') ↔ ∃ rest, t.queue = e :: rest ∧ e.due ≤ target ∧
      t' = { t with now := t.now.later e.due, queue := rest } := by
  unfold takeDue?
  constructor
  · intro h
    split at h
    · rename_i hqueue
      split at h
      · cases h
        exact ⟨_, hqueue, ‹_›, rfl⟩
      · cases h
    · cases h
  · rintro ⟨rest, hqueue, hdue, rfl⟩
    simp only [hqueue, hdue, if_true]

theorem takeDue?_eq_some {t t' : Timeline τ} {target : Duration} {e : Entry τ}
    (h : t.takeDue? target = some (e, t')) :
    t.queue = e :: t'.queue ∧ t'.accepted = t.accepted ∧ t'.shutDown = t.shutDown := by
  obtain ⟨rest, hqueue, -, rfl⟩ := takeDue?_eq_some_iff.mp h
  exact ⟨hqueue, rfl, rfl⟩

theorem Numbered.takeDue? {t t' : Timeline τ} (h : t.Numbered) {target : Duration} {e : Entry τ}
    (htake : t.takeDue? target = some (e, t')) : t'.Numbered := by
  obtain ⟨hq, ha, -⟩ := takeDue?_eq_some htake
  exact h.mono (hq ▸ List.sublist_cons_self e t'.queue) (Nat.le_of_eq ha.symm)

/-- A cancelled task waits no more, all others do. -/
theorem mem_queue_cancel {t : Timeline τ} {number : Nat} {e : Entry τ} :
    e ∈ (t.cancel (.accepted number)).queue ↔ e ∈ t.queue ∧ e.number ≠ number := by
  simp [cancel]

theorem mem_of_mem_cancel {t : Timeline τ} {handle : TaskHandle} {e : Entry τ}
    (h : e ∈ (t.cancel handle).queue) : e ∈ t.queue := by
  cases handle with
  | refused => exact h
  | accepted number => exact (mem_queue_cancel.mp h).1

theorem cancel_now (t : Timeline τ) (handle : TaskHandle) : (t.cancel handle).now = t.now := by
  cases handle <;> rfl

end Lwm2mClient.Timeline
