import Lwm2mClient.Proofs.Timeline.Plays

/-!
How the tasks of a scheduler become more. A task that is handed over gets a number that no task
had before, and nothing else puts a task on a timeline. So what a handle was given for never
changes.
-/
namespace Lwm2mClient.Scheduler

open Timeline (Entry)

variable {τ : Type} {s s' s'' : Scheduler τ} {kind kind' : τ → Prop} {number : Nat}

/-- The tasks that have not started are old ones, or tasks of a kind that were handed over in the
meantime. -/
structure Grows (kind : τ → Prop) (s s' : Scheduler τ) : Prop where
  accepted : s.accepted ≤ s'.accepted
  entries : ∀ e ∈ s'.entries,
    e ∈ s.entries ∨ kind e.task ∧ s.accepted < e.number ∧ e.number ≤ s'.accepted

theorem Grows.of_subset (haccepted : s'.accepted = s.accepted)
    (hentries : ∀ e ∈ s'.entries, e ∈ s.entries) : Grows kind s s' :=
  ⟨Nat.le_of_eq haccepted.symm, fun e he => Or.inl (hentries e he)⟩

theorem Grows.refl (s : Scheduler τ) : Grows kind s s := .of_subset rfl fun _ => id

theorem Grows.trans (h : Grows kind s s') (h' : Grows kind s' s'') : Grows kind s s'' := by
  refine ⟨Nat.le_trans h.accepted h'.accepted, fun e he => ?_⟩
  rcases h'.entries e he with hold | ⟨hkind, hlt, hle⟩
  · refine (h.entries e hold).imp_right fun ⟨hkind, hlt, hle⟩ => ?_
    exact ⟨hkind, hlt, Nat.le_trans hle h'.accepted⟩
  · exact Or.inr ⟨hkind, Nat.lt_of_le_of_lt h.accepted hlt, hle⟩

theorem Grows.mono (h : Grows kind s s') (hkind : ∀ task, kind task → kind' task) :
    Grows kind' s s' :=
  ⟨h.accepted, fun e he => (h.entries e he).imp_right fun hnew => ⟨hkind _ hnew.1, hnew.2⟩⟩

/-- No task has a number that was not given yet. -/
def IsNumbered (s : Scheduler τ) : Prop := ∀ e ∈ s.entries, e.number ≤ s.accepted

theorem IsNumbered.grows (h : s.IsNumbered) (hgrows : Grows kind s s') : s'.IsNumbered := by
  intro e he
  rcases hgrows.entries e he with hold | ⟨-, -, hle⟩
  · exact Nat.le_trans (h e hold) hgrows.accepted
  · exact hle

/-- A number was given, and no task of another kind has it. -/
structure IsOf (s : Scheduler τ) (kind : τ → Prop) (number : Nat) : Prop where
  given : number ≤ s.accepted
  kind : ∀ e ∈ s.entries, e.number = number → kind e.task

theorem IsOf.grows (h : s.IsOf kind number) (hgrows : Grows kind' s s') :
    s'.IsOf kind number := by
  refine ⟨Nat.le_trans h.given hgrows.accepted, fun e he hnumber => ?_⟩
  rcases hgrows.entries e he with hold | ⟨-, hlt, -⟩
  · exact h.kind e hold hnumber
  · exact absurd h.given (Nat.not_le_of_lt (hnumber ▸ hlt))

/-! ### What is done to a scheduler -/

/-- A task is refused, or it is handed over under the next number. -/
theorem schedule_cases (s : Scheduler τ) (delay : Duration) (task : τ) :
    s.schedule delay task = (.refused, s) ∨
      (s.schedule delay task).1 = .accepted (s.accepted + 1) ∧
      (s.schedule delay task).2.accepted = s.accepted + 1 ∧
      ∀ e ∈ (s.schedule delay task).2.entries,
        e ∈ s.entries ∨ e.number = s.accepted + 1 ∧ e.task = task := by
  cases s with
  | timeline t =>
    simp only [schedule, Timeline.schedule]
    split
    · exact Or.inl rfl
    · refine Or.inr ⟨rfl, rfl, fun e he => ?_⟩
      rcases Timeline.mem_enqueue.mp he with rfl | hold
      · exact Or.inr ⟨rfl, rfl⟩
      · exact Or.inl hold
  | worker w =>
    simp only [schedule, Worker.schedule]
    split
    · exact Or.inl rfl
    · refine Or.inr ⟨rfl, rfl, fun e he => ?_⟩
      rw [mem_entries_worker] at he ⊢
      rcases he with hqueued | hsent
      · exact Or.inl (Or.inl hqueued)
      · rcases List.mem_append.mp hsent with hold | hnew
        · exact Or.inl (Or.inr hold)
        · cases List.mem_singleton.mp hnew
          exact Or.inr ⟨rfl, rfl⟩

theorem grows_schedule (s : Scheduler τ) (delay : Duration) {task : τ} (htask : kind task) :
    Grows kind s (s.schedule delay task).2 := by
  rcases s.schedule_cases delay task with hrefused | ⟨-, haccepted, hentries⟩
  · exact hrefused.symm ▸ .refl s
  · refine ⟨haccepted ▸ Nat.le_succ _, fun e he => ?_⟩
    refine (hentries e he).imp_right fun ⟨hnumber, hnew⟩ => ?_
    rw [hnumber, hnew, haccepted]
    exact ⟨htask, Nat.lt_succ_self _, Nat.le_refl _⟩

/-- The handle of a task that was just handed over is that of a task of its kind. -/
theorem isOf_schedule (h : s.IsNumbered) {delay : Duration} {task : τ}
    (htask : kind task) (hhandle : (s.schedule delay task).1 = .accepted number) :
    (s.schedule delay task).2.IsOf kind number := by
  rcases s.schedule_cases delay task with hrefused | ⟨hgiven, haccepted, hentries⟩
  · rw [hrefused] at hhandle
    cases hhandle
  · cases hgiven.symm.trans hhandle
    refine ⟨Nat.le_of_eq haccepted.symm, fun e he hnumber => ?_⟩
    rcases hentries e he with hold | ⟨-, hnew⟩
    · exact absurd (h e hold) (Nat.not_le_of_lt (hnumber ▸ Nat.lt_succ_self _))
    · exact hnew ▸ htask

theorem grows_cancel (s : Scheduler τ) (handle : TaskHandle) :
    Grows kind s (s.cancel handle) := by
  cases handle with
  | refused => exact (cancel_refused s).symm ▸ .refl s
  | accepted number =>
    cases s with
    | timeline t => exact .of_subset rfl fun e he => Timeline.mem_of_mem_cancel he
    | worker w => exact .of_subset rfl fun e he => he

theorem grows_shutdown (s : Scheduler τ) : Grows kind s s.shutdown := by
  cases s with
  | timeline t => exact .of_subset rfl fun e he => absurd he List.not_mem_nil
  | worker w =>
    simp only [shutdown, Worker.shutdown]
    split
    · exact .refl _
    · refine .of_subset rfl fun e he => mem_entries_worker.mpr ?_
      refine (mem_entries_worker.mp he).imp_right fun hsent => ?_
      rcases List.mem_append.mp hsent with hold | hstop
      · exact hold
      · cases List.mem_singleton.mp hstop

theorem grows_passUntil (s : Scheduler τ) (instant : Duration) :
    Grows kind s (s.passUntil instant) := by
  cases s with
  | timeline t => exact .refl _
  | worker w => exact .of_subset rfl fun _ => id

theorem grows_settle (t : Timeline τ) (target : Duration) :
    Grows kind (timeline t) (timeline (t.settle target)) := .of_subset rfl fun _ => id

theorem grows_takeDue? {t t' : Timeline τ} {target : Duration} {e : Entry τ}
    (h : t.takeDue? target = some (e, t')) : Grows kind (timeline t) (timeline t') := by
  obtain ⟨hqueue, haccepted, -⟩ := Timeline.takeDue?_eq_some h
  refine .of_subset haccepted fun x hx => ?_
  change x ∈ t.queue
  rw [hqueue]
  exact List.mem_cons_of_mem e hx

theorem grows_move? {w w' : Worker τ} {due? : Option (Entry τ)}
    (h : w.move? = some (due?, w')) : Grows kind (worker w) (worker w') := by
  cases (Worker.goes_of_move? h).2 with
  | starts first rest hqueue | skips first rest hqueue =>
    refine .of_subset rfl fun e he => mem_entries_worker.mpr ?_
    refine (mem_entries_worker.mp he).imp_left fun hrest => ?_
    exact hqueue ▸ List.mem_cons_of_mem first hrest
  | receives entry rest hidle hcommands =>
    refine .of_subset rfl fun e he => mem_entries_worker.mpr ?_
    rw [hcommands]
    rcases mem_entries_worker.mp he with hqueued | hsent
    · rcases Timeline.mem_enqueue.mp hqueued with rfl | hold
      · exact Or.inr List.mem_cons_self
      · exact Or.inl hold
    · exact Or.inr (List.mem_cons_of_mem _ hsent)
  | stops rest hidle hcommands =>
    refine .of_subset rfl fun e he => mem_entries_worker.mpr ?_
    rcases mem_entries_worker.mp he with hqueued | hsent
    · cases hqueued
    · exact Or.inr (hcommands ▸ List.mem_cons_of_mem _ hsent)

end Lwm2mClient.Scheduler
