import Mathlib.Data.List.Perm.Basic
import Lwm2mClient.Proofs.Timeline.Draining
import Lwm2mClient.Proofs.Timeline.Driven
import Lwm2mClient.Proofs.Timeline.Ordering

/-!
The backlog of a virtual timeline, kept as it comes. A task that is accepted goes to the end, and
one that is cancelled stays where it is. Whoever takes the next task out first drops all that were
cancelled, then looks through the others for the one that is due earliest and was accepted first,
and moves the last task into its place. So the tasks stand in no order, and some of them will
never start. Without these and put in order they are the queue of a timeline, and nobody who uses
the two can tell them apart.
-/
namespace Lwm2mClient

open Timeline (Entry)
open Scheduler (Use)

structure Backlog (τ : Type) where
  now : Duration := .zero
  /-- How many tasks were accepted so far; the latest has this number. -/
  accepted : Nat := 0
  tasks : List (Entry τ) := []
  /-- The accepted tasks whose handle was cancelled, started or not. -/
  cancelled : List Nat := []
  shutDown : Bool := false

namespace Backlog

variable {τ α : Type}

/-- Whether the handle of a task was not cancelled. -/
def keeps (b : Backlog τ) (e : Entry τ) : Bool := e.number ∉ b.cancelled

/-- The tasks that may still start. -/
def kept (b : Backlog τ) : List (Entry τ) := b.tasks.filter b.keeps

def schedule (b : Backlog τ) (delay : Duration) (task : τ) : TaskHandle × Backlog τ :=
  if b.shutDown then (.refused, b)
  else
    let number := b.accepted + 1
    let entry := ⟨b.now.saturatingAdd delay, number, task⟩
    (.accepted number, { b with accepted := number, tasks := b.tasks ++ [entry] })

def cancel (b : Backlog τ) : TaskHandle → Backlog τ
  | .refused => b
  | .accepted number => { b with cancelled := number :: b.cancelled }

def isCancelled (b : Backlog τ) : TaskHandle → Bool
  | .refused => true
  | .accepted number => number ∈ b.cancelled

/-- How long each task that may still start has to wait, soonest first. -/
def pending (b : Backlog τ) : List Duration :=
  (b.kept.map fun e => e.due.remaining b.now).mergeSort fun x y => decide (x ≤ y)

instance (a b : Entry τ) : Decidable (a.Before b) := inferInstanceAs (Decidable (_ ∨ _))

/-- Of two tasks with their places the one that comes before the other, or else the first. -/
def earlier (x y : Entry τ × Nat) : Entry τ × Nat := if y.1.Before x.1 then y else x

/-- The place of the task that comes before all others that are due by a time. -/
def place? (target : Duration) (tasks : List (Entry τ)) : Option Nat :=
  match tasks.zipIdx.filter (·.1.due ≤ target) with
  | x :: rest => some (rest.foldl earlier x).2
  | [] => none

/-- Removes what is at a place, and moves the last element there. -/
def swapRemove (xs : List α) (i : Nat) : List α :=
  match xs.getLast? with
  | some last => (xs.set i last).dropLast
  | none => []

/-- Drops the cancelled tasks, takes the next one out that is due by a time, if there is one, and
sets the clock to its due time. -/
def takeDue? (b : Backlog τ) (target : Duration) : Option (Entry τ) × Backlog τ :=
  let b := { b with tasks := b.kept }
  match place? target b.tasks with
  | some i =>
    match b.tasks[i]? with
    | some e => (some e, { b with now := b.now.later e.due, tasks := swapRemove b.tasks i })
    | none => (none, b)
  | none => (none, b)

def settle (b : Backlog τ) (target : Duration) : Backlog τ := { b with now := b.now.later target }

def shutdown (b : Backlog τ) : Backlog τ := { b with tasks := [], shutDown := true }

/-! ### The next task -/

theorem before_iff {a b : Entry τ} : a.Before b ↔
    a.due.nanos < b.due.nanos ∨ a.due.nanos = b.due.nanos ∧ a.number < b.number := by
  have hdue : a.due = b.due ↔ a.due.nanos = b.due.nanos :=
    ⟨congrArg Duration.nanos, Duration.ext⟩
  rw [Entry.Before, hdue, Duration.lt_def]

/-- No task comes before the one that is picked. -/
theorem foldl_earlier (x : Entry τ × Nat) (rest : List (Entry τ × Nat)) :
    rest.foldl earlier x ∈ x :: rest ∧
      ∀ y ∈ x :: rest, ¬y.1.Before (rest.foldl earlier x).1 := by
  induction rest generalizing x with
  | nil =>
    refine ⟨List.mem_cons_self, fun y hy => ?_⟩
    rw [List.mem_singleton.mp hy, List.foldl_nil, before_iff]
    omega
  | cons z zs ih =>
    obtain ⟨hmem, hfirst⟩ := ih (earlier x z)
    have hpicked := hfirst _ List.mem_cons_self
    rw [List.foldl_cons]
    -- the one of `x` and `z` that is left out does not come before the other one
    have hboth : (earlier x z = x ∨ earlier x z = z) ∧
        ¬x.1.Before (earlier x z).1 ∧ ¬z.1.Before (earlier x z).1 := by
      unfold earlier
      split
      · rename_i hbefore
        simp only [before_iff] at hbefore ⊢
        exact ⟨Or.inr trivial, by omega, by omega⟩
      · rename_i hnot
        simp only [before_iff] at hnot ⊢
        exact ⟨Or.inl trivial, by omega, hnot⟩
    obtain ⟨hone, hx, hz⟩ := hboth
    refine ⟨?_, fun y hy => ?_⟩
    · rcases List.mem_cons.mp hmem with heq | hrest
      · rw [heq]
        rcases hone with hone | hone <;> simp [hone]
      · exact List.mem_cons_of_mem _ (List.mem_cons_of_mem _ hrest)
    · rcases List.mem_cons.mp hy with rfl | hy
      · rw [before_iff] at hx hpicked ⊢
        omega
      · rcases List.mem_cons.mp hy with rfl | hy
        · rw [before_iff] at hz hpicked ⊢
          omega
        · exact hfirst y (List.mem_cons_of_mem _ hy)

variable {target : Duration} {tasks : List (Entry τ)} {i : Nat} {e : Entry τ}

theorem mem_zipIdx_filter {x : Entry τ × Nat} :
    x ∈ tasks.zipIdx.filter (·.1.due ≤ target) ↔ tasks[x.2]? = some x.1 ∧ x.1.due ≤ target := by
  rw [List.mem_filter, List.mem_zipIdx_iff_getElem?, decide_eq_true_iff]

theorem place?_eq_some (h : place? target tasks = some i) :
    ∃ e, tasks[i]? = some e ∧ e.due ≤ target ∧
      ∀ x ∈ tasks, x.due ≤ target → ¬x.Before e := by
  unfold place? at h
  split at h
  · rename_i x rest hdue
    cases h
    obtain ⟨hmem, hfirst⟩ := foldl_earlier x rest
    rw [← hdue] at hmem hfirst
    obtain ⟨hplace, htarget⟩ := mem_zipIdx_filter.mp hmem
    refine ⟨_, hplace, htarget, fun y hy hytarget => ?_⟩
    obtain ⟨j, hj⟩ := List.mem_iff_getElem?.mp hy
    exact hfirst (y, j) (mem_zipIdx_filter.mpr ⟨hj, hytarget⟩)
  · cases h

theorem place?_eq_none (h : place? target tasks = none) : ∀ x ∈ tasks, ¬x.due ≤ target := by
  unfold place? at h
  split at h
  · cases h
  · rename_i hnone
    intro x hx hdue
    obtain ⟨j, hj⟩ := List.mem_iff_getElem?.mp hx
    have hmem : (x, j) ∈ tasks.zipIdx.filter (·.1.due ≤ target) :=
      mem_zipIdx_filter.mpr ⟨hj, hdue⟩
    rw [hnone] at hmem
    cases hmem

/-- Nothing is lost but what is removed. -/
theorem swapRemove_perm {xs : List α} {x : α} (h : xs[i]? = some x) :
    xs.Perm (x :: swapRemove xs i) := by
  rcases List.eq_nil_or_concat xs with rfl | ⟨ys, last, rfl⟩
  · cases h
  rw [List.concat_eq_append] at h ⊢
  have hremove : swapRemove (ys ++ [last]) i = ((ys ++ [last]).set i last).dropLast := by
    simp only [swapRemove, List.getLast?_concat]
  rw [hremove]
  by_cases hi : i < ys.length
  · rw [List.set_append_left _ _ hi, List.dropLast_concat]
    have hx : ys[i] = x := by
      rw [List.getElem?_append_left hi, List.getElem?_eq_getElem hi] at h
      exact Option.some.inj h
    have hmoved : (ys.set i last).Perm (last :: ys.eraseIdx i) :=
      List.set_perm_cons_eraseIdx hi last
    calc ys ++ [last]
      _ |>.Perm (last :: ys) := List.perm_append_singleton last ys
      _ |>.Perm (last :: x :: ys.eraseIdx i) :=
        List.Perm.cons last (by
          rw [← hx]
          exact (List.getElem_cons_eraseIdx_perm hi).symm)
      _ |>.Perm (x :: last :: ys.eraseIdx i) := List.Perm.swap _ _ _
      _ |>.Perm (x :: ys.set i last) := hmoved.symm.cons x
  · obtain ⟨hlt, -⟩ := List.getElem?_eq_some_iff.mp h
    rw [List.length_append, List.length_singleton] at hlt
    have hlast : i = ys.length := by omega
    subst hlast
    rw [List.getElem?_concat_length] at h
    cases h
    rw [List.set_append_right _ _ (Nat.le_refl _), Nat.sub_self]
    rw [List.set_cons_zero, List.dropLast_concat]
    exact List.perm_append_singleton _ ys

/-! ### A backlog and a timeline -/

/-- A backlog and a timeline with the same tasks. -/
structure Stands (b : Backlog τ) (t : Timeline τ) : Prop where
  now : b.now = t.now
  accepted : b.accepted = t.accepted
  cancelled : b.cancelled = t.cancelled
  shutDown : b.shutDown = t.shutDown
  tasks : b.kept.Perm t.queue
  order : t.queue.Pairwise Entry.Before
  bound : ∀ x ∈ t.queue, x.number ≤ t.accepted
  /-- Only tasks that were accepted can have been cancelled. -/
  given : ∀ number ∈ b.cancelled, number ≤ b.accepted

variable {b : Backlog τ} {t : Timeline τ}

theorem stands_empty : Stands ({} : Backlog τ) {} :=
  ⟨rfl, rfl, rfl, rfl, List.Perm.refl _, List.Pairwise.nil, nofun, nofun⟩

theorem Stands.schedule (h : Stands b t) (delay : Duration) (task : τ) :
    (b.schedule delay task).1 = (t.schedule delay task).1 ∧
      Stands (b.schedule delay task).2 (t.schedule delay task).2 := by
  unfold Backlog.schedule Timeline.schedule
  rw [h.shutDown, h.accepted, h.now]
  split
  · exact ⟨rfl, h⟩
  · refine ⟨rfl, rfl, rfl, h.cancelled, rfl, ?_, ?_, ?_, ?_⟩
    · -- a number that was not given to any task before was not cancelled either
      have hnew : b.keeps ⟨t.now.saturatingAdd delay, t.accepted + 1, task⟩ = true := by
        refine decide_eq_true fun hcancelled => ?_
        have hgiven := h.given _ hcancelled
        rw [h.accepted] at hgiven
        exact absurd hgiven (Nat.not_succ_le_self _)
      change ((b.tasks ++ [_]).filter b.keeps).Perm _
      rw [List.filter_append, List.filter_cons_of_pos hnew]
      refine (List.perm_append_singleton _ _).trans ?_
      exact (h.tasks.cons _).trans (Timeline.enqueue_perm _ _).symm
    · exact Timeline.pairwise_enqueue h.order fun x hx => Nat.lt_succ_of_le (h.bound x hx)
    · intro x hx
      rcases Timeline.mem_enqueue.mp hx with rfl | hold
      · exact Nat.le_refl _
      · exact Nat.le_succ_of_le (h.bound x hold)
    · intro number hnumber
      exact Nat.le_succ_of_le (h.accepted ▸ h.given number hnumber)

theorem Stands.cancel (h : Stands b t) {handle : TaskHandle} (hgiven : t.hasGiven handle = true) :
    Stands (b.cancel handle) (t.cancel handle) := by
  cases handle with
  | refused => exact h
  | accepted number =>
    have hkept : (b.cancel (.accepted number)).kept = b.kept.filter (·.number ≠ number) := by
      rw [kept, kept, List.filter_filter]
      refine List.filter_congr fun x _ => ?_
      simp only [keeps, Backlog.cancel, List.mem_cons, not_or, Bool.decide_and]
    refine ⟨h.now, h.accepted, congrArg (number :: ·) h.cancelled, h.shutDown, ?_,
      h.order.sublist List.filter_sublist, ?_, ?_⟩
    · rw [hkept]
      exact h.tasks.filter _
    · exact fun x hx => h.bound x (Timeline.mem_queue_cancel.mp hx).1
    · intro other hother
      rcases List.mem_cons.mp hother with rfl | hold
      · exact h.accepted ▸ of_decide_eq_true hgiven
      · exact h.given other hold

theorem Stands.isCancelled (h : Stands b t) (handle : TaskHandle) :
    b.isCancelled handle = t.isCancelled handle := by
  cases handle with
  | refused => rfl
  | accepted number => rw [Backlog.isCancelled, Timeline.isCancelled, h.cancelled]

theorem Stands.pending (h : Stands b t) : b.pending = t.pending := by
  have hperm : b.pending.Perm t.pending := by
    refine (List.mergeSort_perm _ _).trans ?_
    rw [h.now]
    exact h.tasks.map _
  have hsorted : b.pending.Pairwise (· ≤ ·) := by
    have htrans (x y z : Duration) (hxy : decide (x ≤ y)) (hyz : decide (y ≤ z)) :
        decide (x ≤ z) := by
      simp only [decide_eq_true_eq] at hxy hyz ⊢
      exact Duration.le_trans hxy hyz
    have htotal (x y : Duration) : decide (x ≤ y) || decide (y ≤ x) := by
      simp only [Bool.or_eq_true, decide_eq_true_eq]
      exact Nat.le_total _ _
    exact (List.pairwise_mergeSort htrans htotal _).imp of_decide_eq_true
  have hascending : t.pending.Pairwise (· ≤ ·) :=
    List.pairwise_map.mpr
      (h.order.imp fun hbefore => Nat.sub_le_sub_right hbefore.due_le t.now.nanos)
  exact hperm.eq_of_pairwise
    (fun x y _ _ hxy hyx => Duration.ext (Nat.le_antisymm hxy hyx)) hsorted hascending

theorem kept_kept (b : Backlog τ) : { b with tasks := b.kept }.kept = b.kept := by
  change (b.tasks.filter b.keeps).filter b.keeps = _
  rw [List.filter_filter]
  simp only [Bool.and_self]
  rfl

/-- What is dropped before a task is taken out would not have started. -/
theorem Stands.purge (h : Stands b t) : Stands { b with tasks := b.kept } t :=
  { h with tasks := (kept_kept b).symm ▸ h.tasks }

/-- The same task is taken out of both, if any. -/
theorem Stands.takeDue? (h : Stands b t) (target : Duration) :
    match t.takeDue? target with
    | some (e, t') => (b.takeDue? target).1 = some e ∧ Stands (b.takeDue? target).2 t'
    | none => (b.takeDue? target).1 = none ∧ Stands (b.takeDue? target).2 t := by
  cases hplace : place? target b.kept with
  | none =>
    have hbacklog : b.takeDue? target = (none, { b with tasks := b.kept }) := by
      simp only [Backlog.takeDue?, hplace]
    have htimeline : t.takeDue? target = none := by
      rw [← Option.not_isSome_iff_eq_none, Option.isSome_iff_exists]
      rintro ⟨⟨e, t'⟩, htake⟩
      obtain ⟨rest, hqueue, hdue, -⟩ := Timeline.takeDue?_eq_some_iff.mp htake
      have hkept : e ∈ b.kept := h.tasks.mem_iff.mpr (hqueue ▸ List.mem_cons_self)
      exact place?_eq_none hplace e hkept hdue
    rw [htimeline, hbacklog]
    exact ⟨rfl, h.purge⟩
  | some i =>
    obtain ⟨e, he, hdue, hfirst⟩ := place?_eq_some hplace
    have hbacklog : b.takeDue? target =
        (some e, { b with now := b.now.later e.due, tasks := swapRemove b.kept i }) := by
      simp only [Backlog.takeDue?, hplace, he]
    have hqueued : e ∈ t.queue := h.tasks.mem_iff.mp (List.mem_of_getElem? he)
    obtain ⟨first, rest, hqueue⟩ := List.exists_cons_of_ne_nil (List.ne_nil_of_mem hqueued)
    obtain ⟨hbefore, horder⟩ := List.pairwise_cons.mp (hqueue ▸ h.order)
    -- the first task of the queue comes before all others, so it is the one that is picked
    have hsame : e = first := by
      rcases List.mem_cons.mp (hqueue ▸ hqueued) with heq | hrest
      · exact heq
      · have hbefore := hbefore e hrest
        have hkept : first ∈ b.kept := h.tasks.mem_iff.mpr (hqueue ▸ List.mem_cons_self)
        exact absurd hbefore (hfirst first hkept (Duration.le_trans hbefore.due_le hdue))
    subst hsame
    have htimeline : t.takeDue? target =
        some (e, { t with now := t.now.later e.due, queue := rest }) :=
      Timeline.takeDue?_eq_some_iff.mpr ⟨rest, hqueue, hdue, rfl⟩
    have hleft := (swapRemove_perm he).symm.trans (hqueue ▸ h.tasks)
    have hkept : (swapRemove b.kept i).filter b.keeps = swapRemove b.kept i := by
      refine List.filter_eq_self.mpr fun x hx => ?_
      have hold : x ∈ b.kept := (swapRemove_perm he).mem_iff.mpr (List.mem_cons_of_mem e hx)
      exact (List.mem_filter.mp hold).2
    rw [htimeline, hbacklog]
    refine ⟨rfl, ?_, h.accepted, h.cancelled, h.shutDown, ?_, horder, ?_, h.given⟩
    · exact congrArg (Duration.later · e.due) h.now
    · change ((swapRemove b.kept i).filter b.keeps).Perm rest
      rw [hkept]
      exact hleft.cons_inv
    · exact fun x hx => h.bound x (hqueue ▸ List.mem_cons_of_mem e hx)

theorem Stands.settle (h : Stands b t) (target : Duration) :
    Stands (b.settle target) (t.settle target) :=
  { h with now := congrArg (Duration.later · target) h.now }

theorem Stands.shutdown (h : Stands b t) : Stands b.shutdown t.shutdown :=
  ⟨h.now, h.accepted, h.cancelled, rfl, List.Perm.refl _, List.Pairwise.nil, nofun, h.given⟩

/-! ### Uses of both -/

/-- A backlog, and the tasks that were started from it, the latest first. -/
structure Used (τ : Type) where
  backlog : Backlog τ := {}
  started : List (Entry τ) := []

namespace Used

def step (s : Used τ) : Use τ → Used τ
  | .schedule delay task => { s with backlog := (s.backlog.schedule delay task).2 }
  | .cancel handle => { s with backlog := s.backlog.cancel handle }
  | .shutdown => { s with backlog := s.backlog.shutdown }
  | .serve target =>
    let (due?, backlog) := s.backlog.takeDue? target
    { backlog := backlog, started := due?.toList ++ s.started }
  | .pass instant => { s with backlog := s.backlog.settle instant }

def run (s : Used τ) (uses : List (Use τ)) : Used τ := uses.foldl step s

/-- A handle can only be cancelled by somebody who was given it. -/
def Permits (s : Used τ) : Use τ → Prop
  | .cancel (.accepted number) => number ≤ s.backlog.accepted
  | _ => True

end Used

/-- The same tasks were started from a backlog and a timeline, and the same are left. -/
structure Follows (s : Used τ) (u : Scheduler.Used τ) : Prop where
  started : s.started = u.started
  stands : ∃ t, u.scheduler = .timeline t ∧ Stands s.backlog t

theorem Follows.step {s : Used τ} {u : Scheduler.Used τ} (h : Follows s u) {use : Use τ}
    (hpermits : s.Permits use) : Follows (s.step use) (u.step use) := by
  obtain ⟨scheduler, started⟩ := u
  obtain ⟨rfl, t, rfl, hstands⟩ := h
  cases use with
  | schedule delay task => exact ⟨rfl, _, rfl, (hstands.schedule delay task).2⟩
  | cancel handle =>
    have hgiven : t.hasGiven handle = true := by
      cases handle with
      | refused => rfl
      | accepted number =>
        have hle : number ≤ s.backlog.accepted := hpermits
        rw [hstands.accepted] at hle
        exact decide_eq_true hle
    exact ⟨rfl, _, rfl, hstands.cancel hgiven⟩
  | shutdown => exact ⟨rfl, _, rfl, hstands.shutdown⟩
  | serve target =>
    have htake := hstands.takeDue? target
    simp only [Used.step, Scheduler.Used.step, Scheduler.serve?]
    cases hdue : t.takeDue? target with
    | none =>
      rw [hdue] at htake
      rw [htake.1]
      exact ⟨rfl, t, rfl, htake.2⟩
    | some taken =>
      rw [hdue] at htake
      rw [htake.1]
      exact ⟨rfl, _, rfl, htake.2⟩
  | pass instant => exact ⟨rfl, _, rfl, hstands.settle instant⟩

/-- Whatever is done with a timeline can be done with a backlog: it starts the same tasks in
the same order, gives the same handles, and tells the same of its clock, of what is pending
and of what was cancelled. -/
theorem follows_of_uses {uses : List (Use τ)}
    (hpermits : ∀ before use after, uses = before ++ use :: after →
      (Used.run ({} : Used τ) before).Permits use) :
    let s := Used.run ({} : Used τ) uses
    ∃ t, Scheduler.Used.run ⟨.timeline {}, []⟩ uses = ⟨.timeline t, s.started⟩ ∧
      s.backlog.now = t.now ∧ s.backlog.pending = t.pending ∧
      (∀ handle, s.backlog.isCancelled handle = t.isCancelled handle) ∧
      ∀ delay task, (s.backlog.schedule delay task).1 = (t.schedule delay task).1 := by
  have hfollows : ∀ (rest before : List (Use τ)) (u : Scheduler.Used τ), uses = before ++ rest →
      Follows (Used.run {} before) u → Follows (Used.run {} uses) (u.run rest) := by
    intro rest
    induction rest with
    | nil =>
      rintro before u rfl h
      rwa [List.append_nil]
    | cons use rest ih =>
      intro before u huses h
      have hstep := h.step (hpermits before use rest huses)
      have hrun : (Used.run {} before).step use = Used.run ({} : Used τ) (before ++ [use]) := by
        rw [Used.run, Used.run, List.foldl_append]
        rfl
      rw [hrun] at hstep
      exact ih (before ++ [use]) (u.step use) (by rw [huses, List.append_assoc]; rfl) hstep
  obtain ⟨hstarted, t, ht, hstands⟩ :=
    hfollows uses [] ⟨.timeline {}, []⟩ rfl ⟨rfl, {}, rfl, stands_empty⟩
  refine ⟨t, ?_, hstands.now, hstands.pending, hstands.isCancelled, fun delay task =>
    (hstands.schedule delay task).1⟩
  rw [← ht]
  exact congrArg (Scheduler.Used.mk _) hstarted.symm

end Backlog
end Lwm2mClient
