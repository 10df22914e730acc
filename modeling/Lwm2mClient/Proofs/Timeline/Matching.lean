import Lwm2mClient.Proofs.Timeline.Plays

/-!
A worker and a virtual timeline with the same tasks. The worker keeps its tasks in two places,
what it has received and what was sent to it, and drops a cancelled task only when it is due. Once
all would be received and the cancelled tasks are left out, what it keeps is the queue of the
timeline. This holds on whatever is done to both. Of the moves of the worker, the start of a task
takes the same task from the timeline, and all others change nothing there.
-/
namespace Lwm2mClient

open Timeline (Entry enqueue mem_enqueue InDueOrder)

/-! ### What a worker will have received -/

namespace Timeline

variable {τ : Type} {e : Entry τ} {q : List (Entry τ)} {p : Entry τ → Bool}

theorem enqueue_of_lt (h : ∀ x ∈ q, e.due < x.due) : enqueue e q = e :: q := by
  cases q with
  | nil => rfl
  | cons x xs => exact if_pos (h x List.mem_cons_self)

/-- An entry that is kept finds the same place among those that are kept. -/
theorem filter_enqueue (h : InDueOrder q) (he : p e = true) :
    (enqueue e q).filter p = enqueue e (q.filter p) := by
  induction q with
  | nil => exact List.filter_cons_of_pos he
  | cons x xs ih =>
    obtain ⟨hx, hxs⟩ := List.pairwise_cons.mp h
    simp only [enqueue]
    split
    · rename_i hlt
      -- `x` itself may be dropped, but all behind it are due later as well
      rw [List.filter_cons_of_pos he, enqueue_of_lt]
      intro y hy
      rcases List.mem_cons.mp (List.mem_filter.mp hy).1 with rfl | hrest
      · exact hlt
      · exact Nat.lt_of_lt_of_le hlt (hx y hrest)
    · rename_i hlt
      cases hpx : p x with
      | true => rw [List.filter_cons_of_pos hpx, List.filter_cons_of_pos hpx, ih hxs,
          enqueue, if_neg hlt]
      | false =>
        have hdropped : ¬ p x = true := Bool.eq_false_iff.mp hpx
        rw [List.filter_cons_of_neg hdropped, List.filter_cons_of_neg hdropped, ih hxs]

end Timeline

namespace Worker

variable {τ : Type}

/-- What has been received after one more command. -/
def received (q : List (Entry τ)) : Command τ → List (Entry τ)
  | .schedule e => enqueue e q
  | .stop => []

/-- What will have been received once all that was sent is received, if no task is started
before. -/
def awaited (w : Worker τ) : List (Entry τ) := w.commands.foldl received w.queue

theorem inDueOrder_foldl_received {q : List (Entry τ)} (h : InDueOrder q)
    (commands : List (Command τ)) : InDueOrder (commands.foldl received q) := by
  induction commands generalizing q with
  | nil => exact h
  | cons c rest ih =>
    cases c with
    | schedule e => exact ih (Timeline.inDueOrder_enqueue h)
    | stop => exact ih List.Pairwise.nil

/-- What is due no later than all that was sent is not overtaken. -/
theorem foldl_received_cons {e : Entry τ} {q : List (Entry τ)} {commands : List (Command τ)}
    (h : ∀ c ∈ commands, ∃ x, c = .schedule x ∧ e.due ≤ x.due) :
    commands.foldl received (e :: q) = e :: commands.foldl received q := by
  induction commands generalizing q with
  | nil => rfl
  | cons c rest ih =>
    obtain ⟨x, rfl, hdue⟩ := h c List.mem_cons_self
    have hbehind : received (e :: q) (.schedule x) = e :: received q (.schedule x) :=
      if_neg (Nat.not_lt_of_le hdue)
    rw [List.foldl_cons, hbehind, List.foldl_cons]
    exact ih fun c hc => h c (List.mem_cons_of_mem _ hc)

/-- Whether a task was not cancelled. -/
def keeps (w : Worker τ) (e : Entry τ) : Bool := e.number ∉ w.cancelled

end Worker

namespace Play

variable {τ : Type} {w w' : Worker τ} {t t' : Timeline τ}

/-- A worker and a virtual timeline to which the same was done. -/
structure Matches (w : Worker τ) (t : Timeline τ) : Prop where
  taking : w.closed = false
  serving : w.stopped = false
  opened : t.shutDown = false
  accepted : t.accepted = w.accepted
  bound : ∀ number ∈ w.cancelled, number ≤ w.accepted
  order : InDueOrder w.queue
  queue : t.queue = w.awaited.filter w.keeps
  timely : ∀ e ∈ w.queue, w.now ≤ e.due
  sent : ∀ c ∈ w.commands, ∃ e, c = .schedule e ∧ w.now ≤ e.due
  now : t.now ≤ w.now

theorem matches_empty : Matches ({} : Worker τ) {} :=
  ⟨rfl, rfl, rfl, rfl, by simp, List.Pairwise.nil, rfl, by simp, by simp, Duration.le_refl _⟩

theorem Matches.schedule (h : Matches w t) (hnow : t.now = w.now) {delay due : Duration}
    (task : τ) (hadd : w.now.add? delay = some due) (hhorizon : due ≤ Worker.horizon) :
    Matches (w.schedule delay task).2 (t.schedule delay task).2 := by
  have hdeadline : w.deadline delay = due := by simp only [Worker.deadline, hadd, if_pos hhorizon]
  have hdue : t.now.saturatingAdd delay = due := hnow ▸ Duration.saturatingAdd_of_add? hadd
  have hlater : w.now ≤ due := Duration.le_of_add? hadd
  have hw : w.schedule delay task = (.accepted (w.accepted + 1),
      { w with
        accepted := w.accepted + 1
        commands := w.commands ++ [.schedule ⟨due, w.accepted + 1, task⟩] }) := by
    rw [Worker.schedule, if_neg (Bool.eq_false_iff.mp h.taking), hdeadline]
  have ht : t.schedule delay task = (.accepted (w.accepted + 1),
      { t with
        accepted := w.accepted + 1, queue := enqueue ⟨due, w.accepted + 1, task⟩ t.queue }) := by
    rw [Timeline.schedule, if_neg (Bool.eq_false_iff.mp h.opened), hdue, h.accepted]
  rw [hw, ht]
  refine ⟨h.taking, h.serving, h.opened, rfl, fun n hn => Nat.le_succ_of_le (h.bound n hn),
    h.order, ?_, h.timely, ?_, h.now⟩
  · have hkept : w.keeps ⟨due, w.accepted + 1, task⟩ = true :=
      decide_eq_true fun hcancelled => absurd (h.bound _ hcancelled) (Nat.not_succ_le_self _)
    change enqueue _ t.queue =
        List.filter w.keeps ((w.commands ++ [_]).foldl Worker.received w.queue)
    rw [List.foldl_append, h.queue]
    exact (Timeline.filter_enqueue (Worker.inDueOrder_foldl_received h.order _) hkept).symm
  · intro c hc
    rcases List.mem_append.mp hc with hold | hnew
    · exact h.sent c hold
    · exact ⟨_, List.mem_singleton.mp hnew, hlater⟩

theorem Matches.cancel (h : Matches w t) {number : Nat} (hgiven : number ≤ w.accepted) :
    Matches (w.cancel (.accepted number)) (t.cancel (.accepted number)) := by
  refine ⟨h.taking, h.serving, h.opened, h.accepted, ?_, h.order, ?_, h.timely, h.sent, h.now⟩
  · intro n hn
    rcases List.mem_cons.mp hn with rfl | hold
    · exact hgiven
    · exact h.bound n hold
  · change t.queue.filter _ = w.awaited.filter _
    rw [h.queue, List.filter_filter]
    refine List.filter_congr fun e he => ?_
    simp [Worker.keeps, Worker.cancel]

/-- What is done at an instant is possible for both or for neither, and leads to the same. -/
theorem Matches.perform (h : Matches w t) (hnow : t.now = w.now) (acts : List (Act τ)) :
    (Scheduler.worker w).perform? acts = none ∧ (Scheduler.timeline t).perform? acts = none ∨
      ∃ w' t', (Scheduler.worker w).perform? acts = some (.worker w') ∧
        (Scheduler.timeline t).perform? acts = some (.timeline t') ∧
          Matches w' t' ∧ w'.now = w.now ∧ t'.now = w.now := by
  induction acts generalizing w t with
  | nil => exact Or.inr ⟨w, t, rfl, rfl, h, rfl, hnow⟩
  | cons act rest ih =>
    cases act with
    | fail => exact Or.inr ⟨w, t, rfl, rfl, h, rfl, hnow⟩
    | schedule delay task =>
      have hclock : (Scheduler.timeline t).clock = (Scheduler.worker w).clock := hnow
      rw [Scheduler.perform?, Scheduler.perform?, hclock]
      by_cases hrange : ((Scheduler.worker w).clock.add? delay).any (· ≤ Worker.horizon) = true
      · rw [if_pos hrange, if_pos hrange]
        obtain ⟨due, hadd, hhorizon⟩ := (Option.any_eq_true _ _).mp hrange
        have hnow' : (t.schedule delay task).2.now = (w.schedule delay task).2.now := by
          simp only [Timeline.schedule, Worker.schedule, h.opened, h.taking, hnow,
            Bool.false_eq_true, if_false]
        have hsame : (w.schedule delay task).2.now = w.now := by
          simp only [Worker.schedule, h.taking, Bool.false_eq_true, if_false]
        exact hsame ▸ ih (h.schedule hnow task hadd (of_decide_eq_true hhorizon)) hnow'
      · rw [if_neg hrange, if_neg hrange]
        exact Or.inl ⟨rfl, rfl⟩
    | cancel number =>
      have haccepted : (Scheduler.timeline t).accepted = (Scheduler.worker w).accepted :=
        h.accepted
      rw [Scheduler.perform?, Scheduler.perform?, haccepted]
      by_cases hgiven : number ≤ (Scheduler.worker w).accepted
      · rw [if_pos hgiven, if_pos hgiven]
        exact ih (h.cancel hgiven) hnow
      · rw [if_neg hgiven, if_neg hgiven]
        exact Or.inl ⟨rfl, rfl⟩

/-! ### The moves of the worker -/

/-- What is due is the next of all that the worker will have received. -/
theorem Matches.awaited_of_due (h : Matches w t) {e : Entry τ} {rest : List (Entry τ)}
    (hqueue : w.queue = e :: rest) (hdue : e.due ≤ w.now) :
    w.awaited = e :: w.commands.foldl Worker.received rest := by
  rw [Worker.awaited, hqueue]
  refine Worker.foldl_received_cons fun c hc => ?_
  obtain ⟨x, hx, hlater⟩ := h.sent c hc
  exact ⟨x, hx, Duration.le_trans hdue hlater⟩

/-- A task that the worker starts is the next one that the timeline has due, and the
clocks show the same then. -/
theorem Matches.starts (h : Matches w t) {e : Entry τ} {target : Duration}
    (hgoes : w.Goes (some e) w') (htarget : w.now ≤ target) :
    ∃ t', t.takeDue? target = some (e, t') ∧ Matches w' t' ∧ t'.now = w'.now := by
  cases hgoes with
  | starts e rest hqueue hdue hkept =>
    have hnow : e.due = w.now :=
      Duration.ext (Nat.le_antisymm hdue (h.timely e (hqueue ▸ List.mem_cons_self)))
    have hkeeps : w.keeps e = true := decide_eq_true hkept
    have hfirst : t.queue = e :: (w.commands.foldl Worker.received rest).filter w.keeps := by
      rw [h.queue, h.awaited_of_due hqueue hdue, List.filter_cons_of_pos hkeeps]
    have hclock : t.now.later e.due = w.now := (Duration.later_of_le (hnow ▸ h.now)).trans hnow
    refine ⟨{ t with
              now := w.now, queue := (w.commands.foldl Worker.received rest).filter w.keeps }, ?_,
              ?_, rfl⟩
    · simp only [Timeline.takeDue?, hfirst]
      rw [if_pos (Duration.le_trans hdue htarget), hclock]
    · refine ⟨h.taking, h.serving, h.opened, h.accepted, h.bound,
        (List.pairwise_cons.mp (hqueue ▸ h.order)).2, rfl, fun x hx =>
        ?_, h.sent, Duration.le_refl _⟩
      exact h.timely x (hqueue ▸ List.mem_cons_of_mem e hx)

/-- What the worker skips or receives changes nothing for the timeline. -/
theorem Matches.goes (h : Matches w t) (hgoes : w.Goes none w') : Matches w' t := by
  have horder := hgoes.inDueOrder h.order
  cases hgoes with
  | skips e rest hqueue hdue hcancelled =>
    have hdropped : ¬ w.keeps e = true := fun hkept => (of_decide_eq_true hkept) hcancelled
    refine ⟨h.taking, h.serving, h.opened, h.accepted, h.bound, horder, ?_, fun x hx =>
      ?_, h.sent, h.now⟩
    · rw [h.queue, h.awaited_of_due hqueue hdue, List.filter_cons_of_neg hdropped]
      rfl
    · exact h.timely x (hqueue ▸ List.mem_cons_of_mem e hx)
  | receives e rest hidle hcommands =>
    refine ⟨h.taking, h.serving, h.opened, h.accepted, h.bound, horder, ?_, fun x hx => ?_,
      fun c hc => ?_, h.now⟩
    · rw [h.queue, Worker.awaited, hcommands]
      rfl
    · rcases mem_enqueue.mp hx with rfl | hold
      · obtain ⟨_, hx, hlater⟩ := h.sent _ (hcommands ▸ List.mem_cons_self)
        cases hx
        exact hlater
      · exact h.timely x hold
    · exact h.sent c (hcommands ▸ List.mem_cons_of_mem _ hc)
  | stops rest hidle hcommands =>
    obtain ⟨_, hstop, -⟩ := h.sent .stop (hcommands ▸ List.mem_cons_self)
    cases hstop

/-! ### The clock of the worker -/

theorem limit_of_nil {target : Duration} (hqueue : w.queue = []) : limit w target = target := by
  simp [limit, Worker.nextDue?, hqueue]

theorem limit_of_cons {target : Duration} {e : Entry τ} {rest : List (Entry τ)}
    (hserving : w.stopped = false) (hqueue : w.queue = e :: rest) :
    limit w target = if e.due ≤ target then e.due else target := by
  simp only [limit, Worker.nextDue?, hserving, hqueue, List.head?_cons, Option.map_some,
    Option.filter_some, Bool.false_eq_true, if_false, decide_eq_true_eq]
  split <;> rfl

theorem reach_le (w : Worker τ) (target instant : Duration) :
    reach w target instant ≤ limit w target := by
  unfold reach
  split
  · assumption
  · exact Duration.le_refl _

theorem reach_max (w : Worker τ) (target : Duration) : reach w target .max = limit w target := by
  unfold reach
  split
  · rename_i hle
    exact Duration.ext (Nat.le_antisymm hle (Duration.le_max _))
  · rfl

theorem Matches.limit_le (h : Matches w t) (target : Duration) :
    limit w target ≤ target ∧ ∀ e ∈ w.queue, limit w target ≤ e.due := by
  cases hqueue : w.queue with
  | nil =>
    rw [limit_of_nil hqueue]
    exact ⟨Duration.le_refl _, by simp⟩
  | cons first rest =>
    have hfirst : ∀ e ∈ first :: rest, first.due ≤ e.due := by
      intro e he
      rcases List.mem_cons.mp he with rfl | hrest
      · exact Duration.le_refl _
      · exact (List.pairwise_cons.mp (hqueue ▸ h.order)).1 e hrest
    rw [limit_of_cons h.serving hqueue]
    split
    · exact ⟨‹_›, hfirst⟩
    · rename_i hlater
      refine ⟨Duration.le_refl _, fun e he => ?_⟩
      exact Duration.le_trans (Nat.le_of_not_le hlater) (hfirst e he)

theorem Matches.limit_eq (h : Matches w t) (target : Duration) :
    limit w target = target ∨ ∃ e ∈ w.queue, limit w target = e.due := by
  cases hqueue : w.queue with
  | nil => exact Or.inl (limit_of_nil hqueue)
  | cons first rest =>
    rw [limit_of_cons h.serving hqueue]
    split
    · exact Or.inr ⟨first, List.mem_cons_self, rfl⟩
    · exact Or.inl rfl

/-- While the worker is blocked, its clock may move. -/
theorem Matches.passes (h : Matches w t) {target instant : Duration} (hcommands : w.commands = [])
    (hinstant : instant ≤ limit w target) : Matches (w.passUntil instant) t := by
  obtain ⟨-, hlimit⟩ := h.limit_le target
  refine ⟨h.taking, h.serving, h.opened, h.accepted, h.bound, h.order, h.queue, fun e he => ?_,
    fun c hc => ?_, ?_⟩
  · rw [Duration.le_def, Worker.passUntil, Duration.nanos_later]
    exact Nat.max_le.mpr ⟨h.timely e he, Duration.le_trans hinstant (hlimit e he)⟩
  · rw [Worker.passUntil, hcommands] at hc
    cases hc
  · exact Duration.le_trans h.now (Duration.le_later_left _ _)

/-- Where its clock may move no farther, the host's time has come, and nothing is
due on the timeline either. -/
theorem Matches.returns (h : Matches w t) {target : Duration} (hidle : w.IsIdle)
    (hcommands : w.commands = []) (hahead : w.now ≤ target)
    (hreached : ¬ w.now < limit w target) :
    t.takeDue? target = none ∧ Matches w (t.settle target) ∧ (t.settle target).now = w.now := by
  have hlater := hidle.later h.order
  have hqueue : t.queue = w.queue.filter w.keeps := by
    rw [h.queue, Worker.awaited, hcommands]
    rfl
  have hnow : w.now = target := by
    rcases h.limit_eq target with hlimit | ⟨e, he, hlimit⟩
    · exact Duration.ext (Nat.le_antisymm hahead (Nat.not_lt.mp (hlimit ▸ hreached)))
    · exact absurd (hlater e he) (hlimit ▸ hreached)
  have hsettled : (t.settle target).now = w.now := by
    rw [Timeline.settle, hnow]
    exact Duration.later_of_le (hnow ▸ h.now)
  refine ⟨?_, ?_, hsettled⟩
  · unfold Timeline.takeDue?
    split
    · rename_i e rest hfirst
      have he : e ∈ w.queue := (List.mem_filter.mp (hqueue ▸ hfirst ▸ List.mem_cons_self)).1
      exact if_neg (Nat.not_le_of_lt (hnow ▸ hlater e he))
    · rfl
  · exact ⟨h.taking, h.serving, h.opened, h.accepted, h.bound, h.order, h.queue, h.timely, h.sent,
      Nat.le_of_eq (congrArg Duration.nanos hsettled)⟩

end Play
end Lwm2mClient
