import Lwm2mClient.Timeline.WorkerScript
import Lwm2mClient.Proofs.Timeline.Waiting

/-!
A scheduler that is shut down, whoever uses it and in whatever order: the host, the tasks, and
the thread that starts them. From then on it accepts nothing, and to shut it down again
changes nothing. A virtual timeline starts nothing any more either. A worker learns of the
shutdown only behind all that was sent to it before, and until then starts whatever has fallen
due: what it still starts waited when it was shut down, and all that was due by then is
started, unless it is cancelled in time.
-/
namespace Lwm2mClient

open Timeline (Entry)

/-- The tasks received wait in the order of their due times, the command to stop is the last one,
and a worker that has received it keeps nothing. -/
structure Worker.Proper {τ : Type} (w : Worker τ) : Prop where
  order : Timeline.InDueOrder w.queue
  sent : ∃ sent : List (Entry τ),
    w.commands = sent.map .schedule ++ if w.closed && !w.stopped then [.stop] else []
  stopped : w.stopped = true → w.closed = true ∧ w.queue = [] ∧ w.commands = []

namespace Worker.Proper

variable {τ : Type} {w w' : Worker τ} {due? : Option (Entry τ)}

theorem empty : ({} : Worker τ).Proper := ⟨List.Pairwise.nil, ⟨[], rfl⟩, fun h => (by cases h)⟩

theorem schedule (h : w.Proper) (delay : Duration) (task : τ) :
    (w.schedule delay task).2.Proper := by
  unfold Worker.schedule
  split
  · exact h
  · rename_i hopen
    obtain ⟨sent, hsent⟩ := h.sent
    have hclosed : w.closed = false := Bool.eq_false_iff.mpr hopen
    refine ⟨h.order, ⟨sent ++ [⟨w.deadline delay, w.accepted + 1, task⟩], ?_⟩, fun hstopped => ?_⟩
    · simp [hsent, hclosed]
    · exact absurd (h.stopped hstopped).1 hopen

theorem cancel (h : w.Proper) (handle : TaskHandle) : (w.cancel handle).Proper := by
  cases handle with
  | refused => exact h
  | accepted number => exact ⟨h.order, h.sent, h.stopped⟩

theorem shutdown (h : w.Proper) : w.shutdown.Proper := by
  unfold Worker.shutdown
  split
  · exact h
  · rename_i hopen
    obtain ⟨sent, hsent⟩ := h.sent
    have hclosed : w.closed = false := Bool.eq_false_iff.mpr hopen
    have hserving : w.stopped = false :=
      Bool.eq_false_iff.mpr fun hstopped => absurd (h.stopped hstopped).1 hopen
    refine ⟨h.order, ⟨sent, ?_⟩, fun hstopped => absurd (h.stopped hstopped).1 hopen⟩
    simp [hsent, hclosed, hserving]

theorem passUntil (h : w.Proper) (instant : Duration) : (w.passUntil instant).Proper :=
  ⟨h.order, h.sent, h.stopped⟩

theorem commands_of_stop (h : w.Proper) {rest : List (Command τ)}
    (hcommands : w.commands = .stop :: rest) : w.closed = true ∧ rest = [] := by
  obtain ⟨sent, hsent⟩ := h.sent
  rw [hcommands] at hsent
  cases sent with
  | nil =>
    split at hsent
    · rename_i hending
      exact ⟨(Bool.and_eq_true_iff.mp hending).1, (List.cons.inj hsent).2⟩
    · cases hsent
  | cons e sent => cases hsent

theorem goes (h : w.Proper) (hserving : w.stopped = false)
    (hgoes : w.Goes due? w') : w'.Proper := by
  have horder := hgoes.inDueOrder h.order
  obtain ⟨sent, hsent⟩ := h.sent
  cases hgoes with
  | starts e rest hqueue hdue hkept =>
    exact ⟨horder, ⟨sent, hsent⟩, fun hstopped => (by cases hserving.symm.trans hstopped)⟩
  | skips e rest hqueue hdue hcancelled =>
    exact ⟨horder, ⟨sent, hsent⟩, fun hstopped => (by cases hserving.symm.trans hstopped)⟩
  | receives e rest hidle hcommands =>
    refine ⟨horder, ?_, fun hstopped => (by cases hserving.symm.trans hstopped)⟩
    rw [hcommands] at hsent
    cases sent with
    | nil =>
      split at hsent
      · cases hsent
      · cases hsent
    | cons first sent => exact ⟨sent, (List.cons.inj hsent).2⟩
  | stops rest hidle hcommands =>
    obtain ⟨hclosed, hrest⟩ := h.commands_of_stop hcommands
    exact ⟨horder, ⟨[], by simp [hrest]⟩, fun _ => ⟨hclosed, rfl, hrest⟩⟩

/-- A worker that takes no more has a command to receive until it stops. -/
theorem exists_move (h : w.Proper) (hclosed : w.closed = true) (hserving : w.stopped = false) :
    ∃ due? w', w.move? = some (due?, w') := by
  cases hmove : w.move? with
  | some moved => exact ⟨moved.1, moved.2, rfl⟩
  | none =>
    obtain ⟨sent, hsent⟩ := h.sent
    rw [(isIdle_of_blocked hserving hmove).2, hclosed, hserving] at hsent
    simp at hsent

/-- A move drops nothing that is due. -/
theorem kept (h : w.Proper) (hmove : w.move? = some (due?, w')) {e : Entry τ}
    (he : e ∈ (Scheduler.worker w).live) (hdue : e.due ≤ w.now) :
    due? = some e ∨ e ∈ (Scheduler.worker w').live := by
  obtain ⟨hserving, hgoes⟩ := goes_of_move? hmove
  cases hstopped : w'.stopped with
  | false => exact ((Scheduler.handsOut_move? hmove).kept hstopped).2 e he |>.symm
  | true =>
    cases hgoes with
    | stops rest hidle hcommands =>
      -- what was received is due later then, and nothing was sent behind the command to stop
      obtain ⟨-, hrest⟩ := h.commands_of_stop hcommands
      rcases (Scheduler.mem_live_worker.mp he).1 with hqueue | hsent
      · exact absurd hdue (Nat.not_le_of_lt (hidle.later h.order e hqueue))
      · rw [hcommands, hrest] at hsent
        cases List.mem_singleton.mp hsent
    | _ => cases hserving.symm.trans hstopped

end Worker.Proper

namespace Scheduler

variable {τ : Type}

/-- What somebody does with a scheduler. -/
inductive Use (τ : Type) where
  | schedule (delay : Duration) (task : τ)
  | cancel (handle : TaskHandle)
  | shutdown
  /-- The next task is started that a virtual timeline has due by some time, or a worker makes a
  move. -/
  | serve (target : Duration)
  /-- The clock moves to an instant, unless it is there or later. -/
  | pass (instant : Duration)

/-- A scheduler, and the tasks that it has started, the latest first. -/
structure Used (τ : Type) where
  scheduler : Scheduler τ
  started : List (Entry τ) := []

/-- The task that is started next, if any, and what is left. -/
def serve? (s : Scheduler τ) (target : Duration) : Option (Option (Entry τ) × Scheduler τ) :=
  match s with
  | .timeline t => (t.takeDue? target).map fun (e, t) => (some e, .timeline t)
  | .worker w => w.move?.map fun (due?, w) => (due?, .worker w)

def pass (s : Scheduler τ) (instant : Duration) : Scheduler τ :=
  match s with
  | .timeline t => .timeline (t.settle instant)
  | .worker w => .worker (w.passUntil instant)

namespace Used

def step (s : Used τ) : Use τ → Used τ
  | .schedule delay task => { s with scheduler := (s.scheduler.schedule delay task).2 }
  | .cancel handle => { s with scheduler := s.scheduler.cancel handle }
  | .shutdown => { s with scheduler := s.scheduler.shutdown }
  | .serve target =>
    match s.scheduler.serve? target with
    | some (due?, scheduler) => { scheduler := scheduler, started := due?.toList ++ s.started }
    | none => s
  | .pass instant => { s with scheduler := s.scheduler.pass instant }

def run (s : Used τ) (uses : List (Use τ)) : Used τ := uses.foldl step s

theorem step_serve (s : Used τ) (target : Duration) : s.step (.serve target) = s ∨
    ∃ due? scheduler, s.scheduler.serve? target = some (due?, scheduler) ∧
      s.step (.serve target) =
        { scheduler := scheduler, started := due?.toList ++ s.started } := by
  cases hserve : s.scheduler.serve? target with
  | none =>
    left
    simp only [step, hserve]
  | some served =>
    obtain ⟨due?, scheduler⟩ := served
    right
    refine ⟨due?, scheduler, rfl, ?_⟩
    simp only [step, hserve]

end Used

/-! ### A scheduler that accepts nothing -/

/-- Whether a scheduler takes no more tasks. A virtual timeline has dropped those that waited by
then. -/
def IsClosed : Scheduler τ → Prop
  | .timeline t => t.shutDown = true ∧ t.queue = []
  | .worker w => w.closed = true

/-- What a worker receives is in order. -/
def Proper : Scheduler τ → Prop
  | .timeline _ => True
  | .worker w => w.Proper

section Closed

variable {s : Scheduler τ}

theorem isClosed_shutdown (s : Scheduler τ) : s.shutdown.IsClosed := by
  cases s with
  | timeline t => exact ⟨rfl, rfl⟩
  | worker w =>
    change w.shutdown.closed = true
    unfold Worker.shutdown
    split
    · assumption
    · rfl

theorem IsClosed.schedule (h : s.IsClosed) (delay : Duration) (task : τ) :
    s.schedule delay task = (.refused, s) := by
  cases s with
  | timeline t =>
    have hrefused : t.schedule delay task = (.refused, t) := if_pos h.1
    rw [Scheduler.schedule, hrefused]
  | worker w =>
    have hrefused : w.schedule delay task = (.refused, w) := if_pos h
    rw [Scheduler.schedule, hrefused]

theorem IsClosed.shutdown (h : s.IsClosed) : s.shutdown = s := by
  cases s with
  | timeline t =>
    obtain ⟨hshut, hqueue⟩ := h
    rw [Scheduler.shutdown, Timeline.shutdown, ← hshut, ← hqueue]
  | worker w => exact congrArg Scheduler.worker (if_pos h)

theorem IsClosed.cancel (h : s.IsClosed) (handle : TaskHandle) : (s.cancel handle).IsClosed := by
  cases handle with
  | refused => exact (cancel_refused s).symm ▸ h
  | accepted number =>
    cases s with
    | timeline t =>
      obtain ⟨hshut, hqueue⟩ := h
      exact ⟨hshut, by simp [Timeline.cancel, hqueue]⟩
    | worker w => exact h

theorem IsClosed.pass (h : s.IsClosed) (instant : Duration) : (s.pass instant).IsClosed := by
  cases s with
  | timeline t => exact h
  | worker w => exact h

/-- What is done with a worker that accepts nothing, if it can be done at all. -/
theorem IsClosed.serve? (h : s.IsClosed) {target : Duration} {due? : Option (Entry τ)}
    {s' : Scheduler τ} (hserve : s.serve? target = some (due?, s')) :
    ∃ w w', s = .worker w ∧ s' = .worker w' ∧ w.move? = some (due?, w') := by
  cases s with
  | timeline t =>
    have hnone : t.takeDue? target = none := by
      unfold Timeline.takeDue?
      rw [h.2]
    rw [Scheduler.serve?, hnone] at hserve
    cases hserve
  | worker w =>
    obtain ⟨⟨due?, w'⟩, hmove, heq⟩ := Option.map_eq_some_iff.mp hserve
    cases heq
    exact ⟨w, w', rfl, rfl, hmove⟩

end Closed

section Proper

variable {s : Used τ}

theorem Proper.serve? {scheduler scheduler' : Scheduler τ} {target : Duration}
    {due? : Option (Entry τ)} (h : scheduler.Proper)
    (hserve : scheduler.serve? target = some (due?, scheduler')) : scheduler'.Proper := by
  cases scheduler with
  | timeline t =>
    obtain ⟨taken, -, heq⟩ := Option.map_eq_some_iff.mp hserve
    cases heq
    exact trivial
  | worker w =>
    obtain ⟨moved, hmove, heq⟩ := Option.map_eq_some_iff.mp hserve
    cases heq
    obtain ⟨hserving, hgoes⟩ := Worker.goes_of_move? hmove
    exact Worker.Proper.goes h hserving hgoes

theorem Proper.step (h : s.scheduler.Proper) (use : Use τ) : (s.step use).scheduler.Proper := by
  obtain ⟨scheduler, started⟩ := s
  cases use with
  | serve target =>
    rcases Used.step_serve ⟨scheduler, started⟩ target
      with hsame | ⟨due?, scheduler', hserve, hstep⟩
    · rw [hsame]
      exact h
    · rw [hstep]
      exact h.serve? hserve
  | schedule delay task =>
    cases scheduler with
    | timeline t => exact trivial
    | worker w => exact Worker.Proper.schedule h delay task
  | cancel handle =>
    cases scheduler with
    | timeline t => exact trivial
    | worker w => exact Worker.Proper.cancel h handle
  | shutdown =>
    cases scheduler with
    | timeline t => exact trivial
    | worker w => exact Worker.Proper.shutdown h
  | pass instant =>
    cases scheduler with
    | timeline t => exact trivial
    | worker w => exact Worker.Proper.passUntil h instant

theorem Proper.run (h : s.scheduler.Proper) (uses : List (Use τ)) :
    (s.run uses).scheduler.Proper := by
  induction uses generalizing s with
  | nil => exact h
  | cons use rest ih => exact ih (h.step use)

end Proper

namespace Used

/-- What holds after the shutdown of a scheduler `since`, once some tasks have been started
since. -/
structure Draining (since s : Used τ) (late : List (Entry τ)) : Prop where
  closed : s.scheduler.IsClosed
  proper : s.scheduler.Proper
  clock : since.scheduler.clock ≤ s.scheduler.clock
  started : s.started = late ++ since.started
  live : ∀ e ∈ s.scheduler.live, e ∈ since.scheduler.live
  waited : ∀ e ∈ late, e ∈ since.scheduler.live ∧ e.due ≤ s.scheduler.clock
  dropped : ∀ t, s.scheduler = .timeline t → late = []
  kept : ∀ w, s.scheduler = .worker w →
    ∀ e ∈ since.scheduler.live, e.due ≤ since.scheduler.clock →
    e ∈ late ∨ e.number ∈ w.cancelled ∨ e ∈ s.scheduler.live

variable {since s : Used τ} {late : List (Entry τ)}

theorem draining_shutdown (hproper : since.scheduler.Proper) :
    Draining since (since.step .shutdown) [] := by
  refine ⟨isClosed_shutdown _, hproper.step .shutdown, ?_, rfl,
    (handsOut_shutdown _).live, ?_, ?_, ?_⟩
  · obtain ⟨scheduler, started⟩ := since
    cases scheduler with
    | timeline t => exact Duration.le_refl _
    | worker w =>
      refine Nat.le_of_eq (congrArg Duration.nanos ?_)
      simp only [Used.step, Scheduler.shutdown, Scheduler.clock, Worker.shutdown]
      split <;> rfl
  · intro e he
    cases he
  · exact fun t ht => rfl
  · intro w hw e he hdue
    obtain ⟨scheduler, started⟩ := since
    cases scheduler with
    | timeline t => cases hw
    | worker w₀ => exact Or.inr (Or.inr (mem_live_shutdown.mpr he))

/-- What the scheduler accepted before is used up by nothing but its moves. -/
theorem Draining.serve (h : Draining since s late) (target : Duration) :
    ∃ late', Draining since (s.step (.serve target)) late' := by
  rcases step_serve s target with hsame | ⟨due?, scheduler, hserve, hstep⟩
  · exact ⟨late, hsame.symm ▸ h⟩
  · have hproper : (s.step (.serve target)).scheduler.Proper := h.proper.step _
    rw [hstep] at hproper ⊢
    obtain ⟨w, w', hw, rfl, hmove⟩ := h.closed.serve? hserve
    obtain ⟨scheduler, started⟩ := s
    cases hw
    have hhands := handsOut_move? hmove
    obtain ⟨hserving, hgoes⟩ := Worker.goes_of_move? hmove
    obtain ⟨hnow, hcancelled, hclosed⟩ := hgoes.steady
    have hclock : since.scheduler.clock ≤ w'.now := hnow.symm ▸ h.clock
    refine ⟨due?.toList ++ late, hclosed.trans h.closed, hproper, hclock, ?_, ?_, ?_, ?_, ?_⟩
    · rw [List.append_assoc, ← h.started]
    · exact fun e he => h.live e (hhands.live e he)
    · intro e he
      change _ ∧ e.due ≤ w'.now
      rw [hnow]
      rcases List.mem_append.mp he with hnew | hold
      · obtain rfl := Option.mem_toList.mp hnew
        exact ⟨h.live e (hhands.taken e rfl), hgoes.due_le⟩
      · exact h.waited e hold
    · intro t ht
      cases ht
    · intro w₁ hw₁ e he hdue
      cases hw₁
      rw [hcancelled]
      rcases h.kept w rfl e he hdue with hlate | hcancel | hlive
      · exact Or.inl (List.mem_append_right _ hlate)
      · exact Or.inr (Or.inl hcancel)
      · rcases Worker.Proper.kept h.proper hmove hlive (Duration.le_trans hdue h.clock)
          with rfl | hlive'
        · exact Or.inl (List.mem_append_left _ (Option.mem_toList.mpr rfl))
        · exact Or.inr (Or.inr hlive')

theorem Draining.cancel (h : Draining since s late) (handle : TaskHandle) :
    Draining since (s.step (.cancel handle)) late := by
  have hproper : (s.step (.cancel handle)).scheduler.Proper := h.proper.step _
  cases handle with
  | refused =>
    have hsame : s.step (.cancel .refused) = s := by rw [step, cancel_refused]
    rw [hsame]
    exact h
  | accepted number =>
    obtain ⟨scheduler, started⟩ := s
    have hclock : (scheduler.cancel (.accepted number)).clock = scheduler.clock := by
      cases scheduler <;> rfl
    refine ⟨h.closed.cancel _, hproper, hclock.symm ▸ h.clock, h.started, ?_,
      hclock.symm ▸ h.waited, ?_, ?_⟩
    · exact fun e he => h.live e (mem_live_cancel.mp he).1
    · intro t ht
      cases scheduler with
      | timeline t₀ => exact h.dropped t₀ rfl
      | worker w => cases ht
    · intro w hw e he hdue
      cases scheduler with
      | timeline t => cases hw
      | worker w₀ =>
        cases hw
        rcases h.kept w₀ rfl e he hdue with hlate | hcancelled | hlive
        · exact Or.inl hlate
        · exact Or.inr (Or.inl (List.mem_cons_of_mem _ hcancelled))
        · by_cases hnumber : e.number = number
          · exact Or.inr (Or.inl (hnumber ▸ List.mem_cons_self))
          · exact Or.inr (Or.inr (mem_live_cancel.mpr ⟨hlive, hnumber⟩))

theorem Draining.pass (h : Draining since s late) (instant : Duration) :
    Draining since (s.step (.pass instant)) late := by
  have hproper : (s.step (.pass instant)).scheduler.Proper := h.proper.step _
  obtain ⟨scheduler, started⟩ := s
  have hclock : scheduler.clock ≤ (scheduler.pass instant).clock := by
    cases scheduler <;> exact Duration.le_later_left _ _
  refine ⟨h.closed.pass _, hproper, Duration.le_trans h.clock hclock, h.started, ?_, ?_, ?_, ?_⟩
  · cases scheduler <;> exact h.live
  · exact fun e he => ⟨(h.waited e he).1, Duration.le_trans (h.waited e he).2 hclock⟩
  · intro t ht
    cases scheduler with
    | timeline t₀ => exact h.dropped t₀ rfl
    | worker w => cases ht
  · intro w hw
    cases scheduler with
    | timeline t => cases hw
    | worker w₀ =>
      cases hw
      exact h.kept w₀ rfl

theorem Draining.step (h : Draining since s late) (use : Use τ) :
    ∃ late', Draining since (s.step use) late' := by
  cases use with
  | schedule delay task =>
    have hsame : s.step (.schedule delay task) = s := by rw [Used.step, h.closed.schedule]
    exact ⟨late, hsame.symm ▸ h⟩
  | cancel handle => exact ⟨late, h.cancel handle⟩
  | shutdown =>
    have hsame : s.step .shutdown = s := by rw [Used.step, h.closed.shutdown]
    exact ⟨late, hsame.symm ▸ h⟩
  | serve target => exact h.serve target
  | pass instant => exact ⟨late, h.pass instant⟩

theorem Draining.run (h : Draining since s late) (uses : List (Use τ)) :
    ∃ late', Draining since (s.run uses) late' := by
  induction uses generalizing s late with
  | nil => exact ⟨late, h⟩
  | cons use rest ih =>
    obtain ⟨late', h'⟩ := h.step use
    exact ih h'

/-- Once the tasks that waited were dropped, no task is started any more. -/
theorem Draining.step_of_isShut (h : Draining since s late) (hshut : s.scheduler.isShut = true)
    (use : Use τ) : (s.step use).started = s.started ∧ (s.step use).scheduler.isShut = true := by
  cases use with
  | schedule delay task => exact ⟨rfl, (isShut_schedule _ _ _).trans hshut⟩
  | cancel handle => exact ⟨rfl, (isShut_cancel _ _).trans hshut⟩
  | shutdown => exact ⟨rfl, (congrArg isShut h.closed.shutdown).trans hshut⟩
  | serve target =>
    rcases step_serve s target with hsame | ⟨due?, scheduler, hserve, -⟩
    · rw [hsame]
      exact ⟨rfl, hshut⟩
    · obtain ⟨w, w', hw, rfl, hmove⟩ := h.closed.serve? hserve
      rw [hw] at hshut
      cases (Worker.goes_of_move? hmove).1.symm.trans hshut
  | pass instant =>
    obtain ⟨scheduler, started⟩ := s
    cases scheduler <;> exact ⟨rfl, hshut⟩

theorem Draining.run_of_isShut (h : Draining since s late) (hshut : s.scheduler.isShut = true)
    (uses : List (Use τ)) : (s.run uses).started = s.started := by
  induction uses generalizing s late with
  | nil => rfl
  | cons use rest ih =>
    obtain ⟨hstarted, hshut'⟩ := h.step_of_isShut hshut use
    obtain ⟨late', h'⟩ := h.step use
    exact (ih h' hshut').trans hstarted

/-- Nothing is left to start then: whatever is still in a queue was cancelled. -/
theorem Draining.live_of_isShut (h : Draining since s late) (hshut : s.scheduler.isShut = true)
    {e : Entry τ} : e ∉ s.scheduler.live := by
  intro he
  obtain ⟨scheduler, started⟩ := s
  cases scheduler with
  | timeline t =>
    obtain ⟨-, hqueue⟩ := h.closed
    change e ∈ t.queue at he
    rw [hqueue] at he
    cases he
  | worker w =>
    obtain ⟨-, hqueue, hcommands⟩ := Worker.Proper.stopped h.proper hshut
    rcases (mem_live_worker.mp he).1 with hwaits | hsent
    · rw [hqueue] at hwaits
      cases hwaits
    · rw [hcommands] at hsent
      cases hsent

/-- A worker that was shut down comes to the command to stop. -/
theorem Draining.stops (h : Draining since s late) :
    ∃ moves, (s.run (List.replicate moves (.serve .zero))).scheduler.isShut = true := by
  obtain ⟨scheduler, started⟩ := s
  cases scheduler with
  | timeline t => exact ⟨0, h.closed.1⟩
  | worker w =>
    induction hload : w.load using Nat.strongRecOn generalizing w started late with
    | ind load ih =>
      cases hstopped : w.stopped with
      | true => exact ⟨0, hstopped⟩
      | false =>
        obtain ⟨due?, w', hmove⟩ := Worker.Proper.exists_move h.proper h.closed hstopped
        have hstep : Used.step ⟨.worker w, started⟩ (.serve .zero) =
            ⟨.worker w', due?.toList ++ started⟩ := by
          simp only [Used.step, Scheduler.serve?, hmove, Option.map_some]
        obtain ⟨late', h'⟩ := h.step (.serve .zero)
        rw [hstep] at h'
        have hless : w'.load < load := hload ▸ (Worker.goes_of_move? hmove).2.load_lt
        obtain ⟨moves, hmoves⟩ := ih _ hless _ w' h' rfl
        refine ⟨moves + 1, ?_⟩
        rw [List.replicate_succ, Used.run, List.foldl_cons, hstep]
        exact hmoves

/-- What becomes of a scheduler `since` that is shut down, whatever is done with it until it is
`s`. -/
structure ShutDown (since s : Used τ) : Prop where
  /-- Every task is refused, with a handle that counts as cancelled, and changes nothing. -/
  refuses : ∀ delay task,
    s.scheduler.schedule delay task = (.refused, s.scheduler) ∧
      s.scheduler.isCancelled .refused = true
  again : s.scheduler.shutdown = s.scheduler
  /-- A virtual timeline has started nothing since. A worker has started what it had already been
  sent and was due before it came to the command to stop, among it all that was due at the
  shutdown and was not cancelled meanwhile. -/
  drains : ∃ late, s.started = late ++ since.started ∧
    (∀ t, s.scheduler = .timeline t → late = []) ∧
    (∀ e ∈ late, e ∈ since.scheduler.live ∧ e.due ≤ s.scheduler.clock) ∧
    ∀ w, s.scheduler = .worker w → w.stopped = true →
      ∀ e ∈ since.scheduler.live, e.due ≤ since.scheduler.clock → e ∈ late ∨
        e.number ∈ w.cancelled
  /-- A worker that is served stops in the end. -/
  stops : ∃ moves, (s.run (List.replicate moves (.serve .zero))).scheduler.isShut = true
  /-- Nothing is started from then on. -/
  stopped : s.scheduler.isShut = true → ∀ more, (s.run more).started = s.started

theorem Draining.shutDown (h : Draining since s late) : ShutDown since s where
  refuses delay task := by
    refine ⟨h.closed.schedule delay task, ?_⟩
    cases s.scheduler <;> rfl
  again := h.closed.shutdown
  drains := by
    refine ⟨late, h.started, h.dropped, h.waited, fun w hw hstopped e he hdue => ?_⟩
    have hshut : s.scheduler.isShut = true := hw ▸ hstopped
    rcases h.kept w hw e he hdue with hlate | hcancelled | hlive
    · exact Or.inl hlate
    · exact Or.inr hcancelled
    · exact absurd hlive (h.live_of_isShut hshut)
  stops := h.stops
  stopped hshut more := h.run_of_isShut hshut more

/-- A scheduler was made just now, has been used, is shut down, and is used further. -/
theorem shutDown_of_run {scheduler : Scheduler τ}
    (hfresh : scheduler = .timeline {} ∨ scheduler = .worker {}) (before after : List (Use τ)) :
    ShutDown (run ⟨scheduler, []⟩ before)
      (run ⟨scheduler, []⟩ (before ++ .shutdown :: after)) := by
  have hproper : scheduler.Proper := by
    rcases hfresh with rfl | rfl
    · exact trivial
    · exact Worker.Proper.empty
  have hrun : run ⟨scheduler, []⟩ (before ++ .shutdown :: after) =
      ((run ⟨scheduler, []⟩ before).step .shutdown).run after := by
    rw [run, List.foldl_append, List.foldl_cons]
    rfl
  have hbefore : (run ⟨scheduler, []⟩ before).scheduler.Proper :=
    Proper.run (s := ⟨scheduler, []⟩) hproper before
  obtain ⟨late, hdraining⟩ := (draining_shutdown hbefore).run after
  rw [hrun]
  exact hdraining.shutDown

/-- A worker has started a task, which hands over a further one. -/
def backlog : List (Use String) :=
  [.schedule .zero "first", .serve .zero, .serve .zero, .schedule .zero "second"]

theorem shutDown_with_backlog :
    (run ⟨.worker {}, []⟩ backlog).started.map (·.task) = ["first"] ∧
      ShutDown (run ⟨.worker {}, []⟩ backlog)
        (run ⟨.worker {}, []⟩
          (backlog ++ [.shutdown, .serve .zero, .serve .zero, .serve .zero])) :=
  ⟨by decide +kernel, shutDown_of_run (Or.inr rfl) backlog _⟩

/-- The task that was handed over is started after the shutdown. -/
theorem backlog_started_after_shutdown :
    ¬ (∀ (before after : List (Use String)),
      (run ⟨.worker {}, []⟩ (before ++ .shutdown :: after)).started =
        (run ⟨.worker {}, []⟩ before).started) ∧
    WorkerScript.run 20
      [.schedule "a" .zero [.schedule "b" .zero [] false, .shutdown] false, .wait "b"] =
      ([.handle false, .flag true], ["a", "b"]) := by
  refine ⟨fun hnothing => ?_, by decide +kernel⟩
  have hsame := congrArg (List.map (·.task)) (hnothing backlog [.serve .zero, .serve .zero])
  revert hsame
  decide +kernel

end Used
end Scheduler
end Lwm2mClient
