import Lwm2mClient.Proofs.Timeline.Ordering

/-!
Calls that move the clock of a timeline, with tasks that do something. What a task does
depends on what it sees and on what the tasks remember; it may hand over other tasks, cancel
some, shut the timeline down or fail, and it does not move the clock. To move the clock by two
spans one after the other is then the same as to move it by both at once: at the stop in
between nothing is left that is due by then, and whoever looks at the clock is a task, for
which it shows the due time in either case.
-/
namespace Lwm2mClient

namespace Timeline

/-- What a task does from a moment on, and what the tasks remember when it has ended or failed. -/
inductive Body (τ σ : Type) where
  | ended (memory : σ)
  | failed (memory : σ)
  | schedule (delay : Duration) (task : τ) (next : TaskHandle → Body τ σ)
  | cancel (handle : TaskHandle) (next : Body τ σ)
  | shutdown (next : Body τ σ)
  /-- It looks at the clock, at the time that the tasks have still to wait, or at a handle. -/
  | now (next : Duration → Body τ σ)
  | pending (next : List Duration → Body τ σ)
  | isCancelled (handle : TaskHandle) (next : Bool → Body τ σ)

/-- A task that was started, and what the clock showed then. -/
structure Started (τ : Type) where
  clock : Duration
  entry : Entry τ

/-- A timeline with what its tasks remember and the tasks that were started, the latest first. -/
structure Staffed (τ σ : Type) where
  timeline : Timeline τ
  memory : σ
  starts : List (Started τ) := []

variable {τ σ : Type}

/-- The timeline that a task leaves, and what is remembered then. -/
def Body.run : Body τ σ → Timeline τ → Timeline τ × σ
  | ended memory, t | failed memory, t => (t, memory)
  | schedule delay task next, t => let (handle, t) := t.schedule delay task; run (next handle) t
  | cancel handle next, t => run next (t.cancel handle)
  | shutdown next, t => run next t.shutdown
  | now next, t => run (next t.now) t
  | pending next, t => run (next t.pending) t
  | isCancelled handle next, t => run (next (t.isCancelled handle)) t

namespace Staffed

/-- The next task that is due by a time is started, and does what it does. -/
def start? (conduct : τ → σ → Body τ σ) (target : Duration)
    (s : Staffed τ σ) : Option (Staffed τ σ) :=
  (s.timeline.takeDue? target).map fun (e, t) =>
    let (left, memory) := (conduct e.task s.memory).run t
    ⟨left, memory, ⟨t.now, e⟩ :: s.starts⟩

/-- The clock moves to a time, and on the way the tasks that are due are started one after the
other, a number of them in all. Where there is always another one, no end is reached. -/
inductive MovesTo (conduct : τ → σ → Body τ σ) (target : Duration) :
    Staffed τ σ → Nat → Staffed τ σ → Prop
  | rests {s : Staffed τ σ} (hnone : s.timeline.takeDue? target = none) :
    MovesTo conduct target s 0 { s with timeline := s.timeline.settle target }
  | starts {s s' s'' : Staffed τ σ} {started : Nat} (hstart : s.start? conduct target = some s')
      (hrest : MovesTo conduct target s' started s'') : MovesTo conduct target s (started + 1) s''

/-- A call that moves the clock by a span comes to its end, and tells how many tasks it has
started. -/
def Advances (conduct : τ → σ → Body τ σ) (span : Duration) (s : Staffed τ σ) (started : Nat)
    (s' : Staffed τ σ) : Prop :=
  ∃ target, s.timeline.now.add? span = some target ∧ MovesTo conduct target s started s'

end Staffed

/-! ### A stop on the way -/

variable {t t' : Timeline τ} {e : Entry τ} {mid target : Duration}

theorem takeDue?_of_le (h : t.takeDue? mid = some (e, t')) (hle : mid ≤ target) :
    t.takeDue? target = some (e, t') := by
  obtain ⟨rest, hqueue, hdue, rfl⟩ := takeDue?_eq_some_iff.mp h
  exact takeDue?_eq_some_iff.mpr ⟨rest, hqueue, Duration.le_trans hdue hle, rfl⟩

/-- The clock moves to where it would have moved without a stop by which nothing is due. -/
theorem takeDue?_settle (hnone : t.takeDue? mid = none) :
    (t.settle mid).takeDue? target = t.takeDue? target := by
  unfold takeDue? at hnone ⊢
  unfold settle
  cases hqueue : t.queue with
  | nil => simp only
  | cons e rest =>
    simp only [hqueue] at hnone ⊢
    split at hnone
    · cases hnone
    · rename_i hlater
      rw [Duration.later_later (Nat.le_of_not_le hlater)]

theorem settle_settle (t : Timeline τ) (hle : mid ≤ target) :
    (t.settle mid).settle target = t.settle target :=
  congrArg (fun now => { t with now := now }) (Duration.later_later hle)

theorem takeDue?_eq_none_of_le (h : t.takeDue? target = none)
    (hle : mid ≤ target) : t.takeDue? mid = none := by
  cases htake : t.takeDue? mid with
  | none => rfl
  | some taken =>
    rw [takeDue?_of_le htake hle] at h
    cases h

theorem Body.run_now (b : Body τ σ) (t : Timeline τ) : (b.run t).1.now = t.now := by
  induction b generalizing t with
  | ended memory => rfl
  | failed memory => rfl
  | schedule delay task next ih => exact (ih _ _).trans (schedule_now t delay task)
  | cancel handle next ih => exact (ih _).trans (cancel_now t handle)
  | shutdown next ih => exact ih t.shutdown
  | now next ih => exact ih _ t
  | pending next ih => exact ih _ t
  | isCancelled handle next ih => exact ih _ t

namespace Staffed

variable {conduct : τ → σ → Body τ σ} {s s' s'' : Staffed τ σ} {started started' : Nat}

theorem start?_of_le (h : s.start? conduct mid = some s') (hle : mid ≤ target) :
    s.start? conduct target = some s' := by
  obtain ⟨⟨e, t⟩, htake, rfl⟩ := Option.map_eq_some_iff.mp h
  rw [start?, takeDue?_of_le htake hle]
  rfl

theorem start?_settle (hnone : s.timeline.takeDue? mid = none) :
    ({ s with timeline := s.timeline.settle mid } : Staffed τ σ).start? conduct target =
      s.start? conduct target := by
  simp only [start?, takeDue?_settle hnone]

/-- While tasks are started by a time, the clock does not go past it. -/
theorem now_le_of_start? (hnow : s.timeline.now ≤ target)
    (h : s.start? conduct target = some s') : s'.timeline.now ≤ target := by
  obtain ⟨⟨e, t⟩, htake, rfl⟩ := Option.map_eq_some_iff.mp h
  obtain ⟨rest, -, hdue, rfl⟩ := takeDue?_eq_some_iff.mp htake
  dsimp only
  rw [Body.run_now]
  exact Duration.later_le hnow hdue

theorem MovesTo.now (h : MovesTo conduct target s started s') (hnow : s.timeline.now ≤ target) :
    s'.timeline.now = target := by
  induction h with
  | rests _ => exact Duration.later_of_le hnow
  | starts hstart _ ih => exact ih (now_le_of_start? hnow hstart)

/-- Every call that comes to an end comes to one end. -/
theorem MovesTo.unique (h : MovesTo conduct target s started s')
    (h' : MovesTo conduct target s started' s'') : started = started' ∧ s' = s'' := by
  induction h generalizing started' with
  | rests hnone =>
    cases h' with
    | rests _ => exact ⟨rfl, rfl⟩
    | starts hstart _ =>
      rw [start?, hnone] at hstart
      cases hstart
  | starts hstart _ ih =>
    cases h' with
    | rests hnone =>
      rw [start?, hnone] at hstart
      cases hstart
    | starts hstart' hrest' =>
      cases hstart.symm.trans hstart'
      obtain ⟨rfl, rfl⟩ := ih hrest'
      exact ⟨rfl, rfl⟩

/-- The stop on the way to a time at which nothing more is due by an earlier one. -/
def stopAt (s : Staffed τ σ) (mid : Duration) : Staffed τ σ :=
  { s with timeline := s.timeline.settle mid }

/-- Where nothing is due by the time of a stop, it makes no difference. -/
theorem movesTo_stopAt_iff (hnone : s.timeline.takeDue? mid = none) (hle : mid ≤ target) :
    MovesTo conduct target (s.stopAt mid) started s' ↔ MovesTo conduct target s started s' := by
  have hstart : (s.stopAt mid).start? conduct target = s.start? conduct target :=
    start?_settle hnone
  have hrests : (s.stopAt mid).timeline.takeDue? target = s.timeline.takeDue? target :=
    takeDue?_settle hnone
  have hend : { s.stopAt mid with timeline := (s.stopAt mid).timeline.settle target } =
      s.stopAt target := by
    unfold stopAt
    rw [settle_settle _ hle]
  constructor
  · intro h
    cases h with
    | rests hlater =>
      rw [hend]
      exact .rests (hrests ▸ hlater)
    | starts hnext hrest => exact .starts (hstart ▸ hnext) hrest
  · intro h
    cases h with
    | rests hlater =>
      have hstopped : MovesTo conduct target (s.stopAt mid) 0 _ := .rests (hrests.trans hlater)
      rwa [hend] at hstopped
    | starts hnext hrest => exact .starts (hstart.trans hnext) hrest

/-- On the way to a time the clock comes to every time before. -/
theorem MovesTo.split (h : MovesTo conduct target s started s') (hle : mid ≤ target) :
    ∃ stop before after, MovesTo conduct mid s before stop ∧
      MovesTo conduct target stop after s' ∧
      before + after = started := by
  induction h with
  | @rests s hnone =>
    have hnone' := takeDue?_eq_none_of_le hnone hle
    exact ⟨_, 0, 0, .rests hnone', (movesTo_stopAt_iff hnone' hle).mpr (.rests hnone), rfl⟩
  | @starts s s' s'' started hstart hrest ih =>
    cases htake : s.timeline.takeDue? mid with
    | none =>
      exact ⟨_, 0, started + 1, .rests htake,
        (movesTo_stopAt_iff htake hle).mpr (.starts hstart hrest), Nat.zero_add _⟩
    | some taken =>
      -- What is due by the earlier time is the task that was started.
      obtain ⟨stop, before, after, hbefore, hafter, hsum⟩ := ih
      have hfirst : s.start? conduct mid = some s' := by
        rw [start?, takeDue?_of_le htake hle] at hstart
        rw [start?, htake, hstart]
      exact ⟨stop, before + 1, after, .starts hfirst hbefore, hafter,
        by rw [← hsum, Nat.add_right_comm]⟩

/-- A move of the clock after another one is one move. -/
theorem MovesTo.join (h : MovesTo conduct mid s started s')
    (h' : MovesTo conduct target s' started' s'') (hle : mid ≤ target) :
    MovesTo conduct target s (started + started') s'' := by
  induction h with
  | rests hnone =>
    rw [Nat.zero_add]
    exact (movesTo_stopAt_iff hnone hle).mp h'
  | starts hstart _ ih =>
    rw [Nat.add_right_comm]
    exact .starts (start?_of_le hstart hle) (ih h')

theorem Advances.unique {span : Duration} (h : Advances conduct span s started s')
    (h' : Advances conduct span s started' s'') : started = started' ∧ s' = s'' := by
  obtain ⟨target, htarget, hmoves⟩ := h
  obtain ⟨target', htarget', hmoves'⟩ := h'
  cases htarget.symm.trans htarget'
  exact hmoves.unique hmoves'

/-- A call that moves the clock by two spans at once is one by each of them, as long as the clock
can show where it is to end. -/
theorem advances_iff_of_le {a b : Duration}
    (hrange : s.timeline.now.nanos + a.nanos + b.nanos ≤ Duration.maxNanos) :
    Advances conduct (a.saturatingAdd b) s started s' ↔ ∃ stop before after,
      Advances conduct a s before stop ∧ Advances conduct b stop after s' ∧
      before + after = started := by
  have hsum : (a.saturatingAdd b).nanos = a.nanos + b.nanos :=
    Duration.nanos_saturatingAdd_of_le (by omega)
  constructor
  · rintro ⟨target, htarget, hmoves⟩
    have hend := Duration.nanos_of_add? htarget
    let mid : Duration := ⟨s.timeline.now.nanos + a.nanos, by omega⟩
    have hle : mid ≤ target := by
      rw [Duration.le_def, hend, hsum]
      exact Nat.add_le_add_left (Nat.le_add_right _ _) _
    obtain ⟨stop, before, after, hbefore, hafter, hcount⟩ := hmoves.split hle
    have hnow : stop.timeline.now = mid := hbefore.now (Nat.le_add_right _ _)
    refine ⟨stop, before, after, ⟨mid, Duration.add?_eq_some_iff.mpr rfl, hbefore⟩,
      ⟨target, ?_, hafter⟩, hcount⟩
    rw [Duration.add?_eq_some_iff, hnow, hend, hsum, ← Nat.add_assoc]
  · rintro ⟨stop, before, after, ⟨mid, hmid, hbefore⟩, ⟨target, htarget, hafter⟩, rfl⟩
    have hnow : stop.timeline.now = mid := hbefore.now (Duration.le_of_add? hmid)
    rw [hnow] at htarget
    refine ⟨target, ?_, hbefore.join hafter (Duration.le_of_add? htarget)⟩
    rw [Duration.add?_eq_some_iff, hsum, Duration.nanos_of_add? htarget,
      Duration.nanos_of_add? hmid, Nat.add_assoc]

/-- To move the clock by two spans one after the other is the same as to move it by both at
once, as long as the clock can show where it is to end. Either way the calls come to an end
or neither does, and where they do, the same tasks were started in the same order while the
clock showed the same, they were told in the same number, and the timeline and what the
tasks remember are the same. -/
theorem advances_split {conduct : τ → σ → Body τ σ} {s : Staffed τ σ} {a b : Duration}
    (hrange : s.timeline.now.nanos + a.nanos + b.nanos ≤ Duration.maxNanos) :
    ((∃ started s', Advances conduct (a.saturatingAdd b) s started s') ↔
        ∃ before stop after s', Advances conduct a s before stop ∧
          Advances conduct b stop after s') ∧
      ∀ started s' before stop after s'', Advances conduct (a.saturatingAdd b) s started s' →
        Advances conduct a s before stop → Advances conduct b stop after s'' →
          before + after = started ∧ s'' = s' := by
  refine ⟨⟨?_, ?_⟩, ?_⟩
  · rintro ⟨started, s', h⟩
    obtain ⟨stop, before, after, hbefore, hafter, -⟩ := (advances_iff_of_le hrange).mp h
    exact ⟨before, stop, after, s', hbefore, hafter⟩
  · rintro ⟨before, stop, after, s', hbefore, hafter⟩
    exact ⟨before + after, s',
      (advances_iff_of_le hrange).mpr ⟨stop, before, after, hbefore, hafter, rfl⟩⟩
  · intro started s' before stop after s'' h hbefore hafter
    exact ((advances_iff_of_le hrange).mpr ⟨stop, before, after, hbefore, hafter, rfl⟩).unique h

/-- Four tasks that wait at the seconds one to three, two of them for the same. -/
def attended : Staffed String Nat where
  memory := 0
  timeline :=
    let t : Timeline String := {}
    let t := (t.schedule (.ofSeconds 1) "first").2
    let t := (t.schedule (.ofSeconds 2) "unwanted").2
    let t := (t.schedule (.ofSeconds 3) "last").2
    (t.schedule (.ofSeconds 3) "late").2

/-- The first task hands over one that is due a second later, and cancels the one that was to
start then. The one that it handed over asks for another one at once, and fails. The last but one
shuts the timeline down. The tasks remember how many of them have looked at the clock. -/
def chores : String → Nat → Body String Nat
  | "first", looks => .schedule (.ofSeconds 1) "second" fun _ =>
    .cancel (.accepted 2) (.ended looks)
  | "second", looks => .schedule .zero "third" fun _ => .failed looks
  | "third", looks => .now fun now =>
    if now = .ofSeconds 2 then .ended (looks + 1) else .failed looks
  | _, looks => .shutdown (.ended looks)

theorem advances_split_once_attended :
    ∃ stop s', Advances chores (.ofSeconds 2) attended 3 stop ∧
      Advances chores (.ofSeconds 1) stop 1 s' ∧
      Advances chores ((Duration.ofSeconds 2).saturatingAdd (.ofSeconds 1)) attended 4 s' ∧
      s'.starts.map (fun x => (x.clock, x.entry.task)) =
        [(.ofSeconds 3, "last"), (.ofSeconds 2, "third"), (.ofSeconds 2, "second"),
          (.ofSeconds 1, "first")] ∧
      s'.memory = 1 ∧ s'.timeline.shutDown = true ∧ s'.timeline.pending = [] := by
  have hcalls : ∃ stop s', Advances chores (.ofSeconds 2) attended 3 stop ∧
      Advances chores (.ofSeconds 1) stop 1 s' ∧
      s'.starts.map (fun x => (x.clock, x.entry.task)) =
        [(.ofSeconds 3, "last"), (.ofSeconds 2, "third"), (.ofSeconds 2, "second"),
          (.ofSeconds 1, "first")] ∧
      s'.memory = 1 ∧ s'.timeline.shutDown = true ∧ s'.timeline.pending = [] :=
    ⟨_, _, ⟨.ofSeconds 2, rfl, .starts rfl (.starts rfl (.starts rfl (.rests rfl)))⟩,
      ⟨.ofSeconds 3, rfl, .starts rfl (.rests rfl)⟩, rfl, rfl, rfl, rfl⟩
  obtain ⟨stop, s', hbefore, hafter, hend⟩ := hcalls
  obtain ⟨hends, hsame⟩ :=
    @advances_split _ _ chores attended (.ofSeconds 2) (.ofSeconds 1) (by decide)
  obtain ⟨started, s'', h⟩ := hends.mpr ⟨3, stop, 1, s', hbefore, hafter⟩
  obtain ⟨rfl, rfl⟩ := hsame started s'' 3 stop 1 s' h hbefore hafter
  exact ⟨stop, s', hbefore, hafter, h, hend⟩

end Staffed

end Timeline
end Lwm2mClient
