import Lwm2mClient.Proofs.Timeline.Matching

/-!
A virtual timeline and a worker agree. In a play of one script with both, whatever the worker does
is one step of the timeline, or none, and steps of the worker that are none for the timeline come
to an end. So whatever the tasks do, both start the same tasks, in the same order and at the same
instants, however far they come.
-/
namespace Lwm2mClient

open Timeline (Entry)

namespace Play

variable {τ : Type} {w w' : Worker τ} {t : Timeline τ}

/-- Two plays of one script, one with a worker and one with a virtual timeline, that have come
equally far. The clocks show the same whenever it is the host's turn. -/
inductive Agree : Play τ → Play τ → Prop where
  | turn (w : Worker τ) (t : Timeline τ) (starts : List (Start τ)) (rounds : List (Round τ))
      (h : Matches w t) (hnow : t.now = w.now) :
      Agree ⟨.worker w, starts, rounds, none⟩ ⟨.timeline t, starts, rounds, none⟩
  | passing (w : Worker τ) (t : Timeline τ) (starts : List (Start τ)) (rounds : List (Round τ))
      (target : Duration) (h : Matches w t) (hahead : w.now ≤ target) :
      Agree ⟨.worker w, starts, rounds, some target⟩ ⟨.timeline t, starts, rounds, some target⟩

variable {conduct : List (Start τ) → List (Act τ)} {p p' q q' : Play τ}

/-- What a worker has to do, and how long the host lets the time pass still. -/
def left (p : Play τ) : Nat :=
  match p.scheduler, p.until? with
  | .worker w, some target => w.load + (target.nanos - w.now.nanos)
  | _, _ => 0

/-- Whether nothing more happens: the script is over, or what is to be done next is not
possible. -/
def IsStuck (conduct : List (Start τ) → List (Act τ)) (p : Play τ) : Prop :=
  ∀ instant, p.next? conduct instant = none

/-- What a step of the play with the worker is for the play with the timeline: no step is possible
with either, or it is no step, or one and the same. -/
inductive Follows (conduct : List (Start τ) → List (Act τ)) (instant : Duration)
    (p q : Play τ) : Prop where
  | stuck (hp : p.IsStuck conduct) (hq : q.IsStuck conduct)
  | silent (p' : Play τ) (hp : p.next? conduct instant = some p') (hagree : Agree p' q)
      (hless : instant = .max → p'.left < p.left)
  | same (p' q' : Play τ) (hp : p.next? conduct instant = some p')
      (hq : ∀ other, q.next? conduct other = some q') (hagree : Agree p' q')

theorem follows_turn {starts : List (Start τ)} {rounds : List (Round τ)} (h : Matches w t)
    (hnow : t.now = w.now) (instant : Duration) :
    Follows conduct instant ⟨.worker w, starts, rounds, none⟩
      ⟨.timeline t, starts, rounds, none⟩ := by
  cases rounds with
  | nil => exact .stuck (fun _ => rfl) fun _ => rfl
  | cons round rest =>
    rcases h.perform hnow round.acts with ⟨hw, ht⟩ | ⟨w', t', hw, ht, h', hw', ht'⟩
    · refine .stuck (fun _ => ?_) fun _ => ?_
      · simp only [next?, hostTurn?, hw, Option.bind_none]
      · simp only [next?, hostTurn?, ht, Option.bind_none]
    · have hclock : t'.now = w'.now := ht'.trans hw'.symm
      cases htarget : (w'.now.add? round.span).filter (· ≤ Worker.horizon) with
      | none =>
        refine .stuck (fun _ => ?_) fun _ => ?_
        · simp only [next?, hostTurn?, hw, Option.bind_some, Scheduler.clock, htarget,
            Option.map_none]
        · simp only [next?, hostTurn?, ht, Option.bind_some, Scheduler.clock, hclock, htarget,
            Option.map_none]
      | some target =>
        have hahead : w'.now ≤ target :=
          Duration.le_of_add? (Option.filter_eq_some_iff.mp htarget).1
        refine .same _ _ ?_ (fun _ => ?_) (.passing w' t' starts rest target h' hahead)
        · simp only [next?, hostTurn?, hw, Option.bind_some, Scheduler.clock, htarget,
            Option.map_some]
        · simp only [next?, hostTurn?, ht, Option.bind_some, Scheduler.clock, hclock, htarget,
            Option.map_some]

theorem follows_start {starts : List (Start τ)} {rounds : List (Round τ)} {target : Duration}
    {e : Entry τ} (h : Matches w t) (hahead : w.now ≤ target)
    (hmove : w.move? = some (some e, w')) (instant : Duration) :
    Follows conduct instant ⟨.worker w, starts, rounds, some target⟩
      ⟨.timeline t, starts, rounds, some target⟩ := by
  have hgoes := (Worker.goes_of_move? hmove).2
  obtain ⟨t', htake, h', hnow⟩ := h.starts hgoes hahead
  have hahead' : w'.now ≤ target := hgoes.steady.1 ▸ hahead
  rcases h'.perform hnow (conduct (⟨w'.now, e⟩ :: starts))
    with ⟨hw, ht⟩ | ⟨w'', t'', hw, ht, h'', hw', -⟩
  · refine .stuck (fun _ => ?_) fun _ => ?_
    · simp only [next?, hmove, start?, Scheduler.clock, hw, Option.map_none]
    · simp only [next?, htake, start?, Scheduler.clock, hnow, ht, Option.map_none]
  · refine .same _ _ ?_ (fun _ => ?_)
      (.passing w'' t'' (⟨w'.now, e⟩ :: starts) rounds target h'' (hw' ▸ hahead'))
    · simp only [next?, hmove, start?, Scheduler.clock, hw, Option.map_some]
    · simp only [next?, htake, start?, Scheduler.clock, hnow, ht, Option.map_some]

theorem follows_wait {starts : List (Start τ)} {rounds : List (Round τ)} {target : Duration}
    (h : Matches w t) (hahead : w.now ≤ target) (hmove : w.move? = none) (instant : Duration) :
    Follows conduct instant ⟨.worker w, starts, rounds, some target⟩
      ⟨.timeline t, starts, rounds, some target⟩ := by
  obtain ⟨hidle, hcommands⟩ := Worker.isIdle_of_blocked h.serving hmove
  by_cases hreached : w.now < limit w target
  · have hahead' : (w.passUntil (reach w target instant)).now ≤ target := by
      rw [Duration.le_def, Worker.passUntil, Duration.nanos_later]
      exact Nat.max_le.mpr
        ⟨hahead, Duration.le_trans (reach_le w target instant) (h.limit_le target).1⟩
    refine .silent ⟨.worker (w.passUntil (reach w target instant)), starts, rounds,
      some target⟩ ?_ ?_ fun hmax => ?_
    · simp only [next?, hmove, if_pos hreached]
    · exact .passing _ t starts rounds target
        (h.passes hcommands (reach_le w target instant)) hahead'
    · have hmoved : w.now < (w.passUntil (reach w target instant)).now := by
        rw [hmax, reach_max, Duration.lt_def, Worker.passUntil, Duration.nanos_later]
        exact Nat.lt_of_lt_of_le hreached (Nat.le_max_right _ _)
      exact Nat.add_lt_add_left (Nat.sub_lt_sub_left (Nat.lt_of_lt_of_le hmoved hahead') hmoved) _
  · obtain ⟨hnone, h', hnow⟩ := h.returns hidle hcommands hahead hreached
    refine .same _ _ ?_ (fun _ => ?_) (.turn w (t.settle target) starts rounds h' hnow)
    · simp only [next?, hmove, if_neg hreached]
    · simp only [next?, hnone]

theorem Agree.follows (h : Agree p q) (conduct : List (Start τ) → List (Act τ))
    (instant : Duration) : Follows conduct instant p q := by
  cases h with
  | turn w t starts rounds h hnow => exact follows_turn h hnow instant
  | passing w t starts rounds target h hahead =>
    cases hmove : w.move? with
    | none => exact follows_wait h hahead hmove instant
    | some moved =>
      obtain ⟨due?, w'⟩ := moved
      cases due? with
      | some e => exact follows_start h hahead hmove instant
      | none =>
        have hgoes := (Worker.goes_of_move? hmove).2
        have hnow := hgoes.steady.1
        refine .silent ⟨.worker w', starts, rounds, some target⟩ ?_ ?_ fun _ => ?_
        · simp only [next?, hmove]
        · exact .passing w' t starts rounds target (h.goes hgoes) (hnow ▸ hahead)
        · simp only [left, hnow]
          exact Nat.add_lt_add_right hgoes.load_lt _

/-- However far the play with the worker comes, so far comes the play with the timeline. -/
theorem Agree.run (h : Agree p q) {instants : List Duration}
    (hrun : run? conduct p instants = some p') :
    ∃ others q', run? conduct q others = some q' ∧ Agree p' q' := by
  induction instants generalizing p q with
  | nil => exact ⟨[], q, rfl, Option.some.inj hrun ▸ h⟩
  | cons instant rest ih =>
    obtain ⟨mid, hmid, hrest⟩ := Option.bind_eq_some_iff.mp hrun
    cases h.follows conduct instant with
    | stuck hp hq => cases (hp instant).symm.trans hmid
    | silent p₁ hp hagree hless =>
      obtain rfl := Option.some.inj (hp.symm.trans hmid)
      exact ih hagree hrest
    | same p₁ q₁ hp hq hagree =>
      obtain rfl := Option.some.inj (hp.symm.trans hmid)
      obtain ⟨others, q', hothers, hagree'⟩ := ih hagree hrest
      refine ⟨instant :: others, q', ?_, hagree'⟩
      rw [run?, hq instant]
      exact hothers

/-- Where the timeline makes a step, the worker comes to it. What it does before leaves less to be
done. -/
theorem Agree.catchUp (h : Agree p q) {other : Duration}
    (hnext : q.next? conduct other = some q') :
    ∃ instants p', run? conduct p instants = some p' ∧ Agree p' q' := by
  -- the clock moves as far as it may each time, or else what is left would not become less
  induction hleft : p.left using Nat.strongRecOn generalizing p with
  | ind n ih =>
    cases h.follows conduct .max with
    | stuck hp hq => cases (hq other).symm.trans hnext
    | silent p₁ hp hagree hless =>
      obtain ⟨instants, p', hinstants, hagree'⟩ := ih p₁.left (hleft ▸ hless rfl) hagree rfl
      refine ⟨.max :: instants, p', ?_, hagree'⟩
      rw [run?, hp]
      exact hinstants
    | same p₁ q₁ hp hq hagree =>
      obtain rfl := Option.some.inj ((hq other).symm.trans hnext)
      refine ⟨[.max], p₁, ?_, hagree⟩
      rw [run?, hp]
      rfl

theorem run?_append (p : Play τ) (first second : List Duration) :
    run? conduct p (first ++ second) = (run? conduct p first).bind fun p =>
      run? conduct p second := by
  induction first generalizing p with
  | nil => rfl
  | cons instant rest ih =>
    rw [List.cons_append, run?, run?, Option.bind_assoc]
    exact congrArg _ (funext ih)

/-- However far the play with the timeline comes, so far comes the play with the worker. -/
theorem Agree.run_back (h : Agree p q) {others : List Duration}
    (hrun : run? conduct q others = some q') :
    ∃ instants p', run? conduct p instants = some p' ∧ Agree p' q' := by
  induction others generalizing p q with
  | nil => exact ⟨[], p, rfl, Option.some.inj hrun ▸ h⟩
  | cons other rest ih =>
    obtain ⟨mid, hmid, hrest⟩ := Option.bind_eq_some_iff.mp hrun
    obtain ⟨first, p₁, hfirst, hagree⟩ := h.catchUp hmid
    obtain ⟨second, p', hsecond, hagree'⟩ := ih hagree hrest
    refine ⟨first ++ second, p', ?_, hagree'⟩
    rw [run?_append, hfirst]
    exact hsecond

/-- Where nothing more happens on the timeline, nothing more happens with the worker in the
end. -/
theorem Agree.stuck_back (h : Agree p q) (hq : q.IsStuck conduct) :
    ∃ instants p', run? conduct p instants = some p' ∧ Agree p' q ∧ p'.IsStuck conduct := by
  induction hleft : p.left using Nat.strongRecOn generalizing p with
  | ind n ih =>
    cases h.follows conduct .max with
    | stuck hp _ => exact ⟨[], p, rfl, h, hp⟩
    | silent p₁ hp hagree hless =>
      obtain ⟨instants, p', hinstants, hagree', hstuck⟩ :=
        ih p₁.left (hleft ▸ hless rfl) hagree rfl
      refine ⟨.max :: instants, p', ?_, hagree', hstuck⟩
      rw [run?, hp]
      exact hinstants
    | same p₁ q₁ hp hq₁ hagree => cases (hq .max).symm.trans (hq₁ .max)

theorem Agree.stuck (h : Agree p q) (hp : p.IsStuck conduct) : q.IsStuck conduct := by
  cases h.follows conduct .max with
  | stuck _ hq => exact hq
  | silent p₁ hp₁ hagree hless => cases (hp .max).symm.trans hp₁
  | same p₁ q₁ hp₁ hq hagree => cases (hp .max).symm.trans hp₁

/-- The same tasks were started, in the same order and at the same instants, as much of the script
is left, and where it is the host's turn the clocks show the same. -/
structure Alike (p q : Play τ) : Prop where
  starts : p.starts = q.starts
  rounds : p.rounds = q.rounds
  until? : p.until? = q.until?
  clock : p.until? = none → p.scheduler.clock = q.scheduler.clock

theorem Agree.alike (h : Agree p q) : Alike p q := by
  cases h with
  | turn w t starts rounds h hnow => exact ⟨rfl, rfl, rfl, fun _ => hnow.symm⟩
  | passing w t starts rounds target h hahead =>
    exact ⟨rfl, rfl, rfl, fun hturn => (by cases hturn)⟩

/-- Whatever a worker comes to in a script, a virtual timeline comes to in the same script, and
conversely; and where nothing more happens with the one, nothing more happens with the other. -/
theorem alike_of_script (conduct : List (Start τ) → List (Act τ)) (rounds : List (Round τ)) :
    (∀ instants p, run? conduct { scheduler := .worker {}, rounds := rounds } instants = some p →
      ∃ others q, run? conduct { scheduler := .timeline {}, rounds := rounds } others = some q ∧
        Alike p q ∧ (p.IsStuck conduct → q.IsStuck conduct)) ∧
    ∀ others q, run? conduct { scheduler := .timeline {}, rounds := rounds } others = some q →
      ∃ instants p, run? conduct { scheduler := .worker {}, rounds := rounds } instants = some p ∧
        Alike p q ∧ (q.IsStuck conduct → p.IsStuck conduct) := by
  have hagree : Agree ⟨.worker {}, [], rounds, none⟩ ⟨.timeline {}, [], rounds, none⟩ :=
    .turn ({} : Worker τ) {} [] rounds matches_empty rfl
  constructor
  · intro instants p hrun
    obtain ⟨others, q, hq, h⟩ := hagree.run hrun
    exact ⟨others, q, hq, h.alike, h.stuck⟩
  · intro others q hrun
    obtain ⟨instants, p, hp, h⟩ := hagree.run_back hrun
    by_cases hstuck : q.IsStuck conduct
    · obtain ⟨more, p', hp', h', hstuck'⟩ := h.stuck_back hstuck
      refine ⟨instants ++ more, p', ?_, h'.alike, fun _ => hstuck'⟩
      rw [run?_append, hp]
      exact hp'
    · exact ⟨instants, p, hp, h.alike, fun hq => absurd hq hstuck⟩

/-- The task "second" hands over another one, which is due at once, cancels the one behind it, and
fails. -/
def sampleConduct : List (Start String) → List (Act String)
  | [] => []
  | last :: _ =>
    if last.entry.task = "second"
      then [.schedule .zero "further", .cancel 3, .fail, .schedule .zero "never"]
    else if last.entry.task = "further" then [.schedule (.ofSeconds 3) "late"]
    else []

/-- The host cancels the first task once a second has passed. -/
def sampleRounds : List (Round String) :=
  [⟨[.schedule (.ofSeconds 2) "first", .schedule (.ofSeconds 1) "second",
    .schedule (.ofSeconds 1) "third"],
      .ofSeconds 1⟩,
    ⟨[.cancel 1], .ofSeconds 10⟩]

theorem alike_once_played :
    ∃ p, run? sampleConduct { scheduler := .worker {}, rounds := sampleRounds }
      (List.replicate 18 .max) = some p ∧
      p.starts.map (fun s => (s.clock.seconds, s.entry.task)) =
        [(4, "late"), (1, "further"), (1, "second")] ∧
        ∃ others q, run? sampleConduct { scheduler := .timeline {}, rounds := sampleRounds }
          others = some q ∧
          Alike p q := by
  have hpossible : (run? sampleConduct { scheduler := .worker {}, rounds := sampleRounds }
      (List.replicate 18 .max)).any fun p => decide
        (p.starts.map (fun s => (s.clock.seconds, s.entry.task)) =
          [(4, "late"), (1, "further"), (1, "second")]) := by
    decide +kernel
  obtain ⟨p, hrun, hcheck⟩ := (Option.any_eq_true _ _).mp hpossible
  obtain ⟨others, q, hq, halike, -⟩ := (alike_of_script sampleConduct sampleRounds).1 _ p hrun
  exact ⟨p, hrun, of_decide_eq_true hcheck, others, q, hq, halike⟩

end Play
end Lwm2mClient
