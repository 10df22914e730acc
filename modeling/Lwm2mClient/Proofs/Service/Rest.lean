import Lwm2mClient.Proofs.Service.Coherence
import Lwm2mClient.Proofs.Service.Cycles
import Lwm2mClient.Proofs.Service.Loads

/-!
Whether a move of the clock comes to an end. It does where every renewal is planned some time
ahead and the clock stays off the end of its range, since each task that is run leaves the
timeline with a smaller load. A renewal that is due at once has the clock stand still for good,
and so has one that is due at the end of the range, where no later time can be shown.
-/
namespace Lwm2mClient.Service

open Net Engine

variable {env : Surroundings} {setup : Setup} {x : Position} {s s' : Service} {target : Duration}
  {t t' : Timeline Task} {e : Timeline.Entry Task}

/-! ### Coming to rest -/

/-- What is left once a task was taken out. -/
theorem Timeline.of_takeDue? (h : t.takeDue? target = some (e, t')) (hnow : t.now ≤ target) :
    e.due ≤ target ∧ t'.now ≤ target ∧ e.due ≤ t'.now ∧ t.queue = e :: t'.queue := by
  obtain ⟨rest, hqueue, hdue, rfl⟩ := Timeline.takeDue?_eq_some_iff.mp h
  exact ⟨hdue, Duration.later_le hnow hdue, Duration.le_later_right t.now e.due, hqueue⟩

/-- A task that is run leaves a smaller load, whatever becomes of it. -/
theorem Position.Rests.lightens (h : x.Rests s) (henv : env.Outlasts setup)
    (hnow : x.timeline.now ≤ target) (htarget : target < .max)
    (htake : x.timeline.takeDue? target = some (e, t')) :
    ∃ s₁ s₂, ∃ x' : Position, step setup s (.take target) = some s₁ ∧
      ComesToRest setup env s₁ s₂ ∧
      x'.Rests s₂ ∧ x'.timeline.now ≤ target ∧
      load target x'.timeline.queue < load target x.timeline.queue ∧
      x'.sent.length ≤ x.sent.length + 4 := by
  obtain ⟨hdue, hnow', hpast, hqueue⟩ := Timeline.of_takeDue? htake hnow
  let taken : Position := { x with timeline := t' }
  have hload :
      load target x.timeline.queue = (target.nanos + 1 - e.due.nanos) + load target t'.queue := by
    rw [hqueue, load_cons]
  have hdue' : e.due.nanos ≤ target.nanos := hdue
  have hpast' : e.due.nanos ≤ t'.now.nanos := hpast
  cases htask : e.task with
  | work work =>
    have hwork : ((Job.task e.due e.number work).body setup).Keeps (following env)
        (fun _ => Spends target 4 true taken) taken :=
      Spends.keeps_task henv (Nat.lt_of_le_of_lt hnow' htarget) e.due e.number
        work fun _ _ hspends => hspends
    obtain ⟨s₁, s₂, result, x', hstep, hends, hrests, hspends⟩ := h.takes htake htask hwork
    refine ⟨s₁, s₂, x', hstep, hends, hrests, hspends.now ▸ hnow', ?_, hspends.sent⟩
    have hless := hspends.load
    change _ ≤ load target t'.queue + (target.nanos - t'.now.nanos) at hless
    omega
  | other =>
    refine ⟨s.withScheduler (.timeline t'), _, taken, ?_, .rest ⟨h.atRest.idle, h.atRest.alone⟩,
      ⟨⟨h.atRest.idle, h.atRest.alone⟩, h.isAt.shows, rfl, h.isAt.sent⟩, hnow', ?_,
        Nat.le_add_right _ _⟩
    · simp only [step_take h.isAt.timeline, htake, Option.map_some, startTask, htask]
    · change load target t'.queue < _
      omega

/-- The load bounds the number of tasks that are run. -/
theorem Position.Rests.exists_advances (h : x.Rests s) (henv : env.Outlasts setup)
    (hnow : x.timeline.now ≤ target) (htarget : target < .max) :
    ∃ n s', ∃ x' : Position, Advances setup env target s n s' ∧ x'.Rests s' ∧
      n ≤ load target x.timeline.queue ∧ x'.sent.length ≤ x.sent.length + 4 * n := by
  induction hbound : load target x.timeline.queue using Nat.strongRecOn generalizing s x with
  | ind bound ih =>
    cases htake : x.timeline.takeDue? target with
    | none =>
      obtain ⟨s', hadvances, hrests⟩ := h.advances setup env htake
      exact ⟨0, s', _, hadvances, hrests, Nat.zero_le _, Nat.le_refl _⟩
    | some taken =>
      obtain ⟨e, t'⟩ := taken
      obtain ⟨s₁, s₂, x₂, hstep, hends, hrests, hnow₂, hless, hsent⟩ :=
        h.lightens henv hnow htarget htake
      obtain ⟨n, s', x', hadvances, hrests', hle, hsent'⟩ :=
        ih _ (hbound ▸ hless) hrests hnow₂ rfl
      exact ⟨n + 1, s', x', .task hstep hends hadvances, hrests', by omega, by omega⟩

/-- Where no server that the store may offer has a lifetime as short as the margin, every move of
the clock that ends before the last moment comes to an end. It runs no more tasks than the load of
the timeline says, and each of them sends at most four requests. -/
theorem advances_of_outlasting {span : Duration} (henv : env.Outlasts setup) (hs : AtRest s)
    (htimeline : s.client.scheduler = .timeline t) (htarget : t.now.add? span = some target)
    (hend : target < .max) :
    ∃ n s', Advances setup env target s n s' ∧ AtRest s' ∧ n ≤ load target t.queue ∧
      (requestsOf s'.history).length ≤ (requestsOf s.history).length + 4 * n := by
  have hnow : t.now ≤ target := by
    unfold Duration.add? at htarget
    split at htarget
    · cases htarget
      exact Nat.le_add_right _ _
    · cases htarget
  obtain ⟨n, s', x', hadvances, hrests, hle, hsent⟩ :=
    (Position.rests_of hs htimeline).exists_advances henv hnow hend
  refine ⟨n, s', hadvances, hrests.atRest, hle, ?_⟩
  rw [hrests.isAt.sent]
  exact hsent

/-- Where one server is all that the store names, its lifetime is all that counts. -/
theorem outlasts_of_steady {server : ManagementServer} {lifetime : UInt64}
    (henv : env.Steady setup server lifetime)
    (h : setup.settings.renewalMargin < .ofSeconds lifetime) : env.Outlasts setup := by
  intro server' lifetime' hoffers
  obtain ⟨found, hfound, hserver'⟩ := hoffers.named
  cases (henv.named found hfound).symm.trans hserver'
  cases henv.lifetime.symm.trans hoffers.lifetime
  exact h

/-- The store gives the server 30 seconds, and the clock is moved by an hour. -/
theorem advances_once_registered :
    ∃ s t n s', run sampleSetup (initial (.timeline {})) (registering 30) = some s ∧
      s.client.scheduler = .timeline t ∧ t.now.add? (.ofSeconds 3600) = some (.ofSeconds 3600) ∧
      Advances sampleSetup (sampleSurroundings 30) (.ofSeconds 3600) s n s' ∧ AtRest s' ∧
      n ≤ load (.ofSeconds 3600) t.queue ∧
      (requestsOf s'.history).length ≤ (requestsOf s.history).length + 4 * n := by
  have hpossible : (run sampleSetup (initial (.timeline {})) (registering 30)).any fun s =>
      isExpecting s "r" (.ofSeconds 29) && decide (s.client.scheduler.clock = .zero) := by
    decide +kernel
  obtain ⟨s, hrun, hcheck⟩ := (Option.any_eq_true _ _).mp hpossible
  obtain ⟨hexpecting, hclock⟩ := Bool.and_eq_true_iff.mp hcheck
  obtain ⟨t, htimeline, hs⟩ := expecting_of_isExpecting hexpecting
  obtain ⟨server, address, hsteady, -⟩ :=
    steady_sampleSurroundings sampleSetup 30 30 (by decide +kernel)
  have henv : (sampleSurroundings 30).Outlasts sampleSetup :=
    outlasts_of_steady hsteady (by decide +kernel)
  have hnow : t.now = .zero := by
    have hclock' := of_decide_eq_true hclock
    rwa [htimeline] at hclock'
  have htarget : t.now.add? (.ofSeconds 3600) = some (.ofSeconds 3600) := by
    rw [hnow]
    decide +kernel
  obtain ⟨n, s', hadvances, hrest, hle, hsent⟩ :=
    advances_of_outlasting henv hs.rests.atRest htimeline htarget (by decide +kernel)
  exact ⟨s, t, n, s', hrun, htimeline, htarget, hadvances, hrest, hle, hsent⟩

/-- An engine registers in the sample surroundings, and from then on each renewal is due no later
than a time if the one before it was. -/
theorem not_advances_of_sample (value : Int64) (lifetime : UInt64) (due : Duration)
    {target : Duration}
    (hregistered : (run sampleSetup (initial (.timeline {})) (registering value)).any fun s =>
      isExpecting s "r" due && decide (s.client.scheduler.clock = .zero))
    (hserver : (sampleFound sampleSetup.hosts value).theManagement.toOption.any fun server =>
      server.info.address.isSome && decide (server.lifetime = some lifetime))
    (hdue : due ≤ target)
    (hstays : ∀ due, due ≤ target →
      due.saturatingAdd (renewalDelay sampleSetup.settings lifetime) ≤ target) :
    ∃ s, run sampleSetup (initial (.timeline {})) (registering value) = some s ∧ AtRest s ∧
      s.client.scheduler.now? = some .zero ∧
      ¬∃ n s', Advances sampleSetup (sampleSurroundings value) target s n s' := by
  obtain ⟨s, hrun, hcheck⟩ := (Option.any_eq_true _ _).mp hregistered
  obtain ⟨hexpecting, hclock⟩ := Bool.and_eq_true_iff.mp hcheck
  obtain ⟨t, htimeline, hs⟩ := expecting_of_isExpecting hexpecting
  refine ⟨s, hrun, hs.rests.atRest, ?_, ?_⟩
  · have hnow := of_decide_eq_true hclock
    rw [htimeline] at hnow ⊢
    exact congrArg some hnow
  · rintro ⟨n, s', hadvances⟩
    obtain ⟨server, address, henv, haddress⟩ :=
      steady_sampleSurroundings sampleSetup value lifetime hserver
    exact hs.not_advances henv haddress hdue hstays hadvances

/-- A store gives the server a lifetime of one second, no longer than the margin: as soon as the
engine is registered the tasks that are due never come to an end. With a lifetime of 30 seconds
they do not where the clock is moved to the last moment. -/
theorem never_rests :
    (∃ s, run sampleSetup (initial (.timeline {})) (registering 1) = some s ∧ AtRest s ∧
        s.client.scheduler.now? = some .zero ∧
        ¬∃ n s', Advances sampleSetup (sampleSurroundings 1) .zero s n s') ∧
      (∃ s, run sampleSetup (initial (.timeline {})) (registering 30) = some s ∧ AtRest s ∧
        s.client.scheduler.now? = some .zero ∧
        ¬∃ n s', Advances sampleSetup (sampleSurroundings 30) .max s n s') ∧
      Duration.zero.add? .zero = some .zero ∧ Duration.zero.add? .max = some .max := by
  have hnone : renewalDelay sampleSetup.settings 1 = .zero := by
    decide +kernel
  refine ⟨?_, ?_, by decide +kernel, by decide +kernel⟩
  · refine not_advances_of_sample 1 1 .zero (by decide +kernel) (by decide +kernel)
      (Nat.le_refl _) fun due hdue => ?_
    rwa [hnone, Duration.saturatingAdd_zero]
  · exact not_advances_of_sample 30 30 (.ofSeconds 29) (by decide +kernel)
      (by decide +kernel) (Duration.le_max _) fun due _ => Duration.le_max _

end Lwm2mClient.Service
