import Mathlib.Algebra.GroupWithZero.Nat
import Lwm2mClient.Proofs.Service.Cycles

/-!
The pace of renewals. An engine that has registered renews its registration at the multiples of
one period, the lifetime but for the margin, counted from the registration. In which spans the
clock is moved makes no difference.
-/
namespace Lwm2mClient.Service

open Net Engine

variable {env : Surroundings} {setup : Setup} {x : Position} {s s' : Service}
    {server : ManagementServer}
  {lifetime : UInt64} {address : SocketAddress} {id : String} {start target : Duration}
    {period elapsed : Nat}
  {before : List (Request × Duration)}

/-- When a renewal is due; the first one has number zero. -/
def dueOf (start : Duration) (period k : Nat) : Duration :=
  .ofNanos (start.nanos + (k + 1) * period)

/-- The Update requests of the first `n` renewals. -/
def updatesOf (start : Duration) (period : Nat) (id : String)
    (n : Nat) : List (Request × Duration) :=
  (List.range n).map fun k => (.update id, dueOf start period k)

theorem updatesOf_succ (start : Duration) (period : Nat) (id : String) (n : Nat) :
    updatesOf start period id (n + 1) = updatesOf start period id n ++
      [(.update id, dueOf start period n)] := by
  rw [updatesOf, List.range_succ, List.map_append]
  rfl

/-- An engine registered at some time, and since then it has sent one Update request for
each period that is over. -/
structure Paced (start : Duration) (period : Nat) (id : String)
    (before : List (Request × Duration)) (elapsed : Nat) (x : Position) (s : Service) : Prop where
  expecting : Expecting x id (dueOf start period (elapsed / period)) s
  now : x.timeline.now.nanos = start.nanos + elapsed
  sent : x.sent = (updatesOf start period id (elapsed / period)).reverse ++ before

theorem nanos_dueOf {k : Nat} (h : start.nanos + (k + 1) * period ≤ Duration.maxNanos) :
    (dueOf start period k).nanos = start.nanos + (k + 1) * period :=
  Nat.min_eq_left h

theorem dueOf_saturatingAdd {k : Nat} (h : start.nanos + (k + 1) * period ≤ Duration.maxNanos)
    {delay : Duration} (hdelay : delay.nanos = period) :
    (dueOf start period k).saturatingAdd delay = dueOf start period (k + 1) := by
  rw [Duration.saturatingAdd, nanos_dueOf h, hdelay, dueOf, Nat.add_mul (k + 1) 1,
    Nat.one_mul, Nat.add_assoc]

section

variable (henv : env.Steady setup server lifetime)
    (haddress : server.info.requireAddress = .ok address)
  (hperiod : 0 < period) (hdelay : (renewalDelay setup.settings lifetime).nanos = period)

/-- Where no further period is over, the clock is moved at once. -/
theorem Paced.settle (setup : Setup) (env : Surroundings)
    (h : Paced start period id before elapsed x s) (hperiod : 0 < period) {later : Nat}
    (htarget : target.nanos = start.nanos + later) (hend : target < .max) (hle : elapsed ≤ later)
    (hsame : later / period = elapsed / period) :
    ∃ s', ∃ x' : Position, Advances setup env target s 0 s' ∧
      Paced start period id before later x' s' := by
  obtain ⟨number, hnamed, hqueue⟩ := h.expecting.expects.queue
  have hlater : later < (elapsed / period + 1) * period := by
    rw [← hsame]
    exact (Nat.div_lt_iff_lt_mul hperiod).mp (Nat.lt_succ_self _)
  have hearly : target < dueOf start period (elapsed / period) :=
    Nat.lt_min.mpr ⟨by omega, hend⟩
  have hnone : x.timeline.takeDue? target = none := by
    unfold Timeline.takeDue?
    rw [hqueue]
    exact if_neg (Nat.not_le_of_lt hearly)
  obtain ⟨s', hadvances, hrests⟩ := h.expecting.rests.advances setup env hnone
  have hnow : (x.timeline.settle target).now = target := by
    apply Duration.later_of_le
    rw [Duration.le_def, h.now, htarget]
    exact Nat.add_le_add_left hle _
  have hexpects := h.expecting.expects
  refine ⟨s', _, hadvances,
    ⟨hrests, ⟨hexpects.held, hexpects.opened, number, hnamed, ?_⟩, ?_⟩, ?_, ?_⟩
  · rw [hsame]
    exact hqueue
  · rw [hsame]
    change (x.timeline.settle target).now ≤ _
    rw [hnow]
    exact Nat.le_of_lt hearly
  · exact (congrArg Duration.nanos hnow).trans htarget
  · rw [hsame]
    exact h.sent

include henv haddress hperiod hdelay

/-- A renewal that is due is run at its time. -/
theorem Paced.cycle (h : Paced start period id before elapsed x s) (hend : target < .max)
    (hdue : start.nanos + (elapsed / period + 1) * period ≤ target.nanos) :
    ∃ s₁ s₂, ∃ x' : Position, step setup s (.take target) = some s₁ ∧
      ComesToRest setup env s₁ s₂ ∧
      Paced start period id before ((elapsed / period + 1) * period) x' s₂ := by
  have htarget : target.nanos < Duration.maxNanos := hend
  have hshown : start.nanos + (elapsed / period + 1) * period ≤ Duration.maxNanos := by omega
  have hdue' : dueOf start period (elapsed / period) ≤ target := by
    rw [Duration.le_def, nanos_dueOf hshown]
    exact hdue
  obtain ⟨s₁, s₂, x', hstep, hends, hexpecting, hnow, hsent⟩ :=
    h.expecting.cycle henv haddress hdue'
  have hcount : (elapsed / period + 1) * period / period = elapsed / period + 1 :=
    Nat.mul_div_cancel _ hperiod
  refine ⟨s₁, s₂, x', hstep, hends, ?_, ?_, ?_⟩
  · rw [hcount, ← dueOf_saturatingAdd hshown hdelay]
    exact hexpecting
  · rw [hnow, nanos_dueOf hshown]
  · rw [hsent, h.sent, hcount, updatesOf_succ, List.reverse_append]
    rfl

/-- The clock is moved, and the renewals that are due on the way are run. -/
theorem Paced.advances (h : Paced start period id before elapsed x s) {later : Nat}
    (htarget : target.nanos = start.nanos + later) (hend : target < .max)
    (hle : elapsed ≤ later) :
    ∃ n s', ∃ x' : Position, Advances setup env target s n s' ∧
      Paced start period id before later x' s' ∧
      elapsed / period + n = later / period := by
  -- The induction is on the number of periods that are still to end.
  induction hcount : later / period - elapsed / period generalizing elapsed x s with
  | zero =>
    have hsame : later / period = elapsed / period := by
      have hmono := Nat.div_le_div_right (c := period) hle
      omega
    obtain ⟨s', x', hadvances, hpaced⟩ := h.settle setup env hperiod htarget hend hle hsame
    exact ⟨0, s', x', hadvances, hpaced, hsame.symm⟩
  | succ count ih =>
    have hnext : (elapsed / period + 1) * period ≤ later :=
      (Nat.le_div_iff_mul_le hperiod).mp (by omega)
    obtain ⟨s₁, s₂, x₂, hstep, hends, hpaced⟩ :=
      h.cycle henv haddress hperiod hdelay hend (by omega)
    have hover : (elapsed / period + 1) * period / period = elapsed / period + 1 :=
      Nat.mul_div_cancel _ hperiod
    obtain ⟨n, s', x', hadvances, hpaced', hn⟩ := ih hpaced hnext (by omega)
    exact ⟨n + 1, s', x', .task hstep hends hadvances, hpaced', by omega⟩

/-- The clock is moved on in spans of any length. -/
theorem Paced.advancesBy (h : Paced start period id before elapsed x s) (spans : List Duration)
    (hend : start.nanos + elapsed + (spans.map Duration.nanos).sum < Duration.maxNanos) :
    ∃ counts s', ∃ x' : Position, AdvancesBy setup env s spans counts s' ∧
      Paced start period id before (elapsed + (spans.map Duration.nanos).sum) x' s' ∧
      elapsed / period + counts.sum = (elapsed + (spans.map Duration.nanos).sum) / period := by
  induction spans generalizing elapsed x s with
  | nil => exact ⟨[], s, x, .nil, h, rfl⟩
  | cons span spans ih =>
    rw [List.map_cons, List.sum_cons] at hend ⊢
    have hshown : x.timeline.now.nanos + span.nanos ≤ Duration.maxNanos := by
      rw [h.now]
      omega
    let target : Duration := ⟨x.timeline.now.nanos + span.nanos, hshown⟩
    have hnow : s.client.scheduler.now? = some x.timeline.now := by
      rw [h.expecting.rests.isAt.timeline]
      rfl
    have htarget : x.timeline.now.add? span = some target := dif_pos hshown
    have hmoved : target.nanos = start.nanos + (elapsed + span.nanos) := by
      rw [← Nat.add_assoc, ← h.now]
    have hbefore : target < .max := by
      rw [Duration.lt_def, hmoved]
      exact Nat.lt_of_le_of_lt (by omega) hend
    obtain ⟨n, s₁, x₁, hadvances, hpaced, hn⟩ :=
      h.advances henv haddress hperiod hdelay hmoved hbefore (Nat.le_add_right _ _)
    obtain ⟨counts, s', x', hrest, hpaced', hcounts⟩ := ih hpaced (by omega)
    rw [Nat.add_assoc] at hpaced' hcounts
    refine ⟨n :: counts, s', x', .cons hnow htarget hadvances hrest, hpaced', ?_⟩
    rw [List.sum_cons]
    omega

end

/-! ### Registering -/

/-- A renewal that is planned, and then is the only task on the timeline. -/
theorem Position.expects_of_planned {delay : Duration} {e : Timeline.Entry Task}
    (hheld : x.id = some id) (hnumbered : x.timeline.Numbered)
    (honly : (x.planRenewal delay).timeline.queue = [e])
    (hnamed : (x.planRenewal delay).renewal = some (.accepted e.number)) :
    (x.planRenewal delay).Expects id (x.timeline.now.saturatingAdd delay) := by
  let handed := x.timeline.schedule delay (.work (.renewal (x.generation + 1)))
  have hhandle : handed.1 = .accepted e.number := Option.some.inj hnamed
  have hopen : x.timeline.shutDown = false ∧ e.number = x.timeline.accepted + 1 := by
    dsimp only [handed, Timeline.schedule] at hhandle
    split at hhandle
    · cases hhandle
    · rename_i hopen
      exact ⟨Bool.eq_false_iff.mpr hopen, (TaskHandle.accepted.inj hhandle).symm⟩
  have hwaits : e ∈ handed.2.queue := by
    have hleft : e ∈ (Timeline.cancelAny handed.2 x.renewal).queue :=
      honly ▸ List.mem_singleton_self e
    exact (Timeline.mem_cancelAny.mp hleft).1
  have hplanned : e.task = .work (.renewal (x.generation + 1)) ∧
      e.due = x.timeline.now.saturatingAdd delay := by
    rcases Timeline.mem_schedule hwaits with hold | ⟨-, htask, hdue⟩
    · have hle := hnumbered.bound e hold
      omega
    · exact ⟨htask, hdue⟩
  refine ⟨hheld, ?_, e.number, hnamed, ?_⟩
  · refine (Timeline.cancelAny_shutDown _ _).trans ?_
    exact (Timeline.schedule_shutDown _ _ _).trans hopen.1
  · obtain ⟨due, number, task⟩ := e
    obtain ⟨rfl, rfl⟩ := hplanned
    exact honly

/-- A registration was granted, and its renewal is the only task on the timeline. -/
theorem paced_of_registered {inputs : List Input} {s₀ : Service} {e : Timeline.Entry Task}
    (hrun : run setup (initial (.timeline {})) inputs = some s₀) (hrest : AtRest s₀)
    (hnow : s₀.client.scheduler.now? = some start) (henv : env.Steady setup server lifetime)
    (hregister : ComesToRest setup env (launch setup s₀ (.operation .register)) s)
    (hsuccess : s.history.head? = some (.ended (.operation .register) true))
    (honly : s.client.scheduler.entries = [e])
    (hnamed : s.client.registration.renewal = some (.accepted e.number)) :
    ∃ id address x, s.client.registration.id = some id ∧
      server.info.requireAddress = .ok address ∧
      Paced start (renewalDelay setup.settings lifetime).nanos id
        (requestsOf s.history) 0 x s := by
  cases htimeline : s₀.client.scheduler with
  | worker w =>
    rw [htimeline] at hnow
    cases hnow
  | timeline t =>
    rw [htimeline] at hnow
    have hstart : t.now = start := Option.some.inj hnow
    have hkept := (Inv.of_run (Or.inl rfl) hrun).resting hrest.idle
    have hnumbered : t.Numbered := (hkept.sound.backed t htimeline).numbered
    let x₀ := Position.of s₀ t
    have hkeeps : (registerNow setup).Keeps (following env) (fun result x => result = true →
        ∃ id server lifetime request, env.Offers setup server lifetime ∧
          x = ((x₀.send request).hold id).planRenewal (renewalDelay setup.settings lifetime))
            x₀ := by
      apply Position.keeps_registerNow
      · exact nofun
      · exact nofun
      · intro id server lifetime request hoffers _
        exact ⟨id, server, lifetime, request, hoffers, rfl⟩
    have hx₀ := Position.rests_of hrest htimeline
    obtain ⟨result, x, client, history, hx, hpost, hends⟩ :=
      (sees_following env).comesToRest_of_launch (hears_following env)
        (.operation .register) rfl hrest hkeeps
        ⟨hx₀.isAt.shows, hx₀.isAt.timeline, hx₀.isAt.sent⟩
    cases hregister.unique hends
    cases hsuccess
    obtain ⟨id, server', lifetime', request, hoffers, rfl⟩ := hpost rfl
    obtain ⟨found, hfound, hserver⟩ := hoffers.named
    cases (henv.named found hfound).symm.trans hserver
    cases henv.lifetime.symm.trans hoffers.lifetime
    obtain ⟨address, haddress⟩ := hoffers.reachable
    let delay := renewalDelay setup.settings lifetime
    let granted := (x₀.send request).hold id
    have hentries : (granted.planRenewal delay).timeline.queue = [e] := by
      have hentries := honly
      change client.scheduler.entries = [e] at hentries
      rwa [hx.timeline] at hentries
    have hexpects : (granted.planRenewal delay).Expects id (start.saturatingAdd delay) := by
      rw [← hstart]
      exact Position.expects_of_planned rfl hnumbered hentries (hx.shows.2.1.symm.trans hnamed)
    have hplanned : (granted.planRenewal delay).timeline.now = start :=
      (granted.planRenewal_now delay).trans hstart
    have hfirst : dueOf start delay.nanos (0 / delay.nanos) = start.saturatingAdd delay := by
      rw [Nat.zero_div, dueOf, Nat.zero_add, Nat.one_mul]
      rfl
    refine ⟨id, address, granted.planRenewal delay, hx.shows.1, haddress, ⟨?_, ?_, ?_⟩, ?_, ?_⟩
    · exact ⟨⟨rfl, rfl⟩, hx.shows, hx.timeline, hx.sent⟩
    · rw [hfirst]
      exact hexpects
    · rw [hfirst, hplanned]
      exact Duration.le_saturatingAdd start delay
    · exact congrArg Duration.nanos hplanned
    · rw [Nat.zero_div]
      exact hx.sent.symm

/-- An engine registers for a lifetime that is longer than the margin, its renewal is the only
task on the timeline, and the clock is moved on in spans of any length, short of its last
moment. The requests that it sends are one Update request at each multiple of the period that is
over, as many tasks are run, and the next renewal waits for the next multiple, or for the last
moment if that comes first. -/
theorem updates_of_spans {inputs : List Input} {s₀ : Service} {e : Timeline.Entry Task}
    {spans : List Duration} (hrun : run setup (initial (.timeline {})) inputs = some s₀)
    (hrest : AtRest s₀) (hnow : s₀.client.scheduler.now? = some start)
    (henv : env.Steady setup server lifetime)
    (hmargin : setup.settings.renewalMargin < .ofSeconds lifetime)
    (hregister : ComesToRest setup env (launch setup s₀ (.operation .register)) s)
    (hsuccess : s.history.head? = some (.ended (.operation .register) true))
    (honly : s.client.scheduler.entries = [e])
    (hnamed : s.client.registration.renewal = some (.accepted e.number))
    (hend : start.nanos + (spans.map Duration.nanos).sum < Duration.maxNanos) :
    let period := lifetime.toNat * 1000000000 - setup.settings.renewalMargin.nanos
    let total := (spans.map Duration.nanos).sum
    (∃ counts s', AdvancesBy setup env s spans counts s') ∧
      ∀ counts s', AdvancesBy setup env s spans counts s' →
        ∃ id since t next, s.client.registration.id = some id ∧ s'.history = since ++ s.history ∧
          (requestsOf since).reverse = updatesOf start period id (total / period) ∧
          counts.sum = total / period ∧ s'.client.scheduler = .timeline t ∧
          t.now.nanos = start.nanos + total ∧ t.queue = [next] ∧ next.task.isRenewal = true ∧
          next.due = dueOf start period (total / period) := by
  intro period total
  obtain ⟨id, address, x, hid, haddress, hpaced⟩ :=
    paced_of_registered hrun hrest hnow henv hregister hsuccess honly hnamed
  have hperiod : 0 < period := Nat.sub_pos_of_lt hmargin
  obtain ⟨counts, s', x', hadvances, hpaced', hcounts⟩ :=
    hpaced.advancesBy henv haddress hperiod rfl spans hend
  rw [Nat.zero_add] at hpaced' hcounts
  rw [Nat.zero_div, Nat.zero_add] at hcounts
  refine ⟨⟨counts, s', hadvances⟩, fun counts' s'' hadvances' => ?_⟩
  obtain ⟨rfl, rfl⟩ := hadvances.unique hadvances'
  obtain ⟨since, hsince⟩ := hadvances.extends
  obtain ⟨number, -, hqueue⟩ := hpaced'.expecting.expects.queue
  refine ⟨id, since, x'.timeline, _, hid, hsince, ?_, hcounts,
    hpaced'.expecting.rests.isAt.timeline, hpaced'.now, hqueue, rfl, rfl⟩
  have hsent := hpaced'.expecting.rests.isAt.sent.trans hpaced'.sent
  rw [hsince, requestsOf, List.filterMap_append] at hsent
  have hupdates : requestsOf since = (updatesOf start period id (total / period)).reverse :=
    List.append_cancel_right hsent
  rw [hupdates, List.reverse_reverse]

/-- With a lifetime of 30 seconds and a margin of one the period is 29 seconds. The clock is moved
to the moment before it is over, on to its end, and then by a minute more. -/
theorem updates_once_registered :
    ∃ s counts s' since t next,
      ComesToRest sampleSetup (sampleSurroundings 30)
          (launch sampleSetup (initial (.timeline {})) (.operation .register)) s ∧
        AdvancesBy sampleSetup (sampleSurroundings 30) s
          [.ofSeconds 28, .ofSeconds 1, .ofSeconds 60] counts s' ∧
        s'.history = since ++ s.history ∧
        (requestsOf since).reverse =
          [(.update "r", .ofSeconds 29), (.update "r", .ofSeconds 58),
            (.update "r", .ofSeconds 87)] ∧
        counts.sum = 3 ∧ s'.client.scheduler = .timeline t ∧ t.queue = [next] ∧
        next.task.isRenewal = true ∧ next.due = .ofSeconds 116 := by
  have hpossible : (bringToRest sampleSetup (sampleSurroundings 30) 10
      (launch sampleSetup (initial (.timeline {})) (.operation .register))).any fun s =>
        s.hasEnded .register true && isExpecting s "r" (.ofSeconds 29) := by
    decide +kernel
  obtain ⟨s, hregister, hcheck⟩ := (Option.any_eq_true _ _).mp hpossible
  obtain ⟨hsuccess, hexpecting⟩ := Bool.and_eq_true_iff.mp hcheck
  have hends := comesToRest_of_bringToRest hregister
  obtain ⟨t, htimeline, hs⟩ := expecting_of_isExpecting hexpecting
  obtain ⟨number, hnamed, hqueue⟩ := hs.expects.queue
  obtain ⟨server, address, henv, -⟩ :=
    steady_sampleSurroundings sampleSetup 30 30 (by decide +kernel)
  have hmargin : sampleSetup.settings.renewalMargin < .ofSeconds 30 := by
    decide +kernel
  have honly : s.client.scheduler.entries = (Position.of s t).timeline.queue := by
    rw [htimeline]
    rfl
  have hnothing :
      run sampleSetup (initial (.timeline {})) [] = some (initial (.timeline {})) := rfl
  let spans : List Duration := [.ofSeconds 28, .ofSeconds 1, .ofSeconds 60]
  have hend : Duration.zero.nanos + (spans.map Duration.nanos).sum < Duration.maxNanos := by
    decide +kernel
  obtain ⟨⟨counts, s', hadvances⟩, hall⟩ :=
    updates_of_spans hnothing ⟨rfl, rfl⟩ rfl henv hmargin hends (head?_of_hasEnded hsuccess)
      (honly.trans hqueue) hnamed hend
  obtain ⟨id, since, t', next, hid, hsince, hupdates, hsum, htimeline', -, hnext,
    hrenewal, hdue⟩ :=
    hall counts s' hadvances
  cases hid.symm.trans hs.expects.held
  refine ⟨s, counts, s', since, t', next, hends, hadvances, hsince, hupdates.trans ?_,
    hsum.trans ?_, htimeline', hnext, hrenewal, hdue.trans ?_⟩
  · decide +kernel
  · decide +kernel
  · decide +kernel

end Lwm2mClient.Service
