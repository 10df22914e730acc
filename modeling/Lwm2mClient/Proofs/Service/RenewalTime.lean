import Lwm2mClient.Proofs.Service.Coherence

/-!
When the renewal of a registration is due. As long as no call has failed, whoever holds an id has
exactly one renewal waiting, planned from the latest success and the lifetime that the store gave
then. A server counts the lifetime that it was told with the registration; an update does not tell
it a new one, so the renewal comes before that lifetime is over exactly as long as the store does
not name one that is longer by more than the margin.
-/
namespace Lwm2mClient.Service

open Net Engine

variable {setup : Setup} {inputs : List Input} {s : Service} {t : Timeline Task}

theorem nanos_saturatingAdd (a b : Duration) :
    (a.saturatingAdd b).nanos = min Duration.maxNanos (a.nanos + b.nanos) :=
  Nat.min_comm _ _

/-- How long after a success the renewal is due; a margin longer than the lifetime leaves no
time. -/
theorem nanos_renewalDelay (settings : Settings) (lifetime : UInt64) :
    (renewalDelay settings lifetime).nanos =
      lifetime.toNat * 1000000000 - settings.renewalMargin.nanos :=
  rfl

/-- An engine that holds an id while no operation is in progress and no task is in hand. No call
has failed, no stop has failed since the latest success, and the timeline is not shut down. -/
structure Settled (setup : Setup) (s : Service) (t : Timeline Task) : Prop where
  unfailing : Unfailing s.history
  unstopped : (ledger setup.hosts s.history).stopFailed = false
  idle : s.current = none
  hand : inHand s.waiting = []
  held : s.client.registration.id ≠ none
  timeline : s.client.scheduler = .timeline t
  opened : t.shutDown = false

instance (setup : Setup) (s : Service) : Decidable (∃ t, Settled setup s t) :=
  match hscheduler : s.client.scheduler with
  | .timeline t =>
    decidable_of_iff
      (Unfailing s.history ∧ (ledger setup.hosts s.history).stopFailed = false ∧
        s.current.isNone ∧ (inHand s.waiting).isEmpty ∧ s.client.registration.id.isSome ∧
        t.shutDown = false) <| by
      constructor
      · rintro ⟨hunfailing, hunstopped, hidle, hhand, hheld, hopened⟩
        exact ⟨t, hunfailing, hunstopped, Option.isNone_iff_eq_none.mp hidle,
          List.isEmpty_iff.mp hhand, Option.isSome_iff_ne_none.mp hheld, hscheduler, hopened⟩
      · rintro ⟨t', h⟩
        have heq : t' = t := by
          have htimeline := h.timeline
          rw [hscheduler] at htimeline
          cases htimeline
          rfl
        exact ⟨h.unfailing, h.unstopped, Option.isNone_iff_eq_none.mpr h.idle,
          List.isEmpty_iff.mpr h.hand, Option.isSome_iff_ne_none.mpr h.held, heq ▸ h.opened⟩
  | .worker _ => isFalse <| by
    rintro ⟨t, h⟩
    have htimeline := h.timeline
    rw [hscheduler] at htimeline
    cases htimeline

theorem Settled.renewal (hs : Settled setup s t)
    (hkept : Kept setup.settings .resting (scene setup s)) :
    ∃ e, Renews setup.settings (scene setup s) t e ∧
      t.queue.filter (·.task.isRenewal) = [e] := by
  have hfailed : (scene setup s).ledger.failed = false := failed_of_unfailing hs.unfailing
  obtain ⟨e, he⟩ := hkept.alive hfailed hs.held hs.unstopped t hs.timeline hs.opened
  have hwaits : e ∈ t.queue := by
    rcases he.waits with hqueue | hhand
    · exact hqueue
    · have hnothing : e ∈ inHand s.waiting := hhand
      rw [hs.hand] at hnothing
      cases hnothing
  have hrenewal : e.task.isRenewal := by
    rw [he.task]
    rfl
  exact ⟨e, he, (hkept.sound.backed t hs.timeline).renewals_eq_singleton hwaits hrenewal⟩

theorem renewal_waits_of_settled (hrun : run setup (initial (.timeline {})) inputs = some s)
    (hs : Settled setup s t) :
    ∃ success e, (ledger setup.hosts s.history).success = some success ∧
      t.queue.filter (·.task.isRenewal) = [e] ∧
      e.due.nanos = min Duration.maxNanos (success.time.nanos +
        (success.lifetime.toNat * 1000000000 - setup.settings.renewalMargin.nanos)) := by
  have hkept := (Inv.of_run (Or.inl rfl) hrun).resting hs.idle
  obtain ⟨e, he, hfilter⟩ := hs.renewal hkept
  obtain ⟨success, hsuccess, hdue⟩ := he.due
  refine ⟨success, e, hsuccess, hfilter, ?_⟩
  rw [hdue, nanos_saturatingAdd, nanos_renewalDelay]

theorem renewal_waits_once_updated :
    ∃ s t success e,
      run sampleSetup (initial (.timeline {})) (registering 30 ++ updating 300) = some s ∧
        Settled sampleSetup s t ∧ (ledger sampleSetup.hosts s.history).success = some success ∧
        t.queue.filter (·.task.isRenewal) = [e] ∧
        e.due.nanos = min Duration.maxNanos (success.time.nanos +
          (success.lifetime.toNat * 1000000000 - sampleSetup.settings.renewalMargin.nanos)) := by
  have hpossible : (run sampleSetup (initial (.timeline {})) (registering 30 ++ updating 300)).any
      fun s => decide (∃ t, Settled sampleSetup s t) := by
    decide +kernel
  obtain ⟨s, hrun, hcheck⟩ := (Option.any_eq_true _ _).mp hpossible
  obtain ⟨t, hs⟩ := of_decide_eq_true hcheck
  obtain ⟨success, e, hsuccess, hfilter, hdue⟩ := renewal_waits_of_settled hrun hs
  exact ⟨s, t, success, e, hrun, hs, hsuccess, hfilter, hdue⟩

/-- The renewal comes before the lifetime is over that the server was told if and only if the
lifetime that the store named at the latest success is not longer by more than the margin. -/
theorem renewal_in_time_iff (hrun : run setup (initial (.timeline {})) inputs = some s)
    (hs : Settled setup s t) :
    ∃ success announced e, (ledger setup.hosts s.history).success = some success ∧
      (ledger setup.hosts s.history).announced = some announced ∧
      t.queue.filter (·.task.isRenewal) = [e] ∧
      (e.due.nanos ≤ success.time.nanos + announced.toNat * 1000000000 ↔
        success.lifetime.toNat * 1000000000 - setup.settings.renewalMargin.nanos ≤
            announced.toNat * 1000000000 ∨
          Duration.maxNanos ≤ success.time.nanos + announced.toNat * 1000000000) := by
  have hkept := (Inv.of_run (Or.inl rfl) hrun).resting hs.idle
  obtain ⟨e, he, hfilter⟩ := hs.renewal hkept
  obtain ⟨success, hsuccess, hdue⟩ := he.due
  obtain ⟨announced, hannounced⟩ := Option.ne_none_iff_exists'.mp (hkept.sound.announced hs.held)
  refine ⟨success, announced, e, hsuccess, hannounced, hfilter, ?_⟩
  rw [hdue, nanos_saturatingAdd, nanos_renewalDelay]
  omega

theorem renewal_in_time_once_registered :
    ∃ s t success announced e,
      run sampleSetup (initial (.timeline {})) (registering 30) = some s ∧
        Settled sampleSetup s t ∧ (ledger sampleSetup.hosts s.history).success = some success ∧
        (ledger sampleSetup.hosts s.history).announced = some announced ∧
        t.queue.filter (·.task.isRenewal) = [e] ∧
        e.due.nanos ≤ success.time.nanos + announced.toNat * 1000000000 := by
  have hpossible : (run sampleSetup (initial (.timeline {})) (registering 30)).any fun s =>
      decide ((∃ t, Settled sampleSetup s t) ∧
        (ledger sampleSetup.hosts s.history).success = some ⟨.zero, 30⟩ ∧
        (ledger sampleSetup.hosts s.history).announced = some 30) := by
    decide +kernel
  obtain ⟨s, hrun, hcheck⟩ := (Option.any_eq_true _ _).mp hpossible
  obtain ⟨⟨t, hs⟩, hsuccess, hannounced⟩ := of_decide_eq_true hcheck
  obtain ⟨success, announced, e, hsuccess', hannounced', hfilter, hiff⟩ :=
    renewal_in_time_iff hrun hs
  refine ⟨s, t, success, announced, e, hrun, hs, hsuccess', hannounced', hfilter, hiff.mpr ?_⟩
  cases hsuccess.symm.trans hsuccess'
  cases hannounced.symm.trans hannounced'
  exact Or.inl (Nat.sub_le _ _)

/-- The store names a longer lifetime before an update. The server was told 30 seconds, and the
next it hears of the engine is after 299. -/
theorem renewal_late_once_lengthened :
    ∃ s t success announced e,
      run sampleSetup (initial (.timeline {})) (registering 30 ++ updating 300) = some s ∧
        Settled sampleSetup s t ∧ (ledger sampleSetup.hosts s.history).success = some success ∧
        (ledger sampleSetup.hosts s.history).announced = some announced ∧
        t.queue.filter (·.task.isRenewal) = [e] ∧
        ¬ e.due.nanos ≤ success.time.nanos + announced.toNat * 1000000000 := by
  have hpossible : (run sampleSetup (initial (.timeline {})) (registering 30 ++ updating 300)).any
      fun s => decide ((∃ t, Settled sampleSetup s t) ∧
        (ledger sampleSetup.hosts s.history).success = some ⟨.zero, 300⟩ ∧
        (ledger sampleSetup.hosts s.history).announced = some 30) := by
    decide +kernel
  obtain ⟨s, hrun, hcheck⟩ := (Option.any_eq_true _ _).mp hpossible
  obtain ⟨⟨t, hs⟩, hsuccess, hannounced⟩ := of_decide_eq_true hcheck
  obtain ⟨e, he, hfilter⟩ := hs.renewal ((Inv.of_run (Or.inl rfl) hrun).resting hs.idle)
  obtain ⟨success, hsuccess', hdue⟩ := he.due
  cases hsuccess.symm.trans hsuccess'
  refine ⟨s, t, ⟨.zero, 300⟩, 30, e, hrun, hs, hsuccess, hannounced, hfilter, ?_⟩
  rw [hdue]
  decide

end Lwm2mClient.Service
