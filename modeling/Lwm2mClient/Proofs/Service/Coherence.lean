import Lwm2mClient.Proofs.Service.Runs

/-!
What the host of an engine may rely on whenever no operation is in progress. As long as no call
has failed, an id is held exactly in the registered state and no other state but the
unregistered one is left behind. Even after failures in the middle of operations at most one
renewal waits, it is for the present registration, and the registered and the unregistered state
tell the truth about the id.
-/
namespace Lwm2mClient.Service

open Net Engine

variable {setup : Setup} {inputs : List Input} {s : Service}

/-- No run without a failed call fires an event that the lifecycle does not expect, and no
operation of it leaves the lifecycle in an intermediate state. -/
theorem coherent_of_unfailing {scheduler : Scheduler Task}
    (hfresh : scheduler = .timeline {} ∨ scheduler = .worker {})
    (hrun : run setup (initial scheduler) inputs = some s) (hunfailing : Unfailing s.history) :
    Expected s.history ∧
      (s.current = none →
        (s.client.registration.lifecycle = .registered ∧ s.client.registration.id ≠ none) ∨
          (s.client.registration.lifecycle = .unregistered ∧
            s.client.registration.id = none)) := by
  have hinv : Inv setup s := Inv.of_run hfresh hrun
  have hfailed : (scene setup s).ledger.failed = false := failed_of_unfailing hunfailing
  constructor
  · refine expected_of_surprised (?_ : (ledger setup.hosts s.history).surprised = false)
    cases hcurrent : s.current with
    | none => exact (hinv.resting hcurrent).sound.expected hfailed
    | some thread =>
      obtain ⟨phase, hstage⟩ := hinv.paused hcurrent
      exact hstage.sound.expected hfailed
  · intro hcurrent
    obtain ⟨hregistered, hunregistered, hsettled⟩ := (hinv.resting hcurrent).fits
    rcases hsettled hfailed with hlifecycle | hlifecycle
    · exact Or.inl ⟨hlifecycle, hregistered hlifecycle⟩
    · exact Or.inr ⟨hlifecycle, hunregistered hlifecycle⟩

/-! ### A registration -/

/-- A store that names one device management server. -/
def sampleSecurities : Object :=
  ⟨ObjectId.security, .ofList [(0, ⟨0, .ofList
    [(SecurityResource.serverUri, .string "coap://127.0.0.1"),
      (SecurityResource.shortServerId, .integer 1)]⟩)]⟩

/-- The parameters of a registration with a server. -/
def sampleServers (lifetime : Int64) : Object :=
  ⟨ObjectId.server, .ofList [(0, ⟨0, .ofList
    [(ServerResource.shortServerId, .integer 1), (ServerResource.lifetime, .integer lifetime),
      (ServerResource.binding, .string "U")]⟩)]⟩

def sampleSetup : Setup := ⟨{}, {}⟩

/-- The engine registers, and the server accepts. -/
def registering (lifetime : Int64) : List Input :=
  [.operate .register, .turn 0, .answer (.object (some sampleSecurities)),
    .answer (.object (some (sampleServers lifetime))), .answer (.ids []),
    .answer (.response (some ⟨.created, some "r"⟩))]

/-- The engine updates its registration, and the server accepts. -/
def updating (lifetime : Int64) : List Input :=
  [.operate .update, .turn 0, .answer (.object (some sampleSecurities)),
    .answer (.object (some (sampleServers lifetime))),
      .answer (.response (some ⟨.changed, none⟩))]

theorem coherent_once_registered :
    ∃ s, run sampleSetup (initial (.timeline {})) (registering 30) = some s ∧
      Unfailing s.history ∧ Expected s.history ∧ s.current = none ∧
      s.client.registration.lifecycle = .registered ∧ s.client.registration.id ≠ none := by
  have hpossible : (run sampleSetup (initial (.timeline {})) (registering 30)).any fun s =>
      decide (Unfailing s.history ∧ s.current.isNone ∧ s.client.registration.id.isSome) := by
    decide +kernel
  obtain ⟨s, hrun, hcheck⟩ := (Option.any_eq_true _ _).mp hpossible
  obtain ⟨hunfailing, hcurrent, hid⟩ := of_decide_eq_true hcheck
  have hnone : s.current = none := Option.isNone_iff_eq_none.mp hcurrent
  obtain ⟨hexpected, hcoherent⟩ := coherent_of_unfailing (Or.inl rfl) hrun hunfailing
  have hheld : s.client.registration.id ≠ none := Option.isSome_iff_ne_none.mp hid
  rcases hcoherent hnone with ⟨hlifecycle, -⟩ | ⟨-, hunheld⟩
  · exact ⟨s, hrun, hunfailing, hexpected, hnone, hlifecycle, hheld⟩
  · exact absurd hunheld hheld

/-! ### Failures in the middle of operations -/

/-- However many calls have failed, no renewal is left over from an earlier registration. -/
theorem safe_of_run {t : Timeline Task}
    (hrun : run setup (initial (.timeline {})) inputs = some s) (hcurrent : s.current = none)
    (ht : s.client.scheduler = .timeline t) :
    (t.queue.filter (·.task.isRenewal)).length ≤ 1 ∧
      (∀ e ∈ t.queue, e.task.isRenewal →
        e.task = .work (.renewal s.client.registration.generation) ∧
          s.client.registration.id ≠ none) ∧
      (s.client.registration.lifecycle = .registered → s.client.registration.id ≠ none) ∧
      (s.client.registration.lifecycle = .unregistered → s.client.registration.id = none) := by
  have hinv : Inv setup s := Inv.of_run (Or.inl rfl) hrun
  have hkept := hinv.resting hcurrent
  have hbacked : Backed t s.client.registration := hkept.sound.backed t ht
  refine ⟨hbacked.length_renewals_le, ?_, hkept.fits.1, hkept.fits.2.1⟩
  intro e he hr
  exact (hbacked.renewals e he hr).2

/-- The engine registers, and a call fails when it registers once more. -/
def failingAgain : List Input := registering 30 ++ [.operate .register, .turn 0, .fail]

theorem safe_once_failed :
    ∃ s t e, run sampleSetup (initial (.timeline {})) failingAgain = some s ∧ s.current = none ∧
      s.client.scheduler = .timeline t ∧ (t.queue.filter (·.task.isRenewal)).length ≤ 1 ∧
      e ∈ t.queue ∧ e.task = .work (.renewal s.client.registration.generation) ∧
      s.client.registration.lifecycle = .registering ∧ s.client.registration.id ≠ none := by
  have hpossible : (run sampleSetup (initial (.timeline {})) failingAgain).any fun s =>
      decide (s.current.isNone ∧ s.client.registration.lifecycle = .registering ∧
        s.client.scheduler.now?.isSome ∧ s.client.scheduler.entries.any (·.task.isRenewal)) := by
    decide +kernel
  obtain ⟨s, hrun, hcheck⟩ := (Option.any_eq_true _ _).mp hpossible
  obtain ⟨hcurrent, hlifecycle, hvirtual, hrenewal⟩ := of_decide_eq_true hcheck
  have hnone : s.current = none := Option.isNone_iff_eq_none.mp hcurrent
  cases ht : s.client.scheduler with
  | worker w =>
    rw [ht] at hvirtual
    cases hvirtual
  | timeline t =>
    rw [ht] at hrenewal
    obtain ⟨e, he, hr⟩ := List.any_eq_true.mp hrenewal
    obtain ⟨hone, htrue, -, -⟩ := safe_of_run hrun hnone ht
    obtain ⟨htask, hheld⟩ := htrue e he hr
    exact ⟨s, t, e, hrun, hnone, ht, hone, he, htask, hlifecycle, hheld⟩

end Lwm2mClient.Service
