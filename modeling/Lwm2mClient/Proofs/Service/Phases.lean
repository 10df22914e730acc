import Lwm2mClient.Proofs.Service.Asking
import Lwm2mClient.Proofs.Service.Renewal

/-!
The phases of an operation. In each of them the lifecycle stands where the operation has moved it,
as long as no call has failed. After a failure it may stand elsewhere, but an operation that
starts then still leaves no registered state without an id and no unregistered state with one.
-/
namespace Lwm2mClient

/-! ### What the lifecycle makes of an event -/

namespace Lifecycle

variable (l : Lifecycle)

theorem step?_bootstrap :
    l.step? .bootstrap = if l = .bootstrapping then none else some .bootstrapping := by
  cases l <;> rfl

theorem step?_register :
    l.step? .register = if l = .deregistering then none else some .registering := by
  cases l <;> rfl

theorem step?_registered :
    l.step? .registered = if l = .registering ∨ l = .updating
      then some .registered else none := by
  cases l <;> rfl

theorem step?_update : l.step? .update = if l = .registered then some .updating else none := by
  cases l <;> rfl

theorem step?_deregister :
    l.step? .deregister = if l = .registered then some .deregistering else none := by
  cases l <;> rfl

theorem step?_retained :
    l.step? .retained = if l = .deregistering then some .registered else none := by
  cases l <;> rfl

theorem step?_lost : l.step? .lost = some .unregistered := by
  cases l <;> rfl

end Lifecycle

namespace Service

open Engine

/-! ### Phases -/

inductive Phase where
  /-- No request is under way. -/
  | resting
  | registering
  | updating
  | bootstrapping
  | deregistering

/-- What a registration looks like in a phase, given whether a call has failed. -/
def Phase.Fits (failed : Bool) (r : Registration) : Phase → Prop
  | resting =>
    (r.lifecycle = .registered → r.id ≠ none) ∧ (r.lifecycle = .unregistered → r.id = none) ∧
      (failed = false → r.lifecycle = .registered ∨ r.lifecycle = .unregistered)
  | registering =>
    (r.lifecycle = .registering ∨ r.lifecycle = .deregistering) ∧
      (failed = false → r.lifecycle = .registering)
  | updating =>
    r.id ≠ none ∧ r.lifecycle ≠ .unregistered ∧ (failed = false → r.lifecycle = .updating)
  | bootstrapping => r.lifecycle = .bootstrapping
  | deregistering =>
    r.id ≠ none ∧ r.lifecycle ≠ .unregistered ∧ (failed = false → r.lifecycle = .deregistering)

/-- A registration after an event. -/
def after (r : Registration) (event : LifecycleEvent) : Registration :=
  { r with lifecycle := (r.lifecycle.step? event).getD r.lifecycle }

/-- An event leads from one phase to the next, and the lifecycle expects it unless a call has
failed. -/
structure Leads (failed : Bool) (r : Registration) (event : LifecycleEvent)
    (next : Phase) : Prop where
  expected : failed = false → r.lifecycle.step? event ≠ none
  fits : next.Fits failed (after r event)

namespace Phase

variable {failed : Bool} {r : Registration}

/-- An operation may be abandoned in any phase. -/
theorem Fits.abandon {phase : Phase} (h : phase.Fits failed r) : resting.Fits true r := by
  cases phase with
  | resting => exact ⟨h.1, h.2.1, nofun⟩
  | registering =>
    have hother : r.lifecycle ≠ .registered ∧ r.lifecycle ≠ .unregistered := by
      rcases h.1 with hlifecycle | hlifecycle <;> simp [hlifecycle]
    exact ⟨fun heq => absurd heq hother.1, fun heq => absurd heq hother.2, nofun⟩
  | updating => exact ⟨fun _ => h.1, fun heq => absurd heq h.2.1, nofun⟩
  | bootstrapping =>
    have hlifecycle : r.lifecycle = .bootstrapping := h
    have hother : r.lifecycle ≠ .registered ∧ r.lifecycle ≠ .unregistered := by simp [hlifecycle]
    exact ⟨fun heq => absurd heq hother.1, fun heq => absurd heq hother.2, nofun⟩
  | deregistering => exact ⟨fun _ => h.1, fun heq => absurd heq h.2.1, nofun⟩

/-- A phase concerns the lifecycle and the id alone. -/
theorem Fits.congr {phase : Phase} {r' : Registration} (h : phase.Fits failed r)
    (hlifecycle : r'.lifecycle = r.lifecycle) (hid : r'.id = r.id) : phase.Fits failed r' := by
  cases phase <;> simpa only [Fits, hlifecycle, hid] using h

theorem leads_register (h : failed = false → r.lifecycle ≠ .deregistering) :
    Leads failed r .register registering := by
  constructor <;> cases hlifecycle : r.lifecycle <;>
    simp_all [Fits, after, Lifecycle.step?_register]

theorem leads_update (h : resting.Fits failed r) (hid : r.id ≠ none) :
    Leads failed r .update updating := by
  constructor <;> cases hlifecycle : r.lifecycle <;>
    simp_all [Fits, after, Lifecycle.step?_update]

theorem leads_registered_of_registering (h : registering.Fits failed r) (hid : r.id ≠ none) :
    Leads failed r .registered resting := by
  constructor <;> cases hlifecycle : r.lifecycle <;>
    simp_all [Fits, after, Lifecycle.step?_registered]

theorem leads_registered_of_updating (h : updating.Fits failed r) :
    Leads failed r .registered resting := by
  constructor <;> cases hlifecycle : r.lifecycle <;>
    simp_all [Fits, after, Lifecycle.step?_registered]

theorem leads_bootstrap (h : resting.Fits failed r) :
    Leads failed r .bootstrap bootstrapping := by
  constructor <;> cases hlifecycle : r.lifecycle <;>
    simp_all [Fits, after, Lifecycle.step?_bootstrap]

theorem leads_deregister (h : resting.Fits failed r) (hid : r.id ≠ none) :
    Leads failed r .deregister deregistering := by
  constructor <;> cases hlifecycle : r.lifecycle <;>
    simp_all [Fits, after, Lifecycle.step?_deregister]

theorem leads_retained (h : deregistering.Fits failed r) : Leads failed r .retained resting := by
  constructor <;> cases hlifecycle : r.lifecycle <;>
    simp_all [Fits, after, Lifecycle.step?_retained]

theorem leads_lost (hid : r.id = none) : Leads failed r .lost resting := by
  constructor <;> cases hlifecycle : r.lifecycle <;>
    simp_all [Fits, after, Lifecycle.step?_lost]

end Phase

/-! ### Scenes in a phase -/

/-- A scene in a phase of an operation. The renewal may be gone. -/
structure Stage (phase : Phase) (s : Scene) : Prop where
  sound : Sound s
  fits : phase.Fits s.ledger.failed s.client.registration

/-- A scene in a phase of an operation, the renewal being kept. -/
structure Kept (settings : Settings) (phase : Phase) (s : Scene) :
    Prop extends Stage phase s where
  alive : Alive settings s

variable {settings : Settings} {phase next : Phase} {s : Scene}

/-- A scene in which an operation may wait. -/
def Paused (s : Scene) : Prop := ∃ phase, Stage phase s

/-- Wherever an operation is abandoned, nothing is in progress. -/
theorem Stage.abandon (h : Stage phase s) : Kept settings .resting s.fail where
  sound := { h.sound with expected := by intro hfailed; cases hfailed }
  fits := h.fits.abandon
  alive := by intro hfailed; cases hfailed

theorem Stage.steady (phase : Phase) : Steady Paused (Stage phase) := by
  constructor
  · intro s s' h hdrift
    refine ⟨h.sound.drift hdrift, ?_⟩
    rw [hdrift.registration, hdrift.ledger]
    exact h.fits
  · intro s search h
    exact ⟨⟨h.sound.backed, h.sound.announced, h.sound.expected⟩, h.fits⟩
  · intro s h
    exact ⟨phase, h⟩

theorem Kept.steady (settings : Settings) (phase : Phase) :
    Steady Paused (Kept settings phase) := by
  have hstage := Stage.steady phase
  constructor
  · intro s s' h hdrift
    exact ⟨hstage.drift s s' h.toStage hdrift, h.alive.drift hdrift⟩
  · intro s search h
    refine ⟨hstage.search s search h.toStage, ?_⟩
    intro hfailed hid hstop t ht hopen
    obtain ⟨e, he⟩ := h.alive hfailed hid hstop t ht hopen
    exact ⟨e, he.named, he.task, he.due, he.waits⟩
  · intro s h
    exact ⟨phase, h.toStage⟩

theorem Stage.fire (h : Sound s) {event : LifecycleEvent}
    (hleads : Leads s.ledger.failed s.client.registration event next) :
    Stage next (s.fire event) := by
  refine ⟨h.fire hleads.expected, ?_⟩
  have hfits := hleads.fits
  unfold after at hfits
  cases hnext : s.client.registration.lifecycle.step? event with
  | some lifecycle =>
    rw [hnext] at hfits
    rw [Scene.fire_of_step hnext]
    exact hfits
  | none =>
    rw [hnext] at hfits
    rw [Scene.fire_of_surprise hnext]
    exact hfits

theorem Kept.fire (h : Kept settings phase s) {event : LifecycleEvent}
    (hleads : Leads s.ledger.failed s.client.registration event next) :
    Kept settings next (s.fire event) :=
  ⟨Stage.fire h.sound hleads, h.alive.fire event⟩

theorem Scene.fire_id (s : Scene) (event : LifecycleEvent) :
    (s.fire event).client.registration.id = s.client.registration.id := by
  cases hnext : s.client.registration.lifecycle.step? event with
  | some next => rw [Scene.fire_of_step hnext]; rfl
  | none => rw [Scene.fire_of_surprise hnext]

/-- A registration that is given up needs no renewal. -/
theorem Kept.forget (h : Sound s) :
    Kept settings .resting s.forget ∧ s.forget.client.registration.id = none := by
  have hid : (s.withoutRenewal none).client.registration.id = none := by
    rw [Scene.withoutRenewal_registration]
  have hid' : s.forget.client.registration.id = none := by
    unfold Scene.forget
    rw [Scene.fire_id, hid]
  have hsound : Sound (s.withoutRenewal none) :=
    h.withoutRenewal fun hheld => absurd rfl hheld
  have hstage : Stage .resting s.forget := Stage.fire hsound (Phase.leads_lost hid)
  exact ⟨⟨hstage, Alive.of_unheld hid'⟩, hid'⟩

theorem Stage.not_deregistering (h : Stage .resting s) :
    s.ledger.failed = false → s.client.registration.lifecycle ≠ .deregistering := by
  intro hfailed hlifecycle
  rcases h.fits.2.2 hfailed with hregistered | hunregistered
  · rw [hregistered] at hlifecycle
    cases hlifecycle
  · rw [hunregistered] at hlifecycle
    cases hlifecycle

/-- The renewal is cancelled, and nothing else changes. -/
theorem Stage.cancelRenewal (h : Stage phase s) : Stage phase s.cancelRenewal := by
  have hregistration := Scene.withoutRenewal_registration s s.client.registration.id
  have hsound : Sound s.cancelRenewal := h.sound.withoutRenewal id
  refine ⟨hsound, ?_⟩
  change phase.Fits (s.withoutRenewal s.client.registration.id).ledger.failed
    (s.withoutRenewal s.client.registration.id).client.registration
  rw [hregistration, Scene.withoutRenewal_ledger]
  exact h.fits.congr rfl rfl

/-- After a success the renewal is planned anew. -/
theorem Kept.renewed (h : Stage phase s) (hid : s.client.registration.id ≠ none)
    {lifetime : UInt64} (hsuccess : Succeeded s lifetime)
    (hleads : ∀ failed r, phase.Fits failed r → r.id ≠ none →
      Leads failed r .registered .resting) :
    Kept settings .resting
      ((s.planRenewal (renewalDelay settings lifetime)).fire .registered) := by
  let planned := s.planRenewal (renewalDelay settings lifetime)
  have hsound : Sound planned := h.sound.planRenewal hid _
  have halive : Alive settings planned := Alive.planRenewal h.sound hsuccess
  have hlifecycle : planned.client.registration.lifecycle = s.client.registration.lifecycle :=
    Scene.planRenewal_lifecycle s _
  have hid' : planned.client.registration.id = s.client.registration.id :=
    Scene.planRenewal_id s _
  have hfits : phase.Fits planned.ledger.failed planned.client.registration := by
    rw [Scene.planRenewal_ledger]
    exact h.fits.congr hlifecycle hid'
  have hplanned : Kept settings phase planned := ⟨⟨hsound, hfits⟩, halive⟩
  exact hplanned.fire (hleads _ _ hfits (hid' ▸ hid))

/-- An answer may tell of a success, and changes nothing else. -/
theorem Stage.judge (h : Stage phase s) (request : Request) (answer : Option Response) :
    Stage phase (s.judge request answer) := by
  obtain ⟨hfailed, hsurprised, hannounced⟩ :=
    Ledger.judge_changes s.ledger request answer s.clock
  refine ⟨⟨h.sound.backed, ?_, ?_⟩, ?_⟩
  · intro hid
    exact hannounced (h.sound.announced hid)
  · intro hfailed'
    exact hsurprised.trans (h.sound.expected (hfailed ▸ hfailed'))
  · exact hfailed ▸ h.fits

end Service
end Lwm2mClient
