import Lwm2mClient.Proofs.Service.Steps

/-!
The renewal on the timeline and the registration that it is for. No renewal waits but the one that
the registration knows of, it is for the present generation, and it waits only while an id is
held. It is alive if it will come at its time: it waits on the timeline, or it was taken from
there and waits for its turn.
-/
namespace Lwm2mClient.Service

open Engine

/-- What holds of a timeline and a registration at every moment. -/
structure Backed (t : Timeline Task) (r : Registration) : Prop where
  numbered : t.Numbered
  named : ∀ number, r.renewal = some (.accepted number) → number ≤ t.accepted
  renewals : ∀ e ∈ t.queue, e.task.isRenewal →
    r.renewal = some (.accepted e.number) ∧ e.task = .work (.renewal r.generation) ∧ r.id ≠ none

/-- Cancels a task, if there is one. -/
def Timeline.cancelAny (t : Timeline Task) : Option TaskHandle → Timeline Task
  | some handle => t.cancel handle
  | none => t

namespace Timeline

theorem cancelAny_accepted (t : Timeline Task) (handle : Option TaskHandle) :
    (cancelAny t handle).accepted = t.accepted := by
  rcases handle with - | ⟨number | -⟩ <;> rfl

theorem cancelAny_shutDown (t : Timeline Task) (handle : Option TaskHandle) :
    (cancelAny t handle).shutDown = t.shutDown := by
  rcases handle with - | ⟨number | -⟩ <;> rfl

theorem mem_cancelAny {t : Timeline Task} {handle : Option TaskHandle} {e : Timeline.Entry Task} :
    e ∈ (cancelAny t handle).queue ↔ e ∈ t.queue ∧ handle ≠ some (.accepted e.number) := by
  rcases handle with - | ⟨number | -⟩
  · simp [cancelAny]
  · simp [cancelAny, Timeline.cancel, ne_comm]
  · simp [cancelAny, Timeline.cancel]

theorem Numbered.cancelAny {t : Timeline Task} (h : t.Numbered) (handle : Option TaskHandle) :
    (cancelAny t handle).Numbered := by
  cases handle with
  | none => exact h
  | some handle => exact h.cancel handle

end Timeline

namespace Backed

variable {t : Timeline Task} {r : Registration}

/-- The renewal depends on nothing else that the registration tells. -/
theorem congr {r' : Registration} (h : Backed t r) (hrenewal : r'.renewal = r.renewal)
    (hgeneration : r'.generation = r.generation) (hid : r.id ≠ none → r'.id ≠ none) :
    Backed t r' := by
  constructor
  · exact h.numbered
  · rw [hrenewal]
    exact h.named
  · intro e he hr
    obtain ⟨hnumber, htask, hheld⟩ := h.renewals e he hr
    rw [hrenewal, hgeneration]
    exact ⟨hnumber, htask, hid hheld⟩

/-- No renewal waits once the one of the registration is cancelled. -/
theorem cancelled (h : Backed t r) {r' : Registration} (hrenewal : r'.renewal = none) :
    Backed (Timeline.cancelAny t r.renewal) r' := by
  constructor
  · exact Timeline.Numbered.cancelAny h.numbered r.renewal
  · intro number hnumber
    rw [hrenewal] at hnumber
    cases hnumber
  · intro e he hr
    obtain ⟨hqueue, hother⟩ := Timeline.mem_cancelAny.mp he
    exact absurd (h.renewals e hqueue hr).1 hother

/-- A renewal that is scheduled takes the place of the one that waits. -/
theorem planned (h : Backed t r) (hid : r.id ≠ none) (delay : Duration) :
    let handed := t.schedule delay (.work (.renewal (r.generation + 1)))
    Backed (Timeline.cancelAny handed.2 r.renewal)
      { r with generation := r.generation + 1, renewal := some handed.1 } := by
  intro handed
  constructor
  · exact Timeline.Numbered.cancelAny (h.numbered.schedule _ _) r.renewal
  · intro number hnumber
    rw [Timeline.cancelAny_accepted]
    exact Timeline.le_accepted_of_schedule (Option.some.inj hnumber)
  · intro e he hr
    obtain ⟨hqueue, hother⟩ := Timeline.mem_cancelAny.mp he
    rcases Timeline.mem_schedule hqueue with hold | ⟨hnumber, htask, -⟩
    · exact absurd (h.renewals e hold hr).1 hother
    · exact ⟨congrArg some hnumber, htask, hid⟩

theorem length_renewals_le (h : Backed t r) : (t.queue.filter (·.task.isRenewal)).length ≤ 1 := by
  apply h.numbered.length_filter_le
  intro a ha b hb hra hrb
  have hnamed := (h.renewals a ha hra).1
  rw [(h.renewals b hb hrb).1] at hnamed
  exact (TaskHandle.accepted.inj (Option.some.inj hnamed)).symm

theorem renewals_eq_singleton (h : Backed t r) {e : Timeline.Entry Task} (he : e ∈ t.queue)
    (hr : e.task.isRenewal) : t.queue.filter (·.task.isRenewal) = [e] := by
  have hmem : e ∈ t.queue.filter (·.task.isRenewal) := List.mem_filter.mpr ⟨he, hr⟩
  have hlength := h.length_renewals_le
  obtain ⟨x, hx⟩ : ∃ x, t.queue.filter (·.task.isRenewal) = [x] := by
    apply List.length_eq_one_iff.mp
    have hpos := List.length_pos_of_mem hmem
    omega
  rw [hx] at hmem ⊢
  rw [List.mem_singleton.mp hmem]

end Backed

/-! ### Scenes -/

/-- What holds of a scene at every moment. -/
structure Sound (s : Scene) : Prop where
  backed : ∀ t, s.client.scheduler = .timeline t → Backed t s.client.registration
  announced : s.client.registration.id ≠ none → s.ledger.announced ≠ none
  expected : s.ledger.failed = false → s.ledger.surprised = false

/-- An entry that will renew the registration in time. -/
structure Renews (settings : Settings) (s : Scene) (t : Timeline Task) (e : Timeline.Entry Task) :
    Prop where
  named : s.client.registration.renewal = some (.accepted e.number)
  task : e.task = .work (.renewal s.client.registration.generation)
  due : ∃ success, s.ledger.success = some success ∧
    e.due = success.time.saturatingAdd (renewalDelay settings success.lifetime)
  waits : e ∈ t.queue ∨ e ∈ s.hand

/-- A registration will be renewed, unless something failed or the timeline was shut down. -/
def Alive (settings : Settings) (s : Scene) : Prop :=
  s.ledger.failed = false → s.client.registration.id ≠ none → s.ledger.stopFailed = false →
    ∀ t, s.client.scheduler = .timeline t → t.shutDown = false → ∃ e, Renews settings s t e

variable {settings : Settings} {s s' : Scene}

theorem Scene.timeline_of_cancelAny {handle : Option TaskHandle} {t' : Timeline Task}
    (h : (s.cancelAny handle).client.scheduler = .timeline t') :
    ∃ t, s.client.scheduler = .timeline t ∧ t' = Timeline.cancelAny t handle := by
  cases handle with
  | none => exact ⟨t', h, rfl⟩
  | some handle =>
    cases hscheduler : s.client.scheduler with
    | timeline t =>
      have hcancel : Scheduler.cancel s.client.scheduler handle = .timeline t' := h
      rw [hscheduler] at hcancel
      cases hcancel
      exact ⟨t, rfl, rfl⟩
    | worker w =>
      have hcancel : Scheduler.cancel s.client.scheduler handle = .timeline t' := h
      rw [hscheduler] at hcancel
      cases hcancel

theorem Sound.drift (h : Sound s) (hdrift : s.Drift s') : Sound s' := by
  constructor
  · intro t' ht'
    obtain ⟨t, ht, htimeline⟩ := hdrift.scheduler t' ht'
    have hbacked := h.backed t ht
    rw [hdrift.registration]
    constructor
    · exact htimeline.numbered hbacked.numbered
    · intro number hnumber
      exact Nat.le_trans (hbacked.named number hnumber) htimeline.accepted
    · intro e he hr
      exact hbacked.renewals e (htimeline.renewals e he hr) hr
  · rw [hdrift.registration, hdrift.ledger]
    exact h.announced
  · rw [hdrift.ledger]
    exact h.expected

theorem Alive.drift (h : Alive settings s) (hdrift : s.Drift s') : Alive settings s' := by
  intro hfailed hid hstop t' ht' hopen'
  rw [hdrift.ledger] at hfailed hstop
  rw [hdrift.registration] at hid
  obtain ⟨t, ht, htimeline⟩ := hdrift.scheduler t' ht'
  obtain ⟨hopen, hkept⟩ := htimeline.kept hopen'
  obtain ⟨e, he⟩ := h hfailed hid hstop t ht hopen
  have hrenewal : e.task.isRenewal := by rw [he.task]; rfl
  refine ⟨e, ?_, ?_, ?_, ?_⟩
  · rw [hdrift.registration]
    exact he.named
  · rw [hdrift.registration]
    exact he.task
  · rw [hdrift.ledger]
    exact he.due
  · rcases he.waits with hqueue | hhand
    · exact hkept e hqueue hrenewal
    · exact Or.inr (hdrift.hand e hhand)

/-- A registration that is not held needs no renewal. -/
theorem Alive.of_unheld (h : s.client.registration.id = none) : Alive settings s := by
  intro _ hid
  exact absurd h hid

/-! ### Steps -/

theorem Sound.setRegistration (h : Sound s) {r : Registration}
    (hrenewal : r.renewal = s.client.registration.renewal)
    (hgeneration : r.generation = s.client.registration.generation)
    (hid : s.client.registration.id ≠ none → r.id ≠ none)
    (hannounced : r.id ≠ none → s.ledger.announced ≠ none) : Sound (s.setRegistration r) := by
  constructor
  · intro t ht
    exact (h.backed t ht).congr hrenewal hgeneration hid
  · exact hannounced
  · exact h.expected

theorem Sound.fire (h : Sound s) {event : LifecycleEvent}
    (hstep : s.ledger.failed = false → s.client.registration.lifecycle.step? event ≠ none) :
    Sound (s.fire event) := by
  cases hnext : s.client.registration.lifecycle.step? event with
  | some next =>
    rw [Scene.fire_of_step hnext]
    exact h.setRegistration rfl rfl id h.announced
  | none =>
    rw [Scene.fire_of_surprise hnext]
    constructor
    · exact h.backed
    · exact h.announced
    · intro hfailed
      exact absurd hnext (hstep hfailed)

theorem Alive.fire (h : Alive settings s) (event : LifecycleEvent) :
    Alive settings (s.fire event) := by
  cases hnext : s.client.registration.lifecycle.step? event with
  | some next =>
    rw [Scene.fire_of_step hnext]
    intro hfailed hid hstop t ht hopen
    obtain ⟨e, he⟩ := h hfailed hid hstop t ht hopen
    exact ⟨e, he.named, he.task, he.due, he.waits⟩
  | none =>
    rw [Scene.fire_of_surprise hnext]
    intro hfailed hid hstop t ht hopen
    obtain ⟨e, he⟩ := h hfailed hid hstop t ht hopen
    exact ⟨e, he.named, he.task, he.due, he.waits⟩

theorem Sound.withoutRenewal (h : Sound s) {id : Option String}
    (hid : id ≠ none → s.client.registration.id ≠ none) : Sound (s.withoutRenewal id) := by
  constructor
  · intro t' ht'
    rw [Scene.withoutRenewal_registration]
    obtain ⟨t, ht, rfl⟩ := Scene.timeline_of_cancelAny ht'
    exact (h.backed t ht).cancelled rfl
  · rw [Scene.withoutRenewal_registration, Scene.withoutRenewal_ledger]
    intro hheld
    exact h.announced (hid hheld)
  · rw [Scene.withoutRenewal_ledger]
    exact h.expected

theorem Scene.planRenewal_of_timeline {t : Timeline Task} (ht : s.client.scheduler = .timeline t)
    (delay : Duration) :
    let handed := t.schedule delay (.work (.renewal (s.client.registration.generation + 1)))
    (s.planRenewal delay).client.scheduler =
        .timeline (Timeline.cancelAny handed.2 s.client.registration.renewal) ∧
      (s.planRenewal delay).client.registration =
        { s.client.registration with
          generation := s.client.registration.generation + 1, renewal := some handed.1 } := by
  intro handed
  unfold Scene.planRenewal
  rw [ht]
  constructor
  · cases s.client.registration.renewal <;> rfl
  · exact Scene.cancelAny_registration _ _

theorem Scene.planRenewal_of_worker {w : Worker Task} (hw : s.client.scheduler = .worker w)
    (delay : Duration) (t : Timeline Task) :
    (s.planRenewal delay).client.scheduler ≠ .timeline t := by
  unfold Scene.planRenewal
  rw [hw]
  cases s.client.registration.renewal <;> simp [Scene.cancelAny, Scheduler.schedule,
    Scheduler.cancel]

theorem Sound.planRenewal (h : Sound s) (hid : s.client.registration.id ≠ none)
    (delay : Duration) : Sound (s.planRenewal delay) := by
  constructor
  · intro t' ht'
    cases hscheduler : s.client.scheduler with
    | timeline t =>
      obtain ⟨htimeline, hregistration⟩ := Scene.planRenewal_of_timeline hscheduler delay
      rw [htimeline] at ht'
      cases ht'
      rw [hregistration]
      exact (h.backed t hscheduler).planned hid delay
    | worker w => exact absurd ht' (Scene.planRenewal_of_worker hscheduler delay t')
  · intro _
    rw [Scene.planRenewal_ledger]
    exact h.announced hid
  · rw [Scene.planRenewal_ledger]
    exact h.expected

/-- A request succeeded just now, and the store gave the server a lifetime. -/
structure Succeeded (s : Scene) (lifetime : UInt64) : Prop where
  success : s.ledger.success = some ⟨s.clock, lifetime⟩
  announced : s.ledger.announced ≠ none

/-- A renewal that is planned after a success will come in time. -/
theorem Alive.planRenewal (h : Sound s) {lifetime : UInt64} (hsuccess : Succeeded s lifetime) :
    Alive settings (s.planRenewal (renewalDelay settings lifetime)) := by
  intro _ _ _ t' ht' hopen'
  cases hscheduler : s.client.scheduler with
  | worker w => exact absurd ht' (Scene.planRenewal_of_worker hscheduler _ t')
  | timeline t =>
    obtain ⟨htimeline, hregistration⟩ :=
      Scene.planRenewal_of_timeline hscheduler (renewalDelay settings lifetime)
    rw [htimeline] at ht'
    cases ht'
    have hopen : t.shutDown = false := by
      rw [Timeline.cancelAny_shutDown, Timeline.schedule_shutDown] at hopen'
      exact hopen'
    obtain ⟨e, hqueue, hhandle, hlater, htask, hdue⟩ := Timeline.schedule_of_open hopen
      (renewalDelay settings lifetime)
      (.work (.renewal (s.client.registration.generation + 1)))
    have hother : s.client.registration.renewal ≠ some (.accepted e.number) := by
      intro hnamed
      have hle := (h.backed t hscheduler).named e.number hnamed
      omega
    have hclock : s.clock = t.now := by
      unfold Scene.clock
      rw [hscheduler]
      rfl
    refine ⟨e, ?_, ?_, ⟨⟨s.clock, lifetime⟩, ?_, ?_⟩, ?_⟩
    · rw [hregistration]
      exact congrArg some hhandle
    · rw [hregistration]
      exact htask
    · rw [Scene.planRenewal_ledger]
      exact hsuccess.success
    · rw [hdue, hclock]
    · exact Or.inl (Timeline.mem_cancelAny.mpr ⟨hqueue, hother⟩)

end Lwm2mClient.Service
