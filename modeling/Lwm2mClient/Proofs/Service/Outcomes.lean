import Lwm2mClient.Proofs.Service.Courses

/-!
How operations come out. A success leaves an id that is held and at most the one renewal
that it planned; a failure gives the registration up with every renewal; and some
operations leave the registration and its renewal as they were. The marks that an operation
leaves tell which of these it was.
-/
namespace Lwm2mClient.Service

open Net Engine

/-! ### Renewals and the registration -/

/-- A renewal that is to start is the one that the registration knows of, and it is for the
present generation; one that is in hand may be outdated. Where one is for the present
generation, an id is held. -/
structure Sane (t : Track) : Prop where
  live : ∀ e ∈ t.client.scheduler.live, e.task.isRenewal →
    t.client.registration.renewal = some (.accepted e.number) ∧
      e.task = .work (.renewal t.generation) ∧
      t.client.registration.id ≠ none
  hand : ∀ e ∈ t.hand, ∀ generation, e.task = .work (.renewal generation) →
    generation ≤ t.generation ∧
      (generation = t.generation → t.client.registration.id ≠ none)

/-- No renewal is to start, and those in hand are outdated. -/
structure Bare (t : Track) : Prop where
  live : ∀ e ∈ t.client.scheduler.live, e.task.isRenewal = false
  hand : ∀ e ∈ t.hand, ∀ generation, e.task = .work (.renewal generation) →
    generation < t.generation

theorem Task.isRenewal_iff {task : Task} :
    task.isRenewal = true ↔ ∃ generation, task = .work (.renewal generation) := by
  constructor
  · intro h
    cases task with
    | work work =>
      cases work with
      | start => cases h
      | renewal generation => exact ⟨generation, rfl⟩
    | other => cases h
  · rintro ⟨generation, rfl⟩
    rfl

variable {t t' : Track}

theorem Bare.sane (h : Bare t) : Sane t where
  live e he hr := by
    rw [h.live e he] at hr
    cases hr
  hand e he generation htask := by
    have hlt := h.hand e he generation htask
    exact ⟨Nat.le_of_lt hlt, fun heq => absurd heq (Nat.ne_of_lt hlt)⟩

/-- A mark changes nothing but the track. -/
theorem Sane.mark (h : Sane t) (m : Mark) : Sane (t.mark m) := ⟨h.live, h.hand⟩

theorem Bare.mark (h : Bare t) (m : Mark) : Bare (t.mark m) := ⟨h.live, h.hand⟩

theorem Sane.retains (h : Sane t) (hretains : t.Retains t') : Sane t' := by
  constructor
  · intro e he hr
    rw [hretains.renewal, hretains.generation, hretains.id]
    exact h.live e (hretains.ages.live e he hr) hr
  · intro e he generation htask
    have hr : e.task.isRenewal = true := Task.isRenewal_iff.mpr ⟨generation, htask⟩
    rw [hretains.generation, hretains.id]
    rcases hretains.ages.taken e he hr with hlive | hhand
    · obtain ⟨-, hpresent, hid⟩ := h.live e hlive hr
      rw [htask] at hpresent
      cases hpresent
      exact ⟨Nat.le_refl _, fun _ => hid⟩
    · exact h.hand e hhand generation htask

theorem Bare.retains (h : Bare t) (hretains : t.Retains t') : Bare t' := by
  constructor
  · intro e he
    rw [← Bool.not_eq_true]
    intro hr
    have hnone := h.live e (hretains.ages.live e he hr)
    rw [hr] at hnone
    cases hnone
  · intro e he generation htask
    have hr : e.task.isRenewal = true := Task.isRenewal_iff.mpr ⟨generation, htask⟩
    rw [hretains.generation]
    rcases hretains.ages.taken e he hr with hlive | hhand
    · rw [h.live e hlive] at hr
      cases hr
    · exact h.hand e hhand generation htask

theorem Scene.mem_live_cancelAny {s : Scene} {handle : Option TaskHandle}
    {e : Timeline.Entry Task} :
    e ∈ (s.cancelAny handle).client.scheduler.live ↔
      e ∈ s.client.scheduler.live ∧ handle ≠ some (.accepted e.number) := by
  rcases handle with - | ⟨number | -⟩
  · simp [Scene.cancelAny]
  · simp [Scene.cancelAny, Scheduler.mem_live_cancel, ne_comm]
  · simp [Scene.cancelAny, Scheduler.cancel_refused]

namespace Track

def cancelRenewal (t : Track) : Track := { t with client := t.scene.cancelRenewal.client }

def planRenewal (t : Track) (delay : Duration) : Track :=
  { t with client := (t.scene.planRenewal delay).client }

def forget (t : Track) : Track := { t with client := t.scene.forget.client }

def hold (t : Track) (id : String) : Track :=
  { t with client :=
    (t.scene.setRegistration { t.client.registration with id := some id }).client }

/-- Moving the lifecycle changes nothing else. -/
theorem drift_fire {s : Scene} (hclient : t.client = s.client) (event : LifecycleEvent) :
    t.Drift { t with client := (s.fire event).client } := by
  cases hnext : s.client.registration.lifecycle.step? event with
  | some next =>
    rw [Scene.fire_of_step hnext]
    refine ⟨⟨?_, ?_, ?_, ?_⟩, rfl⟩
    · exact congrArg (fun client => client.registration.id) hclient.symm
    · exact congrArg (fun client => client.registration.renewal) hclient.symm
    · exact congrArg (fun client => client.registration.generation) hclient.symm
    · change Ages _ s.client.scheduler _ _
      rw [hclient]
      exact Ages.refl _ _
  | none =>
    rw [Scene.fire_of_surprise hnext]
    change t.Drift { t with client := s.client }
    rw [← hclient]
    exact Drift.refl t

end Track

/-- Once the renewal is cancelled, no renewal is to start any more. -/
theorem Sane.withoutRenewal (h : Sane t) (id : Option String) :
    Bare { t with client := (t.scene.withoutRenewal id).client } := by
  constructor
  · intro e he
    rw [← Bool.not_eq_true]
    intro hr
    obtain ⟨hlive, hother⟩ := Scene.mem_live_cancelAny.mp he
    exact hother (h.live e hlive hr).1
  · intro e he generation htask
    have hle := (h.hand e he generation htask).1
    change generation < (t.scene.withoutRenewal id).client.registration.generation
    rw [Scene.withoutRenewal_registration]
    exact Nat.lt_succ_of_le hle

theorem Track.cancelRenewal_registration (t : Track) :
    t.cancelRenewal.client.registration =
      { t.client.registration with generation := t.generation + 1, renewal := none } :=
  Scene.withoutRenewal_registration t.scene t.client.registration.id

theorem Track.cancelRenewal_generation (t : Track) :
    t.cancelRenewal.generation = t.generation + 1 :=
  congrArg Registration.generation t.cancelRenewal_registration

theorem Track.cancelRenewal_leaves (t : Track) : t.Leaves [] t.cancelRenewal where
  marks := (List.append_nil t.marks).symm
  generation := by
    rw [t.cancelRenewal_generation]
    exact Nat.le_succ _

theorem Sane.cancelRenewal (h : Sane t) : Bare t.cancelRenewal :=
  h.withoutRenewal t.client.registration.id

theorem Track.Leaves.hold {marks : List Mark} (h : t.Leaves marks t') (id : String) :
    t.Leaves marks (t'.hold id) := ⟨h.marks, h.generation⟩

theorem Sane.hold (h : Sane t) (id : String) : Sane (t.hold id) where
  live e he hr := by
    obtain ⟨hrenewal, htask, -⟩ := h.live e he hr
    exact ⟨hrenewal, htask, Option.some_ne_none id⟩
  hand e he generation htask :=
    ⟨(h.hand e he generation htask).1, fun _ => Option.some_ne_none id⟩

theorem Track.planRenewal_registration (t : Track) (delay : Duration) :
    (t.planRenewal delay).client.registration =
      { t.client.registration with
        generation := t.generation + 1
        renewal := some (t.client.scheduler.schedule delay
          (.work (.renewal (t.generation + 1)))).1 } :=
  Scene.cancelAny_registration _ _

theorem Track.planRenewal_generation (t : Track) (delay : Duration) :
    (t.planRenewal delay).generation = t.generation + 1 :=
  congrArg Registration.generation (t.planRenewal_registration delay)

theorem Sane.planRenewal (h : Sane t) (hid : t.client.registration.id ≠ none) (delay : Duration) :
    Sane (t.planRenewal delay) := by
  constructor
  · intro e he hr
    rw [t.planRenewal_generation, t.planRenewal_registration]
    obtain ⟨hlive, hother⟩ := Scene.mem_live_cancelAny.mp he
    rcases Scheduler.mem_live_schedule hlive with hold | ⟨hhandle, htask⟩
    · exact absurd (h.live e hold hr).1 hother
    · exact ⟨congrArg some hhandle, htask, hid⟩
  · intro e he generation htask
    have hle := (h.hand e he generation htask).1
    rw [t.planRenewal_generation, t.planRenewal_registration]
    exact ⟨Nat.le_succ_of_le hle, fun _ => hid⟩

/-! ### How an operation comes out -/

/-- The registration is held and its renewal was planned anew, since it was of a generation. -/
structure Renewed (generation : Nat) (t : Track) : Prop where
  sane : Sane t
  held : t.client.registration.id ≠ none
  later : generation < t.generation

/-- The registration was given up since it was of a generation. -/
structure Gone (generation : Nat) (t : Track) : Prop where
  bare : Bare t
  unheld : t.client.registration.id = none
  later : generation < t.generation

/-- An operation that is to make sure of a registration comes out with one, or without any. -/
def Concluded (generation : Nat) (result : Bool) (t : Track) : Prop :=
  if result then Renewed generation t else Gone generation t

variable {generation generation' : Nat} {result : Bool}

theorem Renewed.concluded (h : Renewed generation t) : Concluded generation true t := h

theorem Concluded.renewed (h : Concluded generation true t) : Renewed generation t := h

theorem Concluded.gone (h : Concluded generation false t) : Gone generation t := h

theorem Gone.mono (h : Gone generation t) (hle : generation' ≤ generation) : Gone generation' t :=
  ⟨h.bare, h.unheld, Nat.lt_of_le_of_lt hle h.later⟩

theorem Gone.leaves {t₀ : Track} {marks : List Mark} (h : Gone t.generation t')
    (hmarks : t'.marks = t.marks) (hleaves : t₀.Leaves marks t) : t₀.Leaves marks t' where
  marks := hmarks.trans hleaves.marks
  generation := Nat.le_trans hleaves.generation (Nat.le_of_lt h.later)

theorem Renewed.leaves {t₀ : Track} {marks : List Mark} (h : Renewed t.generation t')
    (hmarks : t'.marks = t.marks) (hleaves : t₀.Leaves marks t) : t₀.Leaves marks t' where
  marks := hmarks.trans hleaves.marks
  generation := Nat.le_trans hleaves.generation (Nat.le_of_lt h.later)

theorem Concluded.mono (h : Concluded generation result t) (hle : generation' ≤ generation) :
    Concluded generation' result t := by
  cases result with
  | true => exact ⟨h.renewed.sane, h.renewed.held, Nat.lt_of_le_of_lt hle h.renewed.later⟩
  | false => exact h.gone.mono hle

theorem Gone.retains (h : Gone generation t) (hretains : t.Retains t') : Gone generation t' where
  bare := h.bare.retains hretains
  unheld := hretains.id.trans h.unheld
  later := hretains.generation ▸ h.later

theorem Gone.mark (h : Gone generation t) (m : Mark) : Gone generation (t.mark m) :=
  ⟨h.bare.mark m, h.unheld, h.later⟩

theorem Sane.forget (h : Sane t) : Gone t.generation t.forget := by
  have hregistration := t.scene.withoutRenewal_registration none
  have hgone : Gone t.generation { t with client := (t.scene.withoutRenewal none).client } := by
    refine ⟨h.withoutRenewal none, ?_, ?_⟩
    · change (t.scene.withoutRenewal none).client.registration.id = none
      rw [hregistration]
    · change _ < (t.scene.withoutRenewal none).client.registration.generation
      rw [hregistration]
      exact Nat.lt_succ_self _
  exact hgone.retains (Track.drift_fire rfl .lost).toRetains

/-! ### Waiting -/

def Call.isUpdate : Call → Bool
  | .send _ _ (.update _) _ => true
  | _ => false

/-- So far an operation has left the registration and its renewal alone, or no renewal is to
start. -/
structure Ready (t₀ t : Track) : Prop where
  sane : Sane t
  undecided : (t₀.Retains t ∧ superseded t.marks = false) ∨
    ∀ e ∈ t.client.scheduler.live, e.task.isRenewal = false

/-- Where an operation may wait. Before it sends an Update request nothing has superseded the
renewal. -/
structure Poised (t₀ : Track) (c : Call) (t : Track) : Prop where
  ready : Ready t₀ t
  first : Call.isUpdate c = true → superseded t.marks = false

variable {t₀ : Track}

theorem Bare.ready (h : Bare t) (t₀ : Track) : Ready t₀ t := ⟨h.sane, Or.inr h.live⟩

theorem Ready.drift (h : Ready t₀ t) (hdrift : t.Drift t') : Ready t₀ t' := by
  refine ⟨h.sane.retains hdrift.toRetains, ?_⟩
  rcases h.undecided with ⟨hretains, hmarks⟩ | hnone
  · refine Or.inl ⟨hretains.trans hdrift.toRetains, ?_⟩
    rw [hdrift.marks]
    exact hmarks
  · refine Or.inr fun e he => ?_
    rw [← Bool.not_eq_true]
    intro hr
    have hnot := hnone e (hdrift.ages.live e he hr)
    rw [hr] at hnot
    cases hnot

theorem Ready.mark (h : Ready t₀ t) {m : Mark} (hm : m.supersedes = false) :
    Ready t₀ (t.mark m) := by
  refine ⟨h.sane.mark m, ?_⟩
  rcases h.undecided with ⟨hretains, hmarks⟩ | hnone
  · refine Or.inl ⟨⟨hretains.id, hretains.renewal, hretains.generation, hretains.ages⟩, ?_⟩
    change superseded (t.marks ++ [m]) = false
    rw [superseded_append, hmarks]
    simp [superseded, hm]
  · exact Or.inr hnone

theorem Ready.poised (h : Ready t₀ t) {c : Call} (hc : Call.isUpdate c = false) :
    Poised t₀ c t :=
  ⟨h, fun hupdate => by rw [hc] at hupdate; cases hupdate⟩

theorem not_isUpdate_of_isIdle {c : Call} (h : isIdle c) : Call.isUpdate c = false := by
  cases c <;> first | rfl | exact absurd h id

/-- Wherever an operation is ready, it may wait for calls that leave the registration alone. -/
theorem Ready.idles (h : Ready t₀ t) :
    ∀ c t', isIdle c → t.Drift t' → Poised t₀ c t' := by
  intro c t' hc hdrift
  exact (h.drift hdrift).poised (not_isUpdate_of_isIdle hc)

end Lwm2mClient.Service
