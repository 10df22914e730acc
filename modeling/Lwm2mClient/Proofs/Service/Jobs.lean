import Lwm2mClient.Proofs.Service.Operations

/-!
The jobs of an engine in service. A job comes by itself to where it waits for its turn,
then does its work while it keeps the engine from other operations, and gives up its turn
at once when the work is done.
-/
namespace Lwm2mClient.Service

open Net Engine Program

namespace Job

/-- What a job does while it keeps the engine from other operations. -/
def body (setup : Setup) : Job → Program Bool
  | operation .register => registerNow setup
  | operation .update => updateNow setup
  | operation .bootstrap => bootstrapNow setup
  | operation .deregister => deregisterNow setup
  | operation .stop | operation .shutdown => do
    let result ← deregisterNow setup
    cancelRenewal
    return result
  | task _ _ .start => startNow setup
  | task _ _ (.renewal generation) => renew setup generation

/-- What is left to do when a job has given up its turn. -/
def coda : Job → Bool → Program Bool
  | operation .shutdown, result => .call .shutDownTimeline fun _ => .done result
  | _, result => .done result

/-- What is left to do when the work of a job is done. -/
def close (job : Job) (result : Bool) : Program Bool := .call .release fun _ => job.coda result

/-- What a job has to do when it waits for its turn. -/
def pending (setup : Setup) (job : Job) : Program Bool :=
  .call .acquire fun _ => job.body setup >>= job.close

theorem coda_of_ne {job : Job} (h : job ≠ operation .shutdown) (result : Bool) :
    job.coda result = .done result := by
  unfold coda
  split
  · exact absurd rfl h
  · rfl

theorem outcome?_coda (job : Job) (result : Bool) : outcome? (job.coda result) = some result := by
  unfold coda
  split <;> rfl

/-- A job gives up its turn and goes no further by itself. -/
theorem proceed_close (job : Job) (result : Bool) (client : Client Task) :
    proceed true (job.close result) client =
      { client, holds := false, rest := job.coda result } := rfl

theorem shutdown_eq (setup : Setup) :
    Engine.shutdown setup =
      .call .closeSession fun _ => (operation .shutdown).pending setup := by
  have hclose : ∀ p : Program Bool,
      (exclusively p >>= fun result => .call .shutDownTimeline fun _ => .done result) =
        .call .acquire fun _ => p >>= (operation .shutdown).close := by
    intro p
    change (Program.call .acquire fun _ =>
        (p >>= fun result => .call .release fun _ => .done result) >>=
      fun result => .call .shutDownTimeline fun _ => .done result) = _
    rw [bind_assoc]
    rfl
  change (Program.call .closeSession fun _ => exclusively _ >>= fun result =>
    .call .shutDownTimeline fun _ => .done result) = _
  rw [hclose]
  rfl

/-- How a job comes to where it waits for its turn. A bootstrap may be refused before. -/
theorem proceed_program (setup : Setup) (job : Job) (client : Client Task) :
    ∃ gate lines, Calm lines ∧
      (proceed false (job.program setup) client =
          { client := { client with gate := gate }, lines, holds := false
            rest := job.pending setup } ∨
        job = operation .bootstrap ∧ proceed false (job.program setup) client =
          { client := { client with gate := gate }
            lines, holds := false, rest := .done false }) := by
  have hpending : job.program setup = job.pending setup →
      proceed false (job.program setup) client =
        { client, holds := false, rest := job.pending setup } := by
    intro heq
    rw [heq]
    rfl
  cases job with
  | task due number work =>
    have heq : (task due number work).program setup = (task due number work).pending setup := by
      cases work <;> rfl
    exact ⟨client.gate, [], calm_nil, Or.inl (hpending heq)⟩
  | operation o =>
    cases o with
    | register => exact ⟨client.gate, [], calm_nil, Or.inl (hpending rfl)⟩
    | update => exact ⟨client.gate, [], calm_nil, Or.inl (hpending rfl)⟩
    | deregister => exact ⟨client.gate, [], calm_nil, Or.inl (hpending rfl)⟩
    | stop => exact ⟨client.gate, [], calm_nil, Or.inl (hpending rfl)⟩
    | bootstrap =>
      have heq : proceed false ((operation .bootstrap).program setup) client =
          proceed false (if client.gate.isActive = true then
            (Program.call (.log .bootstrapInProgress) fun _ => .done false)
            else (operation .bootstrap).pending setup) client := rfl
      by_cases hactive : client.gate.isActive = true
      · refine ⟨client.gate, [.bootstrapInProgress], calm_singleton rfl, Or.inr ⟨rfl, ?_⟩⟩
        rw [heq, if_pos hactive]
        rfl
      · refine ⟨client.gate, [], calm_nil, Or.inl ?_⟩
        rw [heq, if_neg hactive]
        rfl
    | shutdown =>
      refine ⟨client.gate.close.gate, client.gate.close.lines, calm_close client.gate, Or.inl ?_⟩
      change proceed false (Engine.shutdown setup) client = _
      rw [shutdown_eq, proceed_of_reply rfl]
      dsimp only
      have hrest : ∀ client' : Client Task,
          proceed false ((operation .shutdown).pending setup) client' =
            { client := client', holds := false, rest := (operation .shutdown).pending setup } :=
        fun _ => rfl
      rw [hrest, List.append_nil]

end Job

/-! ### What the work of a job ensures -/

variable {setup : Setup} {s : Scene}

/-- A job may end with a result: no id is left without a renewal, unless a stop has failed. -/
def Closes (setup : Setup) (job : Job) (result : Bool) (s : Scene) : Prop :=
  Kept setup.settings .resting { s with ledger := s.ledger.note setup.hosts (.ended job result) }

theorem Stage.stopFailed {settings : Settings} (h : Stage .resting s) :
    Kept settings .resting { s with ledger := { s.ledger with stopFailed := true } } := by
  refine ⟨⟨⟨h.sound.backed, h.sound.announced, h.sound.expected⟩, h.fits⟩, ?_⟩
  intro _ _ hstop
  cases hstop

theorem closes_of_kept (h : Kept setup.settings .resting s) (job : Job) (result : Bool) :
    Closes setup job result s := by
  unfold Closes
  rw [Ledger.note_ended]
  split
  · exact h.toStage.stopFailed
  · exact h

theorem closes_of_stop (h : Stage .resting s) {job : Job} (hjob : job.isStop = true)
    {result : Bool}
    (hid : result = true → s.client.registration.id = none) : Closes setup job result s := by
  cases result with
  | true => exact closes_of_kept ⟨h, Alive.of_unheld (hid rfl)⟩ job true
  | false =>
    unfold Closes
    rw [Ledger.note_ended, hjob]
    exact h.stopFailed

/-- The renewal that a registration counts on is in hand of nobody but the job that it was taken
for. -/
theorem Alive.of_other {settings : Settings} {job : Job}
    (h : Alive settings { s with hand := job.taken?.toList ++ s.hand })
    (hother : ∀ due number, job ≠ .task due number (.renewal s.client.registration.generation)) :
    Alive settings s := by
  intro hfailed hid hstop t ht hopen
  obtain ⟨e, he⟩ := h hfailed hid hstop t ht hopen
  refine ⟨e, he.named, he.task, he.due, ?_⟩
  rcases he.waits with hqueue | hhand
  · exact Or.inl hqueue
  · rcases List.mem_append.mp hhand with htaken | hhand
    · cases job with
      | operation o => cases htaken
      | task due number work =>
        have heq : e = ⟨due, number, .work work⟩ := List.mem_singleton.mp htaken
        have htask : Task.work work = .work (.renewal s.client.registration.generation) := by
          have htask := he.task
          rw [heq] at htask
          exact htask
        cases htask
        exact absurd rfl (hother due number)
    · exact Or.inr hhand

/-- The work of a job that has its turn. Until now its own task was in hand. -/
theorem Ensures.body {job : Job}
    (hs : Kept setup.settings .resting { s with hand := job.taken?.toList ++ s.hand }) :
    Ensures setup.hosts Paused (job.body setup) (Closes setup job) s := by
  have hstage : Stage .resting s :=
    ⟨⟨hs.sound.backed, hs.sound.announced, hs.sound.expected⟩, hs.fits⟩
  have hcloses : ∀ result s', Kept setup.settings .resting s' → Closes setup job result s' := by
    intro result s' hs'
    exact closes_of_kept hs' job result
  have hkept :
      (∀ due number, job ≠ .task due number (.renewal s.client.registration.generation)) →
      Kept setup.settings .resting s := by
    intro hother
    exact ⟨hstage, Alive.of_other hs.alive hother⟩
  cases job with
  | task due number work =>
    cases work with
    | start => exact startNow (hkept (by simp)) hcloses
    | renewal generation =>
      apply renew hstage
      · intro houtdated
        apply Alive.of_other hs.alive
        intro due' number' heq
        cases heq
        exact houtdated rfl
      · exact hcloses
  | operation o =>
    have hs₀ : Kept setup.settings .resting s := hkept (by simp)
    have hstop : ∀ job : Job, job.isStop = true →
        Ensures setup.hosts Paused
          (Engine.deregisterNow setup >>= fun result => Engine.cancelRenewal >>= fun _ =>
            pure result)
          (Closes setup job) s := by
      intro job hjob
      refine bind ?_
      apply deregisterNow hs₀
      intro result s₁ hs₁ hid
      refine bind ?_
      apply cancelRenewal
      apply closes_of_stop hs₁.toStage.cancelRenewal hjob
      intro hresult
      rw [Scene.cancelRenewal_id]
      exact hid hresult
    cases o with
    | register => exact registerNow hs₀.sound hs₀.not_deregistering hcloses
    | update => exact updateNow hs₀.toStage hcloses
    | bootstrap => exact bootstrapNow hs₀ hcloses
    | deregister => exact deregisterNow hs₀ fun result s' hs' _ => hcloses result s' hs'
    | stop => exact hstop (.operation .stop) rfl
    | shutdown => exact hstop (.operation .shutdown) rfl

end Lwm2mClient.Service
