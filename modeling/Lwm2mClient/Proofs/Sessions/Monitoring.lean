import Lwm2mClient.Proofs.Service.Monitored
import Lwm2mClient.Proofs.Sessions.Reception

/-!
Monitored operations of an engine whose gate is reached by messages. No message opens a
session, so what a monitor tells of a service it tells here as well, provided that it does not
depend on what may happen aside.
-/
namespace Lwm2mClient

open Net Engine

/-! ### The gate -/

namespace Gate

/-- No message opens a session. -/
theorem isActive_of_receive {g : Gate} {m : Message} (h : (g.receive m).isActive = true) :
    g.isActive = true := by
  cases m with
  | finish sender =>
    change (g.finish sender).gate.isActive = true at h
    unfold Gate.finish at h
    split at h <;> exact h
  | delete sender path => exact h
  | cancel =>
    rw [Gate.receive, isActive_close] at h
    cases h

theorem isActive_claim (g : Gate) : g.claim.2.isActive = g.isActive := by
  unfold Gate.claim
  split <;> rfl

theorem result_of_isActive {g : Gate} {peer : ServerInfo} (hshut : g.isActive ≠ true)
    (h : (g.tryOpen peer).gate.isActive = true) : (g.tryOpen peer).result = true := by
  unfold Gate.tryOpen at h ⊢
  split at h
  · rfl
  · exact absurd h hshut
  · exact absurd h hshut

/-- What becomes of a gate when a message arrives, or when a wait begins or ends. -/
inductive Moves (g : Gate) : Gate → Prop
  | stay : Moves g g
  | receive (m : Message) : Moves g (g.receive m)
  | claim : Moves g g.claim.2
  | release (number : Nat) : Moves g (g.release number)

theorem Moves.isActive {g g' : Gate} (h : g.Moves g') (hactive : g'.isActive = true) :
    g.isActive = true := by
  cases h with
  | stay => exact hactive
  | receive m => exact isActive_of_receive hactive
  | claim => exact (isActive_claim g).symm.trans hactive
  | release number => exact hactive

end Gate

/-! ### Monitored services -/

namespace Service

/-- What is known of a client and a history stays true whatever happens aside, as
long as no session is opened. -/
def Unmoved (P : Client Task → List Event → Prop) : Prop :=
  ∀ client client' history events, client'.registration = client.registration →
    (client'.gate.isActive = true → client.gate.isActive = true) →
      (∀ e ∈ events, e.isAside = true) → P client history → P client' (events ++ history)

end Service

namespace Reception

open Service (Monitored Serves Unmoved)

variable {setup : Setup} {r r' : Reception} {inputs : List Input}

/-- Where an operation has its turn, is answered or abandoned, or begins or ends a wait, the
session is left as it is, and what happens to the service otherwise is up to the service. -/
theorem step_onward {input : Input} (hstep : step setup r input = some r')
    (haside : input.isAside = false) :
    ∃ gate, r.gate.Moves gate ∧ gate.session = r.gate.session ∧
      (r'.service = (r.withGate gate).service ∨
        ∃ own, own.isAside = false ∧ (input = .service own ∨ ∃ answer, own = .answer answer) ∧
          (r.withGate gate).service.step setup own = some r'.service) := by
  have hconclude : ∀ (gate : Gate) (finished : Bool),
      (r.withGate gate).conclude setup finished = some r' →
        ∃ own, own.isAside = false ∧ (input = .service own ∨ ∃ answer, own = .answer answer) ∧
          (r.withGate gate).service.step setup own = some r'.service := by
    intro gate finished hr'
    obtain ⟨s', hs', rfl⟩ := Option.map_eq_some_iff.mp hr'
    exact ⟨.answer (.flag finished), rfl, Or.inr ⟨_, rfl⟩, hs'⟩
  cases input with
  | receive message => cases haside
  | pass nanos => cases haside
  | service input =>
    simp only [step] at hstep
    split at hstep
    · obtain ⟨s', hs', rfl⟩ := Option.map_eq_some_iff.mp hstep
      exact ⟨r.gate, .stay, rfl, Or.inr ⟨input, haside, Or.inl rfl, hs'⟩⟩
    · cases hstep
  | beginWait =>
    simp only [step] at hstep
    have hclaim : r.gate.Moves r.gate.claim.2 := .claim
    have hsession : r.gate.claim.2.session = r.gate.session := by
      unfold Gate.claim
      split <;> rfl
    split at hstep
    · split at hstep
      · rename_i session gate hgate
        cases hstep
        rw [hgate] at hclaim hsession
        exact ⟨gate, hclaim, hsession, Or.inl rfl⟩
      · rename_i gate hgate
        rw [hgate] at hclaim hsession
        exact ⟨gate, hclaim, hsession, Or.inr (hconclude _ _ hstep)⟩
    · cases hstep
  | endWait =>
    simp only [step] at hstep
    split at hstep
    · split at hstep
      · rename_i wait _ _
        exact ⟨_, .release wait.session, rfl, Or.inr (hconclude _ _ hstep)⟩
      · cases hstep
    · cases hstep

/-- Either a step changes nothing of the service but its gate, or it is one of the service, where
the gate may have changed before. The service alone decides whether a session is opened. -/
theorem step_service {input : Input} (hstep : step setup r input = some r') :
    ∃ gate, r.gate.Moves gate ∧
      (r'.service = (r.withGate gate).service ∨
        ∃ own, (∀ gate, own ≠ .gate gate) ∧ (∀ index, own = .turn index → input = .service own) ∧
          (r.withGate gate).service.step setup own = some r'.service) := by
  by_cases haside : input.isAside = true
  · cases input with
    | service input =>
      simp only [step] at hstep
      split at hstep
      · rename_i hown
        obtain ⟨s', hs', rfl⟩ := Option.map_eq_some_iff.mp hstep
        refine ⟨r.gate, .stay, Or.inr ⟨input, ?_, fun _ _ => rfl, hs'⟩⟩
        rintro gate rfl
        cases hown
      · cases hstep
    | receive message =>
      cases hstep
      exact ⟨_, .receive message, Or.inl rfl⟩
    | pass nanos =>
      simp only [step] at hstep
      split at hstep
      · cases hstep
        exact ⟨r.gate, .stay, Or.inl rfl⟩
      · cases hstep
    | _ => cases haside
  · obtain ⟨gate, hgate, -, hsame | ⟨own, hown, hinput, hservice⟩⟩ :=
      step_onward hstep (Bool.eq_false_iff.mpr haside)
    · exact ⟨gate, hgate, Or.inl hsame⟩
    · refine ⟨gate, hgate, Or.inr ⟨own, ?_, ?_, hservice⟩⟩
      · rintro gate' rfl
        cases hown
      · rintro index rfl
        exact hinput.resolve_right (by simp)

theorem unfailing_of_step {input : Input} (hstep : step setup r input = some r')
    (hunfailing : Service.Unfailing r'.service.history) :
    Service.Unfailing r.service.history := by
  obtain ⟨gate, -, hsame | ⟨own, -, -, hservice⟩⟩ := step_service hstep
  · rw [hsame] at hunfailing
    exact hunfailing
  · obtain ⟨events, hevents, -⟩ := Service.step_extends hservice
    exact fun e he => hunfailing e (hevents ▸ List.mem_append_right events he)

section

variable {σ : Type} {m : Monitor σ} {sees : σ → Client Service.Task → List Service.Event → Prop}
  {post : Service.Job → Bool → σ → Prop} {rests : Client Service.Task → List Service.Event → Prop}

/-- What happens aside in a service leaves the monitor in its state. -/
theorem monitored_aside {s s' : Service} (hsees : ∀ x, Unmoved (sees x)) (hrests : Unmoved rests)
    (h : Monitored m sees post rests s) {own : Service.Input} (hgate : ∀ gate, own ≠ .gate gate)
    (hstep : s.step setup own = some s') (haside : own.isAside = true) :
    Monitored m sees post rests s' := by
  have hmoved := Service.step_aside hstep haside
  obtain ⟨events, hevents, hquiet⟩ := hmoved.history
  have hactive : s'.client.gate.isActive = true → s.client.gate.isActive = true := by
    rw [hmoved.gate]
    unfold Service.Input.onGate
    split
    · intro h
      cases h.symm.trans (Gate.isActive_close _)
    · exact absurd rfl (hgate _)
    · exact id
  refine h.aside hmoved.current (fun hs => ?_) fun x hx => ?_
  · rw [hevents]
    exact hrests _ _ _ _ hmoved.registration hactive hquiet hs
  · rw [hevents]
    exact hsees x _ _ _ _ hmoved.registration hactive hquiet hx

theorem monitored_of_step (hm : Serves setup m sees post rests) (hsees : ∀ x, Unmoved (sees x))
    (hrests : Unmoved rests) {input : Input} (h : Attended setup r)
    (hmonitored : Service.Unfailing r.service.history → Monitored m sees post rests r.service)
    (hstep : step setup r input = some r') (hunfailing : Service.Unfailing r'.service.history) :
    Monitored m sees post rests r'.service := by
  have hbefore := hmonitored (unfailing_of_step hstep hunfailing)
  obtain ⟨gate, hgate, hsteps⟩ := step_service hstep
  have hmoved : Monitored m sees post rests (r.withGate gate).service := by
    refine hbefore.aside rfl (fun hs => ?_) fun x hx => ?_
    · exact hrests r.service.client _ _ [] rfl hgate.isActive (by simp) hs
    · exact hsees x r.service.client _ _ [] rfl hgate.isActive (by simp) hx
  rcases hsteps with hsame | ⟨own, hown, -, hservice⟩
  · rw [hsame]
    exact hmoved
  · cases own with
    | turn index => exact hm.turn hmoved h.inv.waiting hservice
    | answer answer => exact hm.answer hmoved hservice
    | fail =>
      obtain ⟨job, c, next, -, -, hfailed⟩ := Service.step_fail hservice
      rw [hfailed] at hunfailing
      cases hunfailing (.failed job c) List.mem_cons_self
    | _ => exact monitored_aside hsees hrests hmoved hown hservice rfl

/-- What a monitor of every job tells, as long as no call has failed and whatever messages
arrive. -/
theorem monitored_of_run (hm : Serves setup m sees post rests) (hsees : ∀ x, Unmoved (sees x))
    (hrests : Unmoved rests) {scheduler : Scheduler Service.Task}
    (hfresh : scheduler = .timeline {} ∨ scheduler = .worker {})
    (hinitial : rests (Service.initial scheduler).client [])
    (hrun : run setup { service := Service.initial scheduler } inputs = some r)
    (hunfailing : Service.Unfailing r.service.history) :
    Monitored m sees post rests r.service := by
  have hsteps : ∀ {inputs : List Input} {r₀ : Reception}, Attended setup r₀ →
      (Service.Unfailing r₀.service.history → Monitored m sees post rests r₀.service) →
      run setup r₀ inputs = some r → Monitored m sees post rests r.service := by
    intro inputs
    induction inputs with
    | nil =>
      intro r₀ _ hmonitored hrun
      cases hrun
      exact hmonitored hunfailing
    | cons input rest ih =>
      intro r₀ hattended hmonitored hrun
      obtain ⟨r₁, hstep, hrest⟩ := Option.bind_eq_some_iff.mp hrun
      exact ih (hattended.step hstep)
        (monitored_of_step hm hsees hrests hattended hmonitored hstep) hrest
  have hnothing : run setup { service := Service.initial scheduler } [] =
      some { service := Service.initial scheduler } := rfl
  refine hsteps (Attended.of_run hfresh hnothing) (fun _ => ?_) hrun
  exact ⟨fun _ => hinitial, fun thread hthread => by cases hthread⟩

end

end Reception
end Lwm2mClient
