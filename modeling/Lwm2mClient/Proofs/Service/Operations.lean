import Lwm2mClient.Proofs.Service.Phases

/-!
What the operations ensure. Each of them starts from a resting scene and ends in one, with
a renewal that is kept or planned anew wherever an id is held; only a stop that fails
leaves an id without a renewal.
-/
namespace Lwm2mClient.Service

open Net Engine

variable {setup : Setup} {s : Scene}

theorem lifetime_of_registerParameters {server : ManagementServer} {lifetime : UInt64}
    {binding : BindingMode} (h : registerParameters server = .ok (lifetime, binding)) :
    server.lifetime = some lifetime := by
  unfold registerParameters at h
  split at h
  · rename_i hlifetime _
    cases h
    exact hlifetime
  · cases h

theorem Succeeded.register {server : ManagementServer} {lifetime : UInt64}
    (hserver : s.ledger.search.management? = some server)
    (hlifetime : server.lifetime = some lifetime) (endpoint binding links id : String) :
    Succeeded (s.judge (.register endpoint lifetime binding links) (some ⟨.created, some id⟩))
      lifetime := by
  constructor
  · simp [Scene.judge, Ledger.judge, Ledger.succeed, Scene.clock, hserver, hlifetime]
  · simp [Scene.judge, Ledger.judge]

theorem Succeeded.update {server : ManagementServer} {lifetime : UInt64}
    (hserver : s.ledger.search.management? = some server)
    (hlifetime : server.lifetime = some lifetime) (hannounced : s.ledger.announced ≠ none)
    (id : String) (registration : Option String) :
    Succeeded (s.judge (.update id) (some ⟨.changed, registration⟩)) lifetime := by
  constructor
  · simp [Scene.judge, Ledger.judge, Ledger.succeed, Scene.clock, hserver, hlifetime]
  · simpa [Scene.judge, Ledger.judge, Ledger.succeed] using hannounced

namespace Ensures

theorem grantedId {hosts : Hosts} {wait : Scene → Prop} {response : Response}
    {post : Except Error String → Scene → Prop} (herror : ∀ e, post (.error e) s)
    (hok : ∀ id, response = ⟨.created, some id⟩ → post (.ok id) s) :
    Ensures hosts wait (Engine.grantedId response) post s := by
  obtain ⟨code, registration⟩ := response
  unfold Engine.grantedId
  split
  · rename_i id hcode hid
    cases hcode
    cases hid
    exact hok id rfl
  · refine bind ?_
    apply log rfl
    exact herror _
  · exact herror _

theorem sendRegister (hs : Stage .registering s)
    {post : Except Error (String × UInt64) → Scene → Prop}
    (herror : ∀ e s', Stage .registering s' → post (.error e) s')
    (hok : ∀ id lifetime s', Stage .registering s' → Succeeded s' lifetime →
      post (.ok (id, lifetime)) s') :
    Ensures setup.hosts Paused (Engine.sendRegister setup) post s := by
  have hsteady := Stage.steady .registering
  refine bind ?_
  apply requireManagement hsteady hs
  intro server? s₁ hs₁ hserver
  cases server? with
  | error e => exact herror e s₁ hs₁
  | ok server =>
    dsimp only
    split
    · exact herror _ s₁ hs₁
    · rename_i lifetime binding hparameters
      have hlifetime := lifetime_of_registerParameters hparameters
      refine bind ?_
      apply describeObjects hsteady hs₁
      intro links s₂ hs₂ hfound
      have hserver₂ : s₂.ledger.search.management? = some server := by
        rw [← hserver server rfl, Search.management?, Search.management?, hfound]
      refine bind ?_
      apply ask hsteady hs₂
      · exact herror
      · intro response s₃ hs₃ hsearch
        have hstage := hs₃.judge (.register setup.settings.endpoint lifetime binding.text links)
          (some response)
        refine bind ?_
        apply grantedId
        · intro e
          exact herror e _ hstage
        · intro id hresponse
          cases hresponse
          exact hok id lifetime _ hstage
            (Succeeded.register (hsearch ▸ hserver₂) hlifetime _ _ _ _)

theorem registerNow (hs : Sound s)
    (hlifecycle : s.ledger.failed = false → s.client.registration.lifecycle ≠ .deregistering)
    {post : Bool → Scene → Prop} (h : ∀ v s', Kept setup.settings .resting s' → post v s') :
    Ensures setup.hosts Paused (Engine.registerNow setup) post s := by
  have hstage : Stage .registering (s.fire .register) :=
    Stage.fire hs (Phase.leads_register hlifecycle)
  refine bind ?_
  apply fire
  refine bind ?_
  apply sendRegister hstage
  · intro e s₁ hs₁
    refine bind ?_
    apply log rfl
    refine bind ?_
    apply forget
    exact h _ _ (Kept.forget hs₁.sound).1
  · intro id lifetime s₁ hs₁ hsuccess
    refine bind ?_
    apply log rfl
    refine bind ?_
    apply modify
    refine bind ?_
    apply planRenewal
    refine bind ?_
    apply fire
    apply h
    have hheld : Stage .registering
        (s₁.setRegistration { s₁.client.registration with id := some id }) :=
      ⟨hs₁.sound.setRegistration rfl rfl (fun _ => by simp) (fun _ => hsuccess.announced),
        hs₁.fits⟩
    apply Kept.renewed hheld (by simp [Scene.setRegistration])
      ⟨hsuccess.success, hsuccess.announced⟩
    intro failed r hfits hid
    exact Phase.leads_registered_of_registering hfits hid

theorem bootstrapNow (hs : Kept setup.settings .resting s) {post : Bool → Scene → Prop}
    (h : ∀ v s', Kept setup.settings .resting s' → post v s') :
    Ensures setup.hosts Paused (Engine.bootstrapNow setup) post s := by
  have hresting := Kept.steady setup.settings .resting
  have hbootstrapping := Kept.steady setup.settings .bootstrapping
  refine bind ?_
  apply requireBootstrap hresting hs
  intro server? s₁ hs₁
  cases server? with
  | error e =>
    refine bind ?_
    apply log rfl
    exact h _ s₁ hs₁
  | ok server =>
    refine bind ?_
    apply openSession hresting hs₁
    intro opened s₂ hs₂
    cases opened with
    | false =>
      refine bind ?_
      apply log rfl
      exact h _ s₂ hs₂
    | true =>
      have hs₃ : Kept setup.settings .bootstrapping (s₂.fire .bootstrap) :=
        hs₂.fire (Phase.leads_bootstrap hs₂.fits)
      refine bind ?_
      apply fire
      refine bind ?_
      apply send hbootstrapping hs₃
      intro answer s₄ hs₄ _
      refine bind ?_
      apply awaitBootstrap hbootstrapping hs₄
      intro finished s₅ hs₅
      refine bind ?_
      apply closeSession hbootstrapping hs₅
      intro s₆ hs₆
      cases finished with
      | false =>
        refine bind ?_
        apply forget
        exact h _ _ (Kept.forget hs₆.sound).1
      | true =>
        refine bind ?_
        apply log rfl
        apply registerNow hs₆.sound _ h
        intro _ hlifecycle
        have hfits : s₆.client.registration.lifecycle = .bootstrapping := hs₆.fits
        rw [hfits] at hlifecycle
        cases hlifecycle

theorem sendUpdate (hs : Stage .updating s) {id : String}
    {post : Except Error UInt64 → Scene → Prop}
    (herror : ∀ e s', Stage .updating s' → post (.error e) s')
    (hok : ∀ lifetime s', Stage .updating s' → Succeeded s' lifetime → post (.ok lifetime) s') :
    Ensures setup.hosts Paused (Engine.sendUpdate setup id) post s := by
  have hsteady := Stage.steady .updating
  refine bind ?_
  apply requireManagement hsteady hs
  intro server? s₁ hs₁ hserver
  cases server? with
  | error e => exact herror e s₁ hs₁
  | ok server =>
    dsimp only
    split
    · exact herror _ s₁ hs₁
    · rename_i lifetime hlifetime
      refine bind ?_
      apply ask hsteady hs₁
      · exact herror
      · intro response s₂ hs₂ hsearch
        have hstage := hs₂.judge (.update id) (some response)
        obtain ⟨code, registration⟩ := response
        dsimp only
        split
        · rename_i hcode
          cases hcode
          have hannounced := hs₂.sound.announced hs₂.fits.1
          exact hok lifetime _ hstage
            (Succeeded.update (hsearch ▸ hserver server rfl) hlifetime hannounced _ _)
        · exact herror _ _ hstage

theorem updateNow (hs : Stage .resting s) {post : Bool → Scene → Prop}
    (h : ∀ v s', Kept setup.settings .resting s' → post v s') :
    Ensures setup.hosts Paused (Engine.updateNow setup) post s := by
  have hs₁ := hs.cancelRenewal
  refine bind ?_
  apply cancelRenewal
  refine bind ?_
  apply registration
  cases hid : s.cancelRenewal.client.registration.id with
  | none =>
    refine bind ?_
    apply log rfl
    exact h _ _ ⟨hs₁, Alive.of_unheld hid⟩
  | some id =>
    have hs₂ : Stage .updating (s.cancelRenewal.fire .update) :=
      Stage.fire hs₁.sound (Phase.leads_update hs₁.fits (by simp [hid]))
    refine bind ?_
    apply fire
    refine bind ?_
    apply sendUpdate hs₂
    · intro e s₃ hs₃
      have hforgotten : Kept setup.settings .resting s₃.forget := (Kept.forget hs₃.sound).1
      split
      · rename_i hok
        cases hok
      · refine bind ?_
        apply log rfl
        refine bind ?_
        apply forget
        exact bootstrapNow hforgotten h
      · refine bind ?_
        apply log rfl
        refine bind ?_
        apply registerNow hs₃.sound
        · intro hfailed hlifecycle
          have hupdating := hs₃.fits.2.2 hfailed
          rw [hupdating] at hlifecycle
          cases hlifecycle
        · intro registered s₄ hs₄
          cases registered with
          | true => exact h _ s₄ hs₄
          | false => exact bootstrapNow hs₄ h
      · refine bind ?_
        apply log rfl
        refine bind ?_
        apply forget
        exact h _ _ hforgotten
    · intro lifetime s₃ hs₃ hsuccess
      refine bind ?_
      apply log rfl
      refine bind ?_
      apply planRenewal
      refine bind ?_
      apply fire
      apply h
      apply Kept.renewed hs₃ hs₃.fits.1 hsuccess
      intro failed r hfits _
      exact Phase.leads_registered_of_updating hfits

/-- A request to deregister is no success, whatever the answer. -/
theorem sendDeregister (hs : Kept setup.settings .deregistering s) {server : ManagementServer}
    {id : String} {post : Bool → Scene → Prop}
    (h : ∀ v s', Kept setup.settings .resting s' → (v = true → s'.client.registration.id = none) →
      post v s') :
    Ensures setup.hosts Paused (Engine.sendDeregister setup server id) post
      s := by
  have hsteady := Kept.steady setup.settings .deregistering
  have hretained : ∀ s', Kept setup.settings .deregistering s' →
      Kept setup.settings .resting (s'.fire .retained) := by
    intro s' hs'
    exact hs'.fire (Phase.leads_retained hs'.fits)
  refine bind ?_
  apply ask hsteady hs
  · intro e s₁ hs₁
    refine bind ?_
    apply log rfl
    refine bind ?_
    apply fire
    exact h _ _ (hretained s₁ hs₁) (by simp)
  · intro response s₁ hs₁ _
    dsimp only
    split
    · refine bind ?_
      apply log rfl
      refine bind ?_
      apply forget
      have hforgotten : Kept setup.settings .resting s₁.forget ∧
          s₁.forget.client.registration.id = none := Kept.forget hs₁.sound
      exact h _ _ hforgotten.1 fun _ => hforgotten.2
    · refine bind ?_
      apply log rfl
      refine bind ?_
      apply fire
      exact h _ _ (hretained s₁ hs₁) (by simp)

/-- Where a deregistration reaches its goal, no id is held. -/
theorem deregisterNow (hs : Kept setup.settings .resting s) {post : Bool → Scene → Prop}
    (h : ∀ v s', Kept setup.settings .resting s' → (v = true → s'.client.registration.id = none) →
      post v s') :
    Ensures setup.hosts Paused (Engine.deregisterNow setup) post s := by
  refine bind ?_
  apply registration
  cases hid : s.client.registration.id with
  | none => exact h _ s hs fun _ => hid
  | some id =>
    have hsteady := (Kept.steady setup.settings .resting).holding (some id)
    refine bind ?_
    apply requireManagement hsteady ⟨hs, hid⟩
    intro server? s₁ hs₁ _
    obtain ⟨hs₁, hid₁⟩ := hs₁
    cases server? with
    | error e =>
      refine bind ?_
      apply log rfl
      exact h _ s₁ hs₁ (by simp)
    | ok server =>
      have hs₂ : Kept setup.settings .deregistering (s₁.fire .deregister) :=
        hs₁.fire (Phase.leads_deregister hs₁.fits (by simp [hid₁]))
      refine bind ?_
      apply fire
      exact sendDeregister hs₂ h

theorem startNow (hs : Kept setup.settings .resting s) {post : Bool → Scene → Prop}
    (h : ∀ v s', Kept setup.settings .resting s' → post v s') :
    Ensures setup.hosts Paused (Engine.startNow setup) post s := by
  have hsteady := Kept.steady setup.settings .resting
  refine bind ?_
  apply log rfl
  refine bind ?_
  apply knowsManagement hsteady hs
  intro known s₁ hs₁
  cases known with
  | false => exact bootstrapNow hs₁ h
  | true =>
    refine bind ?_
    apply registerNow hs₁.sound hs₁.not_deregistering
    intro registered s₂ hs₂
    cases registered with
    | true => exact h _ s₂ hs₂
    | false => exact bootstrapNow hs₂ h

/-- A renewal that was taken out may be the one that the registration counts on; it is outdated
otherwise. -/
theorem renew {generation : Nat} (hs : Stage .resting s)
    (halive : s.client.registration.generation ≠ generation → Alive setup.settings s)
    {post : Bool → Scene → Prop} (h : ∀ v s', Kept setup.settings .resting s' → post v s') :
    Ensures setup.hosts Paused (Engine.renew setup generation) post s := by
  refine bind ?_
  apply registration
  split
  · rename_i houtdated
    refine bind ?_
    apply log rfl
    exact h _ s ⟨hs, halive houtdated⟩
  · exact updateNow hs h

end Ensures
end Lwm2mClient.Service
