import Lwm2mClient.Proofs.Service.Outcomes

/-!
The conduct of the operations. Each of them takes one of its courses, whatever it is answered and
whatever happens while it waits, and comes out as that course tells.
-/
namespace Lwm2mClient.Service

open Net Engine

variable {setup : Setup} {t₀ t t' : Track}

namespace Tracks

section

variable {wait : Call → Track → Prop}

theorem fire {event : LifecycleEvent} {post : Unit → Track → Prop}
    (h : ∀ t', t.Drift t' → post () t') : Tracks wait (Engine.fire event) post t := by
  have hfire : Ensures {} (fun _ => False) (Engine.fire event)
      (fun _ s' => s' = t.scene.fire event) t.scene := Ensures.fire rfl
  refine upkeep hfire (fire_upkeep event) rfl ?_
  rintro - s' rfl
  exact h _ (Track.drift_fire rfl event)

theorem cancelRenewal {post : Unit → Track → Prop} (h : post () t.cancelRenewal) :
    Tracks wait Engine.cancelRenewal post t := by
  have hcancel : Ensures {} (fun _ => False) Engine.cancelRenewal
      (fun _ s' => s' = t.scene.cancelRenewal) t.scene := Ensures.cancelRenewal rfl
  refine upkeep hcancel cancelRenewal_upkeep rfl ?_
  rintro - s' rfl
  exact h

theorem planRenewal {lifetime : UInt64} {post : Unit → Track → Prop}
    (h : post () (t.planRenewal (renewalDelay setup.settings lifetime))) :
    Tracks wait (Engine.planRenewal setup lifetime) post t := by
  have hplan : Ensures {} (fun _ => False) (Engine.planRenewal setup lifetime)
      (fun _ s' => s' = t.scene.planRenewal (renewalDelay setup.settings lifetime)) t.scene :=
    Ensures.planRenewal rfl
  refine upkeep hplan (planRenewal_upkeep setup lifetime) rfl ?_
  rintro - s' rfl
  exact h

theorem forget {post : Unit → Track → Prop} (h : post () t.forget) :
    Tracks wait Engine.forget post t := by
  have hforget : Ensures {} (fun _ => False) Engine.forget
      (fun _ s' => s' = t.scene.forget) t.scene := Ensures.forget rfl
  refine upkeep hforget forget_upkeep rfl ?_
  rintro - s' rfl
  exact h

theorem hold {id : String} {post : Unit → Track → Prop} (h : post () (t.hold id)) :
    Tracks wait (Engine.modify fun r => { r with id := some id }) post t := by
  have hmodify : Ensures {} (fun _ => False) (Engine.modify fun r => { r with id := some id })
      (fun _ s' => s' = t.scene.setRegistration { t.client.registration with id := some id })
      t.scene := Ensures.modify rfl
  refine upkeep hmodify (modify_upkeep _) rfl ?_
  rintro - s' rfl
  exact h

end

/-! ### Registering -/

/-- A success plans the renewal of an id that is held. -/
theorem succeed {lifetime : UInt64} {post : Bool → Track → Prop} (hs : Sane t)
    (hid : t.client.registration.id ≠ none)
    (h : ∀ t', t'.marks = t.marks → Renewed t.generation t' → post true t') :
    Tracks (Poised t₀) (Engine.planRenewal setup lifetime >>= fun _ =>
      Engine.fire .registered >>= fun _ => pure true) post t := by
  refine bind ?_
  apply planRenewal
  refine bind ?_
  apply fire
  intro t' hdrift
  apply h t' hdrift.marks
  refine ⟨(hs.planRenewal hid _).retains hdrift.toRetains, ?_, ?_⟩
  · rw [hdrift.id, t.planRenewal_registration]
    exact hid
  · rw [hdrift.generation, t.planRenewal_generation]
    exact Nat.lt_succ_self _

theorem grantedId {request : Request} {response : Response} (hkind : request.kind = .register)
    {wait : Call → Track → Prop} {post : Except Error String → Track → Prop}
    (hrefused : Exchange.isSuccess (request, some response) = false → ∀ e, post (.error e) t)
    (hgranted : Exchange.isSuccess (request, some response) = true → ∀ id, post (.ok id) t) :
    Tracks wait (Engine.grantedId response) post t := by
  obtain ⟨code, registration⟩ := response
  cases request with
  | register endpoint lifetime binding links =>
    unfold Engine.grantedId
    split
    · rename_i id hcode hid
      cases hcode
      cases hid
      exact hgranted rfl id
    · rename_i hcode hid
      cases hcode
      cases hid
      refine bind ?_
      apply log_unmarked rfl
      exact hrefused rfl _
    · rename_i hother₁ hother₂
      apply hrefused
      cases code with
      | created =>
        cases registration with
        | none => rfl
        | some id => exact absurd rfl (hother₁ id rfl)
      | _ => rfl
  | _ => cases hkind

/-- A Register request, or what keeps it from being sent. -/
theorem sendRegister {post : Except Error (String × UInt64) → Track → Prop} (hs : Ready t₀ t)
    (hunsent : ∀ e t', t.Drift t' → post (.error e) t')
    (hrefused : ∀ e request answer t', t.Drift t' → request.kind = .register →
      Exchange.isSuccess (request, answer) = false →
        post (.error e) (t'.mark (.sent request answer)))
    (hgranted : ∀ id lifetime request answer t', t.Drift t' → request.kind = .register →
      Exchange.isSuccess (request, answer) = true →
        post (.ok (id, lifetime)) (t'.mark (.sent request answer))) :
    Tracks (Poised t₀) (Engine.sendRegister setup) post t := by
  refine bind ?_
  apply reads (requireManagement_reads setup) hs.idles
  intro server? t₁ _ hdrift₁
  have hs₁ := hs.drift hdrift₁
  cases server? with
  | error e => exact hunsent e t₁ hdrift₁
  | ok server =>
    dsimp only
    split
    · exact hunsent _ t₁ hdrift₁
    · rename_i lifetime binding hparameters
      refine bind ?_
      apply reads describeObjects_reads hs₁.idles
      intro links t₂ _ hdrift₂
      have hs₂ := hs₁.drift hdrift₂
      have hdrift := hdrift₁.trans hdrift₂
      refine bind ?_
      apply ask
      · intro peer secure timeout t' hdrift'
        exact (hs₂.drift hdrift').poised rfl
      · intro e _
        exact hunsent e t₂ hdrift
      · intro t' hdrift'
        exact hrefused _ _ none t' (hdrift.trans hdrift') rfl rfl
      · intro response t' hdrift'
        refine bind ?_
        have hkind : (Request.register setup.settings.endpoint lifetime binding.text links).kind =
          .register := rfl
        apply grantedId hkind
        · intro hanswer e
          exact hrefused e _ _ t' (hdrift.trans hdrift') rfl hanswer
        · intro hanswer id
          exact hgranted id lifetime _ _ t' (hdrift.trans hdrift') rfl hanswer

/-- Where an attempt has failed, that is told and the registration is given up. -/
theorem abandon {line : Log.Line} {m : Mark} (hline : (Event.reported line).mark? = some m)
    {marks : List Mark} {post : Bool → Track → Prop} (hs : Sane t') (hleaves : t.Leaves marks t')
    (h : ∀ t'', t.Leaves (marks ++ [m]) t'' → Gone t.generation t'' → post false t'') :
    Tracks (Poised t₀) (Program.log line >>= fun _ => Engine.forget >>= fun _ => pure false)
      post t' := by
  refine bind ?_
  apply log
  refine bind ?_
  apply forget
  rw [Track.note_marked hline]
  have hgone := (hs.mark m).forget
  exact h _ (hgone.leaves rfl (hleaves.mark m)) (hgone.mono hleaves.generation)

theorem registerNow {post : Bool → Track → Prop} (hs : Ready t₀ t)
    (h : ∀ marks result t', Registers marks result → t.Leaves marks t' →
      Concluded t.generation result t' → post result t') :
    Tracks (Poised t₀) (Engine.registerNow setup) post t := by
  refine bind ?_
  apply fire
  intro t₁ hdrift₁
  refine bind ?_
  apply sendRegister (hs.drift hdrift₁)
  · intro e t₂ hdrift₂
    have hdrift := hdrift₁.trans hdrift₂
    apply abandon rfl (hs.drift hdrift).sane hdrift.leaves
    intro t' hleaves hgone
    exact h _ false t' Registers.unsent hleaves hgone
  · intro e request answer t₂ hdrift₂ hkind hanswer
    have hdrift := hdrift₁.trans hdrift₂
    apply abandon rfl ((hs.drift hdrift).sane.mark _) (hdrift.leaves.mark _)
    intro t' hleaves hgone
    exact h _ false t' (Registers.refused hkind hanswer) hleaves hgone
  · intro id lifetime request answer t₂ hdrift₂ hkind hanswer
    have hdrift := hdrift₁.trans hdrift₂
    have hleaves := (hdrift.leaves.mark (.sent request answer)).hold id
    refine bind ?_
    apply log_unmarked rfl
    refine bind ?_
    apply hold
    apply succeed (((hs.drift hdrift).sane.mark (.sent request answer)).hold id)
      (Option.some_ne_none id)
    intro t' hmarks hrenewed
    exact h _ true t' (Registers.granted hkind hanswer) (hrenewed.leaves hmarks hleaves)
      (hrenewed.concluded.mono hleaves.generation)

/-! ### Bootstrapping -/

theorem awaitBootstrap {answer : Option Response} {post : Bool → Track → Prop} (hs : Ready t₀ t)
    (hfailed : ∀ t', t.Drift t' → post false (t'.mark .bootstrapFailed))
    (hfinished : ∀ registration t', answer = some ⟨.changed, registration⟩ → t.Drift t' →
      post true t') :
    Tracks (Poised t₀) (Engine.awaitBootstrap setup answer) post t := by
  unfold Engine.awaitBootstrap
  split
  · refine bind ?_
    apply log
    exact hfailed t (Track.Drift.refl t)
  · rename_i response
    obtain ⟨code, registration⟩ := response
    dsimp only
    split
    · rename_i hcode
      cases hcode
      refine bind ?_
      apply log_unmarked rfl
      refine bind ?_
      apply perform rfl
      intro t' hdrift
      refine ⟨(hs.drift hdrift).poised rfl, ?_⟩
      intro finished
      rw [Track.hear, Track.note_unmarked rfl]
      cases finished with
      | false =>
        refine bind ?_
        apply log
        exact hfailed t' hdrift
      | true => exact hfinished registration t' rfl hdrift
    · refine bind ?_
      apply log
      exact hfailed t (Track.Drift.refl t)

/-- An attempt to bootstrap. Where no session is opened, the registration and its renewal stay. -/
theorem bootstrapNow {post : Bool → Track → Prop} (hs : Ready t₀ t)
    (hunsent : ∀ t', t.Drift t' → post false (t'.mark .bootstrapUnsent))
    (h : ∀ marks result t', Bootstraps marks result → superseded marks = true →
      t.Leaves marks t' → Concluded t.generation result t' → post result t') :
    Tracks (Poised t₀) (Engine.bootstrapNow setup) post t := by
  refine bind ?_
  apply reads (requireBootstrap_reads setup) hs.idles
  intro server? t₁ _ hdrift₁
  cases server? with
  | error e =>
    refine bind ?_
    apply log
    exact hunsent t₁ hdrift₁
  | ok found =>
    obtain ⟨server, address⟩ := found
    refine bind ?_
    apply openSession
    intro opened t₂ hdrift₂
    cases opened with
    | false =>
      refine bind ?_
      apply log
      exact hunsent t₂ (hdrift₁.trans hdrift₂)
    | true =>
      refine bind ?_
      apply fire
      intro t₃ hdrift₃
      refine bind ?_
      apply perform rfl
      intro t₄ hdrift₄
      have hdrift := ((hdrift₁.trans hdrift₂).trans hdrift₃).trans hdrift₄
      refine ⟨(hs.drift hdrift).poised rfl, ?_⟩
      intro answer
      let sent : Mark := .sent (.bootstrap setup.settings.endpoint) answer
      have hs₄ : Ready t₀ (t₄.mark sent) := (hs.drift hdrift).mark rfl
      have hleaves₄ := hdrift.leaves.mark sent
      rw [Track.hear, Track.note_marked rfl]
      refine bind ?_
      apply awaitBootstrap hs₄
      · intro t₅ hdrift₅
        refine bind ?_
        apply closeSession
        intro t₆ hdrift₆
        refine bind ?_
        apply forget
        have hleaves₆ := ((hleaves₄.drift hdrift₅).mark .bootstrapFailed).drift hdrift₆
        have hgone := (((hs₄.drift hdrift₅).sane.mark _).retains hdrift₆.toRetains).forget
        exact h [sent, .bootstrapFailed] false _ (Bootstraps.failed rfl) rfl
          (hgone.leaves rfl hleaves₆) (hgone.mono hleaves₆.generation)
      · intro registration t₅ hanswer hdrift₅
        refine bind ?_
        apply closeSession
        intro t₆ hdrift₆
        have hleaves₆ := hleaves₄.drift (hdrift₅.trans hdrift₆)
        refine bind ?_
        apply log_unmarked rfl
        apply registerNow (hs₄.drift (hdrift₅.trans hdrift₆))
        intro marks result t' hregisters hleaves hconcluded
        cases hanswer
        have hbootstraps : Bootstraps (sent :: marks) result := Bootstraps.finished rfl hregisters
        refine h _ result t' hbootstraps ?_ (hleaves₆.trans hleaves)
          (hconcluded.mono hleaves₆.generation)
        rw [← List.singleton_append, superseded_append, hregisters.superseded, Bool.or_true]

/-- An attempt to register, and one to bootstrap if that fails. -/
theorem escalate {post : Bool → Track → Prop} (hs : Ready t₀ t)
    (h : ∀ marks result t', Escalates marks result → t.Leaves marks t' →
      Concluded t.generation result t' → post result t') :
    Tracks (Poised t₀) (Engine.registerNow setup >>= fun registered =>
      if registered = true then pure true else Engine.bootstrapNow setup) post t := by
  refine bind ?_
  apply registerNow hs
  intro marks result t₁ hregisters hleaves₁ hconcluded₁
  cases result with
  | true => exact h marks true t₁ (Escalates.registered hregisters) hleaves₁ hconcluded₁
  | false =>
    have hgone := hconcluded₁.gone
    apply bootstrapNow (hgone.bare.ready t₀)
    · intro t' hdrift
      have hgone' : Gone t.generation (t'.mark .bootstrapUnsent) :=
        (hgone.retains hdrift.toRetains).mark _
      exact h _ false _ (Escalates.bootstrapped hregisters Bootstraps.unsent)
        ((hleaves₁.drift hdrift).mark _) hgone'
    · intro marks' result t' hbootstraps _ hleaves hconcluded
      exact h _ result t' (Escalates.bootstrapped hregisters hbootstraps) (hleaves₁.trans hleaves)
        (hconcluded.mono hleaves₁.generation)

/-! ### Updating -/

/-- An Update request, or what keeps it from being sent. -/
theorem sendUpdate {id : String} {post : Except Error UInt64 → Track → Prop} (hs : Bare t)
    (hmarks : superseded t.marks = false)
    (hunsent : ∀ e t', e.isLocal = true → t.Drift t' → post (.error e) t')
    (htimeout : ∀ t', t.Drift t' → post (.error .timeout) (t'.mark (.sent (.update id) none)))
    (hrejected : ∀ response t', t.Drift t' → response.code ≠ .changed →
      post (.error (.rejected response.code)) (t'.mark (.sent (.update id) (some response))))
    (hupdated : ∀ lifetime registration t', t.Drift t' →
      post (.ok lifetime) (t'.mark (.sent (.update id) (some ⟨.changed, registration⟩)))) :
    Tracks (Poised t₀) (Engine.sendUpdate setup id) post t := by
  refine bind ?_
  apply reads (requireManagement_reads setup) (hs.ready t₀).idles
  intro server? t₁ hlocal hdrift₁
  cases server? with
  | error e => exact hunsent e t₁ (hlocal e rfl) hdrift₁
  | ok server =>
    dsimp only
    split
    · exact hunsent _ t₁ rfl hdrift₁
    · rename_i lifetime _
      refine bind ?_
      apply ask
      · intro peer secure timeout t' hdrift'
        have hdrift := hdrift₁.trans hdrift'
        refine ⟨(hs.retains hdrift.toRetains).ready t₀, fun _ => ?_⟩
        rw [hdrift.marks]
        exact hmarks
      · intro e he
        exact hunsent e t₁ he hdrift₁
      · intro t' hdrift'
        exact htimeout t' (hdrift₁.trans hdrift')
      · intro response t' hdrift'
        obtain ⟨code, registration⟩ := response
        dsimp only
        split
        · rename_i hcode
          cases hcode
          exact hupdated lifetime registration t' (hdrift₁.trans hdrift')
        · rename_i hcode
          exact hrejected ⟨code, registration⟩ t' (hdrift₁.trans hdrift') hcode

/-- An update cancels the renewal first, so it comes out with a registration or without any. -/
theorem updateNow {post : Bool → Track → Prop} (hs : Sane t) (hmarks : superseded t.marks = false)
    (h : ∀ marks result t', Updates marks result → t.Leaves marks t' →
      Concluded t.generation result t' → post result t') :
    Tracks (Poised t₀) (Engine.updateNow setup) post t := by
  -- from here on no renewal is to start, so every way to fail leaves none behind
  have hbare := hs.cancelRenewal
  have hleaves := t.cancelRenewal_leaves
  have hlater : t.generation < t.cancelRenewal.generation := by
    rw [t.cancelRenewal_generation]
    exact Nat.lt_succ_self _
  refine bind ?_
  apply cancelRenewal
  refine bind ?_
  apply registration
  cases hid : t.cancelRenewal.client.registration.id with
  | none =>
    refine bind ?_
    apply log
    have hgone : Gone t.generation t.cancelRenewal := ⟨hbare, hid, hlater⟩
    exact h [.updateSkipped] false _ Updates.skipped (hleaves.mark .updateSkipped) (hgone.mark _)
  | some id =>
    refine bind ?_
    apply fire
    intro t₁ hdrift₁
    have hbare₁ := hbare.retains hdrift₁.toRetains
    have hmarks₁ : superseded t₁.marks = false := by
      rw [hdrift₁.marks]
      exact hmarks
    have hleaves₁ : ∀ t', t₁.Drift t' → t.Leaves [] t' :=
      fun t' hdrift => hleaves.drift (hdrift₁.trans hdrift)
    have hbare' : ∀ t' m, t₁.Drift t' → Bare (t'.mark m) :=
      fun t' m hdrift => (hbare₁.retains hdrift.toRetains).mark m
    refine bind ?_
    apply sendUpdate hbare₁ hmarks₁
    · intro e t' he hdrift
      have hvain : Tracks (Poised t₀) (Program.log (.updateFailed e) >>= fun _ =>
          Engine.forget >>= fun _ => pure false) post t' := by
        apply abandon rfl (hbare₁.retains hdrift.toRetains).sane (hleaves₁ t' hdrift)
        intro t'' hleaves'' hgone
        exact h [.updateFailed] false t'' Updates.unsent hleaves'' hgone
      cases e with
      | timeout => cases he
      | rejected code => cases he
      | _ => exact hvain
    · intro t' hdrift
      have hleaves' := (hleaves₁ t' hdrift).mark (.sent (.update id) none)
      have hgone := (hbare' t' (.sent (.update id) none) hdrift).sane.forget
      have hleaves'' := hgone.leaves rfl hleaves'
      refine bind ?_
      apply log_unmarked rfl
      refine bind ?_
      apply forget
      apply bootstrapNow (hgone.bare.ready t₀)
      · intro t'' hdrift'
        have hgone' :=
          ((hgone.retains hdrift'.toRetains).mono hleaves'.generation).mark .bootstrapUnsent
        exact h [.sent (.update id) none, .bootstrapUnsent] false _
          (Updates.timedOut Bootstraps.unsent) ((hleaves''.drift hdrift').mark _) hgone'
      · intro marks result t'' hbootstraps _ hmore hconcluded
        exact h (.sent (.update id) none :: marks) result t'' (Updates.timedOut hbootstraps)
          (hleaves''.trans hmore) (hconcluded.mono hleaves''.generation)
    · intro response t' hdrift hcode
      have hleaves' := (hleaves₁ t' hdrift).mark (.sent (.update id) (some response))
      refine bind ?_
      apply log_unmarked rfl
      apply escalate ((hbare' t' _ hdrift).ready t₀)
      intro marks result t'' hescalates hmore hconcluded
      exact h (.sent (.update id) (some response) :: marks) result t''
        (Updates.rejected hcode hescalates) (hleaves'.trans hmore)
          (hconcluded.mono hleaves'.generation)
    · intro lifetime answered t' hdrift
      have hleaves' := (hleaves₁ t' hdrift).mark (.sent (.update id) (some ⟨.changed, answered⟩))
      have hheld : t'.client.registration.id ≠ none := by
        rw [hdrift.id, hdrift₁.id, hid]
        exact Option.some_ne_none id
      refine bind ?_
      apply log_unmarked rfl
      apply succeed (hbare' t' _ hdrift).sane hheld
      intro t'' hmarks'' hrenewed
      exact h [.sent (.update id) (some ⟨.changed, answered⟩)] true t'' Updates.updated
        (hrenewed.leaves hmarks'' hleaves') (hrenewed.concluded.mono hleaves'.generation)

/-! ### The first decision -/

theorem startNow {post : Bool → Track → Prop} (hs : Ready t₀ t)
    (hunsent : ∀ t', t.Drift t' → post false (t'.mark .bootstrapUnsent))
    (h : ∀ marks result t', Starts marks result → superseded marks = true → t.Leaves marks t' →
      Concluded t.generation result t' → post result t') :
    Tracks (Poised t₀) (Engine.startNow setup) post t := by
  refine bind ?_
  apply log_unmarked rfl
  refine bind ?_
  apply reads (knowsManagement_reads setup) hs.idles
  intro known t₁ _ hdrift₁
  cases known with
  | true =>
    apply escalate (hs.drift hdrift₁)
    intro marks result t' hescalates hleaves hconcluded
    exact h marks result t' (Starts.known hescalates) hescalates.superseded
      (hdrift₁.leaves.trans hleaves) (hconcluded.mono hdrift₁.leaves.generation)
  | false =>
    apply bootstrapNow (hs.drift hdrift₁)
    · intro t' hdrift
      exact hunsent t' (hdrift₁.trans hdrift)
    · intro marks result t' hbootstraps hmarks hleaves hconcluded
      exact h marks result t' (Starts.unknown hbootstraps) hmarks (hdrift₁.leaves.trans hleaves)
        (hconcluded.mono hdrift₁.leaves.generation)

/-! ### Deregistering -/

theorem deregisterNow {post : Bool → Track → Prop} (hs : Ready t₀ t)
    (hretained : ∀ marks result t', Deregisters marks result → superseded marks = false →
      t'.marks = t.marks ++ marks → t.Retains t' → post result t')
    (hgone : ∀ marks t', Deregisters marks true → superseded marks = true → t.Leaves marks t' →
      Gone t.generation t' → post true t') :
    Tracks (Poised t₀) (Engine.deregisterNow setup) post t := by
  have hunsent : ∀ result t', t.Drift t' → post result t' := by
    intro result t' hdrift
    refine hretained [] result t' Deregisters.unsent rfl ?_ hdrift.toRetains
    rw [hdrift.marks, List.append_nil]
  refine bind ?_
  apply registration
  cases hid : t.client.registration.id with
  | none => exact hunsent true t (Track.Drift.refl t)
  | some id =>
    refine bind ?_
    apply reads (requireManagement_reads setup) hs.idles
    intro server? t₁ _ hdrift₁
    cases server? with
    | error e =>
      refine bind ?_
      apply log_unmarked rfl
      exact hunsent false t₁ hdrift₁
    | ok server =>
      refine bind ?_
      apply fire
      intro t₂ hdrift₂
      have hdrift := hdrift₁.trans hdrift₂
      have hkept : ∀ answer t', t.Drift t' → Exchange.isRelease (.deregister id, answer) = false →
          ∀ t'', (t'.mark (.sent (.deregister id) answer)).Drift t'' → post false t'' := by
        intro answer t' hdrift' hanswer t'' hdrift''
        have hmarks := hdrift'.leaves.mark (.sent (.deregister id) answer)
        have hderegisters : Deregisters [.sent (.deregister id) answer] false :=
          hanswer ▸ Deregisters.sent
        refine hretained _ false t'' hderegisters ?_ (hdrift''.marks.trans hmarks.marks) ?_
        · simp [superseded, Mark.supersedes, Exchange.isSuccess, hanswer]
        · exact hdrift'.toRetains.trans
            ⟨hdrift''.id, hdrift''.renewal, hdrift''.generation, hdrift''.ages⟩
      refine bind ?_
      apply ask
      · intro peer secure timeout t' hdrift'
        exact (hs.drift (hdrift.trans hdrift')).poised rfl
      · intro e _
        refine bind ?_
        apply log_unmarked rfl
        refine bind ?_
        apply fire
        intro t' hdrift'
        exact hunsent false t' (hdrift.trans hdrift')
      · intro t' hdrift'
        refine bind ?_
        apply log_unmarked rfl
        refine bind ?_
        apply fire
        exact hkept none t' (hdrift.trans hdrift') rfl
      · intro response t' hdrift'
        dsimp only
        split
        · rename_i hcode
          have hanswer : Exchange.isRelease (.deregister id, some response) = true := by
            simpa [Exchange.isRelease] using hcode
          have hderegisters : Deregisters [.sent (.deregister id) (some response)] true :=
            hanswer ▸ Deregisters.sent
          have hleaves :=
            (hdrift.trans hdrift').leaves.mark (.sent (.deregister id) (some response))
          have hforgotten :=
            (((hs.drift (hdrift.trans hdrift')).sane.mark
              (.sent (.deregister id) (some response)))).forget
          refine bind ?_
          apply log_unmarked rfl
          refine bind ?_
          apply forget
          refine hgone _ _ hderegisters ?_ (hforgotten.leaves rfl hleaves)
            (hforgotten.mono hleaves.generation)
          simp [superseded, Mark.supersedes, hanswer]
        · rename_i hcode
          refine bind ?_
          apply log_unmarked rfl
          refine bind ?_
          apply fire
          apply hkept (some response) t' (hdrift.trans hdrift')
          simpa [Exchange.isRelease] using hcode

end Tracks
end Lwm2mClient.Service
