import Lwm2mClient.Proofs.Service.Escalation
import Lwm2mClient.Proofs.Service.Undertakings

/-!
Deregistering is all or nothing. Either the server has confirmed that it knows the registration no
more, and then it is given up with its renewal, or everything is as it was before the operation,
whatever has kept it from its end.
-/
namespace Lwm2mClient.Service

open Net Engine Program

variable {setup : Setup} {s s₁ s' : Service} {job : Job} {own : List Event} {result : Bool}

/-! ### What a job undertakes -/

theorem Course.finishes (h : Course setup s own s') : Finishes setup s s' := by
  induction h with
  | done hidle => exact .idle hidle
  | aside hbusy _ hstep _ ih => exact .next hbusy hstep ih
  | answered hstep _ _ ih =>
    obtain ⟨job, c, next, a, hcurrent, -, -⟩ := step_answer hstep
    exact .next (by rw [hcurrent]; exact Option.some_ne_none _) hstep ih

/-- What a job has sent in its course is what was sent meanwhile. -/
theorem Course.exchanges (h : Course setup s own s') :
    ∃ since, s'.history = since ++ s.history ∧
      Service.exchanges (marksOf since) = Service.exchanges (marksOf own) := by
  induction h with
  | done hidle => exact ⟨[], rfl, rfl⟩
  | aside hbusy haside hstep hrest ih =>
    obtain ⟨since, hsince, hsent⟩ := ih
    obtain ⟨events, hevents, hquiet⟩ := (step_aside hstep haside).history
    have hnothing : Service.exchanges (marksOf (events ++ [])) = [] :=
      exchanges_of_quiet fun e he => exchange?_of_isAside (hquiet e he)
    rw [List.append_nil] at hnothing
    refine ⟨since ++ events, by rw [hsince, hevents, List.append_assoc], ?_⟩
    rw [marksOf_append, exchanges_append, hnothing, List.nil_append, hsent]
  | @answered s s₁ s' answer events own hstep hevents hrest ih =>
    obtain ⟨since, hsince, hsent⟩ := ih
    refine ⟨since ++ events, by rw [hsince, hevents, List.append_assoc], ?_⟩
    rw [marksOf_append, marksOf_append, exchanges_append, exchanges_append, hsent]

/-- What is known of the body of a job, whatever it is answered, is known of the job that was
performed. -/
theorem Performs.undertakes {post : Bool → Undertaking → Prop} (hinv : Inv setup s)
    (hunfailing : Unfailing s.history) (h : Performs setup s job own s')
    (hidle : s.current = none)
    (hkeeps : (job.body setup).Keeps undertaking post ⟨s.client.registration, [], true⟩) :
    ∃ result x, s'.history.head? = some (.ended job result) ∧ post result x ∧
      Service.exchanges (marksOf own) = x.sent := by
  have hunfailing' := h.unfailing hunfailing
  cases h with
  | @mk index thread s₁ _ events own hindex hjob hturn hevents hcourse =>
    subst hjob
    have hpending : s.waiting[index]? = some ⟨thread.job, thread.job.pending setup⟩ := by
      rw [hindex, ← hinv.waiting thread (List.mem_of_getElem? hindex)]
    have hexecutes : Executes setup thread.job s s' :=
      ⟨hidle, index, s₁, hpending, hturn, hcourse.finishes⟩
    obtain ⟨since, hsince, hsent⟩ := hcourse.exchanges
    have hbegin := Undertaking.IsSince.begin False s.client s.history
    have hsees := undertaking_sees False s.client s.history
    have hends :
        Completed (Undertaking.IsSince False s.client s.history) (fun _ => post) thread.job s' ∨
        Abandoned undertaking (Undertaking.IsSince False s.client s.history) thread.job s' :=
      hsees.executes (undertaking_listens s.client s.history) hexecutes hbegin hkeeps
    rcases hends with hcompleted | habandoned
    · obtain ⟨result, x, history, ⟨-, ⟨told, htold, hsent'⟩, -⟩, hpost, hhistory⟩ := hcompleted
      refine ⟨result, x, by rw [hhistory]; rfl, hpost, ?_⟩
      -- The history since the turn is told twice: along the course, and by the monitor.
      have hall : since ++ events = .ended thread.job result :: told := by
        have hwhole :
            (since ++ events) ++ s.history = (.ended thread.job result :: told) ++ s.history := by
          rw [List.append_assoc, ← hevents, ← hsince, hhistory, htold, List.cons_append]
        exact List.append_cancel_right hwhole
      rw [← hsent', marksOf_append, exchanges_append, ← hsent, ← exchanges_append,
        ← marksOf_append, hall, exchanges_cons, exchange?_ended, Option.toList_none,
        List.append_nil]
    · obtain ⟨c, x, history, -, -, -, hhistory⟩ := habandoned
      have hfailure := hunfailing' (.failed thread.job c) (hhistory ▸ List.mem_cons_self)
      cases hfailure

/-- A monitored job that is answered until it ends, with nothing else happening, comes to its
end. -/
theorem Sees.answers {σ : Type} {m : Monitor σ} {sees : σ → Client Task → List Event → Prop}
    {post : Job → Bool → σ → Prop} (hm : Sees m sees)
    (hhears : ∀ x client history c a clock, sees x client history → m.permits x c →
      isAsked c = true →
      ∃ x', m.moves x c a x' ∧ sees x' client (.answered c a clock :: history))
    {answers : List Answer} (hrun : run setup s (answers.map .answer) = some s')
    (hidle' : s'.current = none) (h : s.current = none ∧ Completed sees post job s ∨
      ∃ thread, s.current = some thread ∧ thread.job = job ∧ Followed m sees post thread s) :
    Completed sees post job s' := by
  induction answers generalizing s with
  | nil =>
    cases hrun
    rcases h with ⟨-, hcompleted⟩ | ⟨thread, hcurrent, -⟩
    · exact hcompleted
    · cases hidle'.symm.trans hcurrent
  | cons answer rest ih =>
    obtain ⟨mid, hstep, hrest⟩ := Option.bind_eq_some_iff.mp hrun
    obtain ⟨job', c, next, a, hcurrent, -, rfl⟩ := step_answer hstep
    rcases h with ⟨hnone, -⟩ | ⟨thread, hthread, rfl, hfollowed⟩
    · cases hnone.symm.trans hcurrent
    · cases hcurrent.symm.trans hthread
      obtain ⟨c', next', x, hasked, heq, hx, hpermits, hkeeps⟩ := hfollowed
      dsimp only at heq
      cases heq
      obtain ⟨x', hmove, hx'⟩ :=
        hhears x s.client s.history c a s.client.scheduler.clock hx hpermits hasked
      refine ih hrest ?_
      rcases hm.enter
        (s := { s with current := none }.note (.answered c a s.client.scheduler.clock)) rfl
        (hkeeps a x' hmove) hx' with hend | ⟨thread, hthread, hfollowed⟩
      · exact Or.inl hend
      · exact Or.inr ⟨thread, hthread, by rw [enter_current rfl hthread], hfollowed⟩

/-! ### Deregistering with an id -/

/-- How deregistering comes out where the registration was held under an id: the server has
confirmed that it is gone, or the registration is as it was and nothing else was touched. -/
def Withdraws (start : Registration) (id : String) (result : Bool) (x : Undertaking) : Prop :=
  if result then ∃ response, x.sent = [(.deregister id, some response)] ∧
    (response.code = .deleted ∨ response.code = .notFound)
  else x.registration = start ∧ x.modest = true ∧
    (x.sent = [] ∨ ∃ answer, x.sent = [(.deregister id, answer)] ∧
      Exchange.isRelease (.deregister id, answer) = false)

theorem undertakes_deregisterNow {r : Registration} {id : String}
    (hlifecycle : r.lifecycle = .registered) (hid : r.id = some id) :
    (deregisterNow setup).Keeps undertaking (Withdraws r id) ⟨r, [], true⟩ := by
  refine Keeps.bind (undertakes_registration ?_)
  dsimp only
  rw [hid]
  refine Keeps.bind (undertakes_reads (requireManagement_reads setup) fun found => ?_)
  cases found with
  | error e => exact Keeps.bind (undertakes_log ⟨rfl, rfl, Or.inl rfl⟩)
  | ok server =>
    have hderegister : r.lifecycle.step? .deregister = some .deregistering := by
      rw [hlifecycle]; rfl
    refine Keeps.bind (undertakes_fire hderegister ?_)
    have hretained : ∀ line sent, (sent = [] ∨ ∃ answer, sent = [(.deregister id, answer)] ∧
        Exchange.isRelease (.deregister id, answer) = false) →
        (log line >>= fun _ => fire .retained >>= fun _ => pure false).Keeps undertaking
          (Withdraws r id)
          ⟨{ r with lifecycle := .deregistering }, sent, true⟩ := by
      intro line sent hsent
      have hretained : Lifecycle.deregistering.step? .retained = some .registered := rfl
      refine Keeps.bind (undertakes_log (Keeps.bind (undertakes_fire hretained ?_)))
      refine ⟨?_, rfl, hsent⟩
      rw [← hlifecycle]
    refine Keeps.bind (undertakes_ask (fun e => hretained _ [] (Or.inl rfl)) fun answer => ?_)
    cases answer with
    | none => exact hretained _ _ (Or.inr ⟨none, rfl, rfl⟩)
    | some response =>
      dsimp only [Option.elim]
      split
      · rename_i hcode
        refine Keeps.bind
          (undertakes_log (Keeps.bind (undertakes_upkeep forget_upkeep fun _ x' hsent => ?_)))
        exact ⟨response, hsent, hcode⟩
      · rename_i hcode
        refine hretained _ _ (Or.inr ⟨some response, rfl, ?_⟩)
        simpa [Exchange.isRelease] using hcode

/-- Deregistering succeeds iff it has sent one request and the server has answered that
the registration is gone. -/
theorem Withdraws.result_iff {r : Registration} {id : String} {x : Undertaking}
    (h : Withdraws r id result x) :
    result = true ↔ ∃ response, x.sent = [(.deregister id, some response)] ∧
      (response.code = .deleted ∨ response.code = .notFound) := by
  cases result with
  | true => exact iff_of_true rfl h
  | false =>
    refine iff_of_false Bool.false_ne_true ?_
    rintro ⟨response, hsent, hcode⟩
    have hrelease : Exchange.isRelease (.deregister id, some response) = true := by
      simpa [Exchange.isRelease] using hcode
    obtain ⟨-, -, hnone | ⟨answer, hsent', hkept⟩⟩ := h
    · cases hnone.symm.trans hsent
    · cases hsent'.symm.trans hsent
      rw [hkept] at hrelease
      cases hrelease

/-- The marks of a deregistering tell whether the registration was taken back. -/
theorem Deregisters.superseded_iff {marks : List Mark} (h : Deregisters marks result) :
    superseded marks = true ↔ ∃ x, exchanges marks = [x] ∧ Exchange.isRelease x = true := by
  cases h with
  | unsent => exact iff_of_false (by simp [superseded]) (by simp [exchanges])
  | @sent id answer =>
    have hexchanges :
        exchanges [.sent (.deregister id) answer] = [(.deregister id, answer)] := rfl
    rw [hexchanges]
    constructor
    · intro hmarks
      refine ⟨_, rfl, ?_⟩
      simpa [superseded, Mark.supersedes, Exchange.isSuccess] using hmarks
    · rintro ⟨x, hx, hrelease⟩
      cases hx
      simp [superseded, Mark.supersedes, hrelease]

theorem Deregisters.not_endsInSuccess {marks : List Mark} (h : Deregisters marks result) :
    ¬EndsInSuccess marks := by
  rintro ⟨m, hlast, hsuccess⟩
  cases h with
  | unsent => cases hlast
  | sent =>
    cases hlast
    cases hsuccess

/-- Where an id is held, deregistering takes the registration back or leaves it as it was. -/
theorem Performs.withdraws {generation : Nat} {id? : Option String} {marks : List Mark}
    {id : String} (hinv : Inv setup s) (hwatch : Watch generation id? marks s)
    (hunfailing : Unfailing s.history) (hheld : s.client.registration.id = some id)
    (h : Performs setup s (.operation .deregister) own s') :
    ∃ result, s'.history.head? = some (.ended (.operation .deregister) result) ∧
      (result = true ↔ ∃ response, exchanges (marksOf own) = [(.deregister id, some response)] ∧
        (response.code = .deleted ∨ response.code = .notFound)) ∧
      (result = true → Relinquished s') ∧ (result = false → Preserved s s') := by
  obtain ⟨hidle, hidle', index, _, _, -, hfollows, heffect⟩ := h.concludes hinv hwatch
  have hcoherent := hinv.coherent hidle hunfailing
  have hcoherent' := (h.inv hinv).coherent hidle' (h.unfailing hunfailing)
  have hregistered := hcoherent.registered (hheld ▸ Option.some_ne_none id)
  have hderegisters : Deregisters (marksOf own) _ := hfollows
  obtain ⟨result, x, hended, hwithdraws, hsent⟩ :=
    h.undertakes hinv hunfailing hidle (undertakes_deregisterNow hregistered hheld)
  have hdecided : superseded (marksOf own) = result := by
    rw [Bool.eq_iff_iff, hderegisters.superseded_iff, hsent]
    cases result with
    | true =>
      obtain ⟨response, hsent', hcode⟩ := hwithdraws
      exact iff_of_true ⟨_, hsent', by simpa [Exchange.isRelease] using hcode⟩ rfl
    | false =>
      refine iff_of_false ?_ Bool.false_ne_true
      rintro ⟨y, hy, hrelease⟩
      obtain ⟨-, -, hnone | ⟨answer, hsent', hkept⟩⟩ := hwithdraws
      · cases hnone.symm.trans hy
      · cases hsent'.symm.trans hy
        rw [hkept] at hrelease
        cases hrelease
  refine ⟨result, hended, hsent ▸ hwithdraws.result_iff, ?_, ?_⟩
  · rintro rfl
    cases heffect with
    | retained hretains hmarks => cases hdecided.symm.trans hmarks
    | renewed _ _ hmarks => exact absurd hmarks hderegisters.not_endsInSuccess
    | gone _ hgone _ => exact hgone.relinquished hcoherent'
    | dropped hstop => cases hstop
  · rintro rfl
    cases heffect with
    | retained hretains hmarks => exact hretains.preserved hcoherent hcoherent'
    | renewed _ _ hmarks => exact absurd hmarks hderegisters.not_endsInSuccess
    | gone _ _ hmarks => cases hdecided.symm.trans hmarks
    | dropped hstop => cases hstop

/-! ### Deregistering without an id -/

/-- Where no id is held there is nothing to do. -/
theorem Performs.of_unheld (hinv : Inv setup s) (hunheld : s.client.registration.id = none)
    (h : Performs setup s (.operation .deregister) own s') :
    own = [.ended (.operation .deregister) true] ∧ s'.current = none ∧ s'.client = s.client ∧
      ∃ index, s'.waiting = s.waiting.eraseIdx index := by
  cases h with
  | @mk index thread s₁ _ events own hindex hjob hturn hevents hcourse =>
    obtain ⟨job, hcurrent, hindex', rfl⟩ := step_turn hturn hinv.waiting
    cases hindex.symm.trans hindex'
    dsimp only at hjob
    subst hjob
    have hproceed : proceed true ((Job.operation .deregister).body setup) s.client =
        { client := s.client, holds := true, rest := .done true } := by
      have hclient : s.client =
          { s.client with registration := { s.client.registration with id := none } } := by
        rw [← hunheld]
      rw [hclient]
      rfl
    have hended :
        ({ s with waiting := s.waiting.eraseIdx index }.enter true (.operation .deregister)
        ((Job.operation .deregister).body setup >>= (Job.operation .deregister).close)) =
        { s with
          waiting := s.waiting.eraseIdx index
          history := .ended (.operation .deregister) true :: s.history } := by
      rw [enter_of_finished (by rw [hproceed]) (by rw [hproceed]), hproceed]
      rfl
    rw [hended] at hevents hcourse
    have hevent : events = [.ended (.operation .deregister) true] :=
      (List.append_cancel_right (hevents.symm.trans (List.singleton_append ..).symm))
    cases hcourse with
    | done hidle => exact ⟨by rw [hevent]; rfl, hidle, rfl, index, rfl⟩
    | aside hbusy => exact absurd hcurrent hbusy
    | answered hstep =>
      obtain ⟨job, c, next, a, hbusy, -, -⟩ := step_answer hstep
      cases hcurrent.symm.trans hbusy

/-! ### Calls of the host -/

/-- The host asks for an operation, and the operation has its turn and comes to its end. -/
def Calls (setup : Setup) (s : Service) (o : Operation) (own : List Event)
    (s' : Service) : Prop :=
  ∃ s₁, step setup s (.operate o) = some s₁ ∧ Performs setup s₁ (.operation o) own s'

/-- The host asks for an operation again and again, each time when the last one has come to its
end. -/
inductive Repeats (setup : Setup) (o : Operation) : Service → List (List Event) → Service → Prop
  | none {s : Service} : Repeats setup o s [] s
  | again {s s₁ s' : Service} {own : List Event} {owns : List (List Event)}
      (hcalls : Calls setup s o own s₁) (hrest : Repeats setup o s₁ owns s') :
      Repeats setup o s (own :: owns) s'

/-- To ask for deregistering changes nothing yet. -/
theorem step_deregister (hstep : step setup s (.operate .deregister) = some s₁) :
    s₁.current = s.current ∧ s₁.client = s.client ∧
      s₁.waiting =
        s.waiting ++ [⟨.operation .deregister, (Job.operation .deregister).pending setup⟩] ∧
      s₁.history = .began (.operation .deregister) :: s.history := by
  cases hstep
  exact ⟨rfl, rfl, rfl, rfl⟩

theorem inHand_append_deregister (waiting : List Thread) (rest : Program Bool) :
    inHand (waiting ++ [⟨.operation .deregister, rest⟩]) = inHand waiting := by
  simp [inHand, Job.taken?]

/-- Once the registration is given up, deregistering does nothing, however often it is asked
for. -/
theorem Repeats.of_relinquished {owns : List (List Event)} (hinv : Inv setup s)
    (hs : Relinquished s) (h : Repeats setup .deregister s owns s') :
    (∀ own ∈ owns, own = [.ended (.operation .deregister) true]) ∧ Relinquished s' := by
  induction h with
  | none => exact ⟨nofun, hs⟩
  | @again s s₁ s' own owns hcalls hrest ih =>
    obtain ⟨asked, hstep, hperforms⟩ := hcalls
    obtain ⟨-, hclient, hwaiting, -⟩ := step_deregister hstep
    obtain ⟨hown, -, hclient', index, hwaiting'⟩ :=
      hperforms.of_unheld (hinv.step hstep) (hclient ▸ hs.unheld)
    rw [hclient] at hclient'
    have hrelinquished : Relinquished s₁ := by
      refine ⟨hclient' ▸ hs.unheld, hclient' ▸ hs.lifecycle, hclient' ▸ hs.live, ?_⟩
      intro e he generation htask
      rw [hclient']
      refine hs.hand e ?_ generation htask
      obtain ⟨thread, hthread, htaken⟩ := List.mem_filterMap.mp he
      rw [hwaiting'] at hthread
      rw [← inHand_append_deregister, ← hwaiting]
      exact List.mem_filterMap.mpr ⟨thread, List.mem_of_mem_eraseIdx hthread, htaken⟩
    obtain ⟨howns, hend⟩ := ih (hperforms.inv (hinv.step hstep)) hrelinquished
    refine ⟨?_, hend⟩
    intro own' hmem
    rcases List.mem_cons.mp hmem with rfl | hmem
    · exact hown
    · exact howns own' hmem

theorem Calls.of_answers {answers : List Answer}
    (hrun : run setup s (.operate .deregister :: .turn s.waiting.length :: answers.map .answer) =
      some s')
    (hidle' : s'.current = none) : ∃ own, Calls setup s .deregister own s' := by
  obtain ⟨asked, hasked, hrun⟩ := Option.bind_eq_some_iff.mp hrun
  obtain ⟨turned, hturn, hrun⟩ := Option.bind_eq_some_iff.mp hrun
  obtain ⟨-, -, hwaiting, -⟩ := step_deregister hasked
  obtain ⟨events, hevents, -⟩ := step_extends hturn
  obtain ⟨own, -, hcourse⟩ := Course.of_answers hrun hidle'
  have hindex : asked.waiting[s.waiting.length]? =
      some ⟨.operation .deregister, (Job.operation .deregister).pending setup⟩ := by
    rw [hwaiting, List.getElem?_concat_length]
  exact ⟨own ++ events, asked, hasked, Performs.mk hindex rfl hturn hevents hcourse⟩

/-- Where nothing else happens until a deregistering has failed, the client is what it was. -/
theorem client_of_refused {id : String} {answers : List Answer} (hidle : s.current = none)
    (hlifecycle : s.client.registration.lifecycle = .registered)
    (hheld : s.client.registration.id = some id)
    (hrun : run setup s (.operate .deregister :: .turn s.waiting.length :: answers.map .answer) =
      some s')
    (hidle' : s'.current = none)
    (hended : s'.history.head? = some (.ended (.operation .deregister) false)) :
      s'.client = s.client := by
  obtain ⟨asked, hasked, hrun⟩ := Option.bind_eq_some_iff.mp hrun
  obtain ⟨turned, hturn, hrun⟩ := Option.bind_eq_some_iff.mp hrun
  obtain ⟨hcurrent, hclient, hwaiting, -⟩ := step_deregister hasked
  have hindex : asked.waiting[s.waiting.length]? =
      some ⟨.operation .deregister, (Job.operation .deregister).pending setup⟩ := by
    rw [hwaiting, List.getElem?_concat_length]
  rw [step_of_pending (hcurrent.trans hidle) hindex] at hturn
  cases hturn
  rw [← hclient] at hlifecycle hheld ⊢
  let rested : Service := { asked with waiting := asked.waiting.eraseIdx s.waiting.length }
  have hsees := undertaking_sees True asked.client asked.history
  have hbegin := Undertaking.IsSince.begin True asked.client asked.history
  let post : Job → Bool → Undertaking → Prop := fun _ => Withdraws asked.client.registration id
  have hcompleted : Completed (Undertaking.IsSince True asked.client asked.history) post
      (.operation .deregister) s' := by
    refine hsees.answers (fun x client history c a clock hx _ hc =>
      undertaking_hears hx hc a) hrun hidle' ?_
    have hkeeps : ((Job.operation .deregister).body setup).Keeps undertaking
        (post (.operation .deregister)) ⟨asked.client.registration, [], true⟩ :=
      undertakes_deregisterNow hlifecycle hheld
    have hnone : rested.current = none := hcurrent.trans hidle
    rcases Sees.enter hsees hnone hkeeps hbegin with hend | ⟨thread, hthread, hfollowed⟩
    · exact Or.inl hend
    · exact Or.inr ⟨thread, hthread, by rw [enter_current hnone hthread], hfollowed⟩
  obtain ⟨result, x, history, ⟨hregistration, -, halone⟩, hwithdraws, hhistory⟩ := hcompleted
  rw [hhistory] at hended
  cases hended
  obtain ⟨hsame, hmodest, -⟩ := hwithdraws
  obtain ⟨hscheduler, hgate⟩ := halone trivial hmodest
  cases hclient' : s'.client
  cases hasked' : asked.client
  simp_all

/-- Deregistering is all or nothing. Where an id is held and no operation is in progress it
can be asked for and comes to its end. It succeeds iff it has sent exactly one request, to
deregister under this id, and the answer is that the registration is deleted or not found.
Then the registration is given up with every renewal, and whoever asks again does nothing and
succeeds. Otherwise the registration is as it was and so is the renewal that waits, unless
others take it out or shut the timeline down in the meantime; if nothing else happens the
whole client is as it was. -/
theorem deregistration_of_unfailing {scheduler : Scheduler Task} {inputs : List Input}
    {id : String} (hfresh : scheduler = .timeline {} ∨ scheduler = .worker {})
    (hrun : run setup (initial scheduler) inputs = some s) (hunfailing : Unfailing s.history)
    (hidle : s.current = none) (hheld : s.client.registration.id = some id) :
    (∃ own s', Calls setup s .deregister own s') ∧
      (∀ own s', Calls setup s .deregister own s' → ∃ result : Bool,
        s'.history.head? = some (.ended (.operation .deregister) result) ∧
        (result = true ↔ ∃ response, exchanges (marksOf own) = [(.deregister id, some response)] ∧
          (response.code = .deleted ∨ response.code = .notFound)) ∧
        (result = true → Relinquished s' ∧ ∀ owns s'', Repeats setup .deregister s' owns s'' →
          (∀ own ∈ owns, own = [.ended (.operation .deregister) true]) ∧ Relinquished s'') ∧
        (result = false → Preserved s s')) ∧
      ∀ (answers : List Answer) (s' : Service),
        run setup s (.operate .deregister :: .turn s.waiting.length :: answers.map .answer) =
          some s' →
        s'.current = none → s'.history.head? = some (.ended (.operation .deregister) false) →
        s'.client = s.client := by
  have hinv : Inv setup s := Inv.of_run hfresh hrun
  have hwatch := Watch.of_run hfresh hrun hunfailing
  refine ⟨?_, ?_, ?_⟩
  · have hstep : step setup s (.operate .deregister) = some _ := rfl
    obtain ⟨hcurrent, -, hwaiting, -⟩ := step_deregister hstep
    obtain ⟨own, s', hperforms⟩ := exists_performs (hinv.step hstep) (hwatch.aside hstep rfl)
      (hcurrent.trans hidle) (hwaiting ▸ List.mem_append_right _ List.mem_cons_self)
    exact ⟨own, s', _, hstep, hperforms⟩
  · rintro own s' ⟨asked, hstep, hperforms⟩
    obtain ⟨-, hclient, -, -⟩ := step_deregister hstep
    have hinv₁ := hinv.step hstep
    obtain ⟨result, hended, hiff, hdone, hkept⟩ :=
      hperforms.withdraws hinv₁ (hwatch.aside hstep rfl)
      (unfailing_of_step hstep nofun hunfailing) (hclient ▸ hheld)
    refine ⟨result, hended, hiff, ?_, ?_⟩
    · intro hresult
      have hrelinquished := hdone hresult
      exact ⟨hrelinquished, fun owns s'' h =>
        h.of_relinquished (hperforms.inv hinv₁) hrelinquished⟩
    · intro hresult
      obtain ⟨hregistration, hlive, hstill⟩ := hkept hresult
      rw [hclient] at hregistration hlive hstill
      exact ⟨hregistration, hlive, hstill⟩
  · intro answers s' hrun' hidle' hended
    have hregistered :=
      (hinv.coherent hidle hunfailing).registered (hheld ▸ Option.some_ne_none id)
    exact client_of_refused hidle hregistered hheld hrun' hidle' hended

/-- The engine asks its only server to deregister, and gets an answer or none. -/
def deregistering (s : Service) (answer : Option Response) : List Input :=
  .operate .deregister :: .turn s.waiting.length ::
    [Answer.object (some sampleSecurities), .object (some (sampleServers 30)),
      .response answer].map .answer

theorem deregistration_once_registered :
    ∃ s, run sampleSetup (initial (.timeline {})) (registering 30) = some s ∧
      (∃ own s' own' s'', Calls sampleSetup s .deregister own s' ∧ Relinquished s' ∧
        Calls sampleSetup s' .deregister own' s'' ∧
        own' = [.ended (.operation .deregister) true]) ∧
      ∃ s', run sampleSetup s (deregistering s none) = some s' ∧ s'.client = s.client ∧
        s'.client.scheduler.entries.any (·.task.isRenewal) = true := by
  have hpossible : (run sampleSetup (initial (.timeline {})) (registering 30)).any fun s =>
      decide (Unfailing s.history ∧ s.current.isNone ∧ s.client.registration.id = some "r" ∧
        s.client.scheduler.entries.any (·.task.isRenewal)) &&
      ((run sampleSetup s (deregistering s (some ⟨.notFound, none⟩))).any fun s' =>
        decide (s'.current.isNone ∧ s'.hasEnded .deregister true) &&
          (run sampleSetup s' (.operate .deregister :: .turn s'.waiting.length :: [])).any
            fun s'' => s''.current.isNone) &&
      (run sampleSetup s (deregistering s none)).any fun s' =>
        decide (s'.current.isNone ∧ s'.hasEnded .deregister false) := by
    decide +kernel
  obtain ⟨s, hrun, hcheck⟩ := (Option.any_eq_true _ _).mp hpossible
  obtain ⟨hcheck, hrefused⟩ := Bool.and_eq_true_iff.mp hcheck
  obtain ⟨hbefore, hdone⟩ := Bool.and_eq_true_iff.mp hcheck
  obtain ⟨hunfailing, hidle, hheld, hrenewal⟩ := of_decide_eq_true hbefore
  obtain ⟨s', hrun', hcheck⟩ := (Option.any_eq_true _ _).mp hdone
  obtain ⟨hended, hagain⟩ := Bool.and_eq_true_iff.mp hcheck
  obtain ⟨hidle', hended⟩ := of_decide_eq_true hended
  obtain ⟨s'', hrun'', hidle''⟩ := (Option.any_eq_true _ _).mp hagain
  obtain ⟨own, hcalls⟩ := Calls.of_answers hrun' (Option.isNone_iff_eq_none.mp hidle')
  have hnothing : run sampleSetup s' (.operate .deregister :: .turn s'.waiting.length ::
      ([] : List Answer).map .answer) = some s'' := hrun''
  obtain ⟨own', hcalls'⟩ := Calls.of_answers hnothing (Option.isNone_iff_eq_none.mp hidle'')
  obtain ⟨t, hrefusing, hcheck⟩ := (Option.any_eq_true _ _).mp hrefused
  obtain ⟨hquiet, hfalse⟩ := of_decide_eq_true hcheck
  obtain ⟨-, houtcome, halone⟩ := deregistration_of_unfailing (Or.inl rfl) hrun hunfailing
    (Option.isNone_iff_eq_none.mp hidle) hheld
  obtain ⟨result, hresult, -, htaken, -⟩ := houtcome own s' hcalls
  cases hresult.symm.trans (head?_of_hasEnded hended)
  obtain ⟨hrelinquished, hrepeats⟩ := htaken rfl
  have hown' := (hrepeats [own'] s'' (.again hcalls' .none)).1 own' List.mem_cons_self
  have hclient :=
    halone _ t hrefusing (Option.isNone_iff_eq_none.mp hquiet) (head?_of_hasEnded hfalse)
  exact ⟨s, hrun, ⟨own, s', own', s'', hcalls, hrelinquished, hcalls', hown'⟩, t, hrefusing,
    hclient, hclient ▸ hrenewal⟩

end Lwm2mClient.Service
