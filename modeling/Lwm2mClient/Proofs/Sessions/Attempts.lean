import Lwm2mClient.Proofs.Service.Sendings
import Lwm2mClient.Proofs.Sessions.Reception

/-!
When a bootstrap counts as finished. An attempt begins where the request is sent, right after the
session was opened, and it is over when the answer refuses it or when the wait for the end of the
session is over. What reached the gate in the meantime decides, and nothing that was there before.
-/
namespace Lwm2mClient

open Net Engine Program

namespace Engine

variable {response : Option Response}

/-- What a wait leads to. -/
def concludeWait (setup : Setup) (finished : Bool) : Program Bool := do
  if !finished then log (.bootstrapUnfinished setup.settings.bootstrapTimeout)
  concludeSession setup finished

/-- The answer of a server that accepts the bootstrap. -/
def IsAccepted (response : Option Response) : Prop :=
  ∃ registration, response = some ⟨.changed, registration⟩

theorem concludeBootstrap_of_accepted (setup : Setup) (h : IsAccepted response) :
    concludeBootstrap setup response =
      .call (.log .bootstrapAccepted) fun _ =>
        .call (.awaitFinish setup.settings.bootstrapTimeout) (concludeWait setup) := by
  obtain ⟨registration, rfl⟩ := h
  change Program.call _ _ = Program.call _ _
  congr 1
  funext _
  change Program.call _ _ = Program.call _ _
  congr 1
  funext finished
  cases finished <;> rfl

theorem concludeBootstrap_of_refused (setup : Setup) (h : ¬IsAccepted response) :
    ∃ line, Service.isSurprise line = false ∧
      concludeBootstrap setup response = log line >>= fun _ => concludeSession setup false := by
  cases response with
  | none => exact ⟨.bootstrapTimedOut, rfl, rfl⟩
  | some response =>
    obtain ⟨code, registration⟩ := response
    have hcode : code ≠ .changed := by
      rintro rfl
      exact h ⟨registration, rfl⟩
    refine ⟨.bootstrapRefused code, rfl, ?_⟩
    unfold concludeBootstrap awaitBootstrap
    dsimp only
    rw [if_neg hcode]
    rfl

/-- What comes before the lookup of the server where a session is finished. -/
def beginRegister : Program Unit := do
  perform .closeSession
  log .bootstrapFinished
  fire .register

theorem concludeSession_true (setup : Setup) :
    concludeSession setup true =
      beginRegister >>= fun _ => sendRegister setup >>= concludeRegister setup := by
  unfold concludeSession
  rw [if_pos rfl, registerNow_eq]
  rfl

end Engine

namespace Service

variable {setup : Setup} {hosts : Hosts} {α : Type}

/-- What waits for nothing is done by itself. -/
theorem Ensures.silent {p : Program α} {post : α → Scene → Prop} {s : Scene}
    (h : Ensures hosts (fun _ => False) p post s) :
    ∃ value s', (Service.proceed true p s.client).holds = true ∧
      (Service.proceed true p s.client).rest = .done value ∧
      s'.client = (Service.proceed true p s.client).client ∧ post value s' := by
  obtain ⟨hholds, hensures, hasked⟩ := h.proceed
  cases hrest : (Service.proceed true p s.client).rest with
  | done value =>
    rw [hrest] at hensures
    exact ⟨value, _, hholds, rfl, rfl, hensures⟩
  | call c next =>
    rw [hrest] at hensures
    simp only [Ensures, Scene.report, answer?_of_isAsked (hasked c next hrest)] at hensures
    exact absurd (hensures.2 _ (Scene.Drift.refl _)).1 id

/-- A client that has given its registration up. -/
structure Forgotten (r : Registration) : Prop where
  id : r.id = none
  renewal : r.renewal = none
  lifecycle : r.lifecycle = .unregistered

theorem Scene.forget_forgotten (s : Scene) : Forgotten s.forget.client.registration := by
  have hregistration := s.withoutRenewal_registration none
  have hlost : (s.withoutRenewal none).client.registration.lifecycle.step? .lost =
      some .unregistered := by
    cases (s.withoutRenewal none).client.registration.lifecycle <;> rfl
  unfold Scene.forget
  rw [Scene.fire_of_step hlost]
  refine ⟨?_, ?_, rfl⟩
  · change (s.withoutRenewal none).client.registration.id = none
    rw [hregistration]
  · change (s.withoutRenewal none).client.registration.renewal = none
    rw [hregistration]

/-- Where a session is not finished, the registration is given up and nothing is waited for. -/
theorem Ensures.concludeSession_false {s : Scene} :
    Ensures hosts (fun _ => False) (Engine.concludeSession setup false)
      (fun v s' => v = false ∧ Forgotten s'.client.registration) s := by
  refine bind ?_
  change Ensures hosts _ (Engine.forget >>= fun _ => pure false) _ _
  refine bind ?_
  apply Ensures.forget
  exact ⟨rfl, Scene.forget_forgotten _⟩

theorem Ensures.beginRegister {s : Scene} :
    Ensures hosts (fun _ => False) Engine.beginRegister (fun _ _ => True) s := by
  refine bind ?_
  change Ensures hosts _ (Program.log .bootstrapFinished >>= fun _ => Engine.fire .register) _ _
  refine bind ?_
  apply log rfl
  exact fire trivial

end Service

namespace Reception

/-- The address to which the operation in progress sends a Bootstrap request. -/
def bootstrapPeer? (r : Reception) : Option SocketAddress :=
  match r.asked? with
  | some (.send address _ (.bootstrap _) _) => some address
  | _ => none

/-- An operation that goes on to register: it looks for the server that it will ask. -/
def GoesOn (setup : Setup) (job : Service.Job) (r : Reception) : Prop :=
  r.service.current = some ⟨job, (sendRegister setup >>= concludeRegister setup) >>= job.close⟩

/-- An operation that goes on to register does ask for it, where the store names a server that can
be asked. -/
theorem GoesOn.sends_register {setup : Setup} {job : Service.Job} {r : Reception} {s' : Service}
    {own : List Service.Event} {v : View} {server : ManagementServer} (h : GoesOn setup job r)
    (hcourse : Service.Course setup r.service own s') (hshows : ∀ e ∈ own, e.Shows v)
    (hnamed : v.Names setup.hosts server) (husable : server.isUsable = true) :
    .register ∈ Service.word (Service.marksOf own) := by
  have hmanages := Engine.manages setup
  have hconclude : ∀ granted, (concludeRegister setup granted).Asks Call.isManagement
      fun _ => True := by
    rintro (e | ⟨id, lifetime⟩)
    · exact hmanages.bind (hmanages.line _) fun _ => hmanages.bind hmanages.forget fun _ =>
        trivial
    · refine hmanages.bind (hmanages.line _) fun _ => ?_
      refine hmanages.bind (hmanages.upkeep (modify_upkeep _)) fun _ => ?_
      refine hmanages.bind (hmanages.upkeep (planRenewal_upkeep setup _)) fun _ => ?_
      exact hmanages.bind (hmanages.fire .registered) fun _ => trivial
  have hheads : Service.Heads (AsksRegister setup v server) v
      (sendRegister setup >>= concludeRegister setup) := by
    refine ⟨Reaches.bind (sendRegister_reaches hnamed husable), ?_⟩
    refine (hmanages.bind hmanages.sendRegister hconclude).mono (fun c hc => ?_) fun _ h => h
    cases c <;> first | exact id | exact absurd hc id
  obtain ⟨next, hnext⟩ : ∃ next, sendRegister setup >>= concludeRegister setup =
      .call (.readObject ObjectId.security) next := ⟨_, rfl⟩
  rw [hnext] at hheads
  rw [GoesOn, hnext] at h
  exact Service.kind_mem_word (fun _ => Service.sendsKind_of_asksRegister)
    (hcourse.reaches Service.isOpenly_asksRegister ⟨_, next, h, hheads⟩ hshows)

/-- An operation has ended in vain, and the registration is forgotten. -/
structure GivenUp (job : Service.Job) (r : Reception) : Prop where
  current : r.service.current = none
  ended : r.service.history.head? = some (.ended job false)
  forgotten : Service.Forgotten r.service.client.registration

/-- An operation with a session of its own, which has taken some messages; nobody waits for it
yet. -/
structure Engaged (setup : Setup) (address : SocketAddress) (taken : List Message)
    (job : Service.Job) (rest : Program Bool) (r : Reception) : Prop where
  attended : Attended setup r
  wait : r.wait = none
  current : r.service.current = some ⟨job, rest⟩
  session : ∃ peer number, peer.address = some address ∧ r.gate.Underway peer number address taken

/-- An operation waits for the end of its session, which has taken some messages since. -/
structure Waiting (setup : Setup) (address : SocketAddress) (finished : Bool)
    (taken : List Message) (deadline : Nat) (job : Service.Job) (rest : Program Bool)
    (r : Reception) : Prop where
  attended : Attended setup r
  current : r.service.current = some ⟨job, rest⟩
  elapsed : r.elapsed ≤ deadline
  session : ∃ peer number, peer.address = some address ∧ r.wait = some ⟨number, deadline⟩ ∧
    r.gate.Held peer number address finished taken

/-- What is left of an operation that has sent a Bootstrap request. -/
def requesting (setup : Setup) (job : Service.Job) (address : SocketAddress) (secure : Bool)
    (endpoint : String) (timeout : Option Duration) : Program Bool :=
  .call (.send address secure (.bootstrap endpoint) timeout) fun response =>
    concludeBootstrap setup response >>= job.close

/-- What is left of an operation that waits for the end of its session. -/
def awaiting (setup : Setup) (job : Service.Job) : Program Bool :=
  .call (.awaitFinish setup.settings.bootstrapTimeout) fun finished =>
    concludeWait setup finished >>= job.close

variable {setup : Setup} {r r' : Reception} {job : Service.Job} {address : SocketAddress}
  {rest : Program Bool} {taken : List Message}

/-! ### How an attempt begins -/

theorem current_of_asked {c : Call} (h : r.asked? = some c) :
    ∃ job next, r.service.current = some ⟨job, .call c next⟩ := by
  unfold asked? at h
  split at h
  · rename_i job c' next hcurrent
    cases h
    exact ⟨job, next, hcurrent⟩
  · cases h

theorem current_of_bootstrapPeer (h : r.bootstrapPeer? = some address) :
    ∃ job secure endpoint timeout next, r.service.current =
      some ⟨job, .call (.send address secure (.bootstrap endpoint) timeout) next⟩ := by
  unfold bootstrapPeer? at h
  split at h
  · rename_i address' secure endpoint timeout hasked
    cases h
    obtain ⟨job, next, hcurrent⟩ := current_of_asked hasked
    exact ⟨job, secure, endpoint, timeout, next, hcurrent⟩
  · cases h

/-- Wherever a Bootstrap request has just been sent, a session has just been opened for it. -/
theorem Engaged.of_step {input : Input} (h : Attended setup r)
    (hstep : step setup r input = some r') (hbefore : r.bootstrapPeer? = none)
    (hsent : r'.bootstrapPeer? = some address) :
    ∃ job secure endpoint timeout,
      Engaged setup address [] job (requesting setup job address secure endpoint timeout) r' := by
  have hnew : r'.service.current ≠ r.service.current := by
    intro heq
    have hsame : r'.bootstrapPeer? = r.bootstrapPeer? := by
      rw [bootstrapPeer?, bootstrapPeer?, asked?, asked?, heq]
    rw [hsent, hbefore] at hsame
    cases hsame
  have hattended := h.step hstep
  obtain ⟨job, secure, endpoint, timeout, next, hthread⟩ := current_of_bootstrapPeer hsent
  rcases h.step_cases hstep with hm | hbegun | hentered | ⟨hcurrent, -⟩
  · exact absurd hm.current hnew
  · exact absurd hbegun.current hnew
  · obtain ⟨s, job', p, hcurrent, hclaimed, hp, hservice⟩ := hentered.entered
    obtain ⟨opened, hrest, hfresh⟩ := hp.proceed true s.client (by simp)
    have heq := Service.enter_current hcurrent (hservice ▸ hthread)
    have hjob : job = job' := congrArg Service.Thread.job heq
    have hprogram : (Service.proceed true p s.client).rest =
        .call (.send address secure (.bootstrap endpoint) timeout) next :=
      (congrArg Service.Thread.rest heq).symm
    rw [hprogram, ← hjob] at hrest
    obtain ⟨⟨⟨peer, hopened, haddress⟩, hnext⟩, -⟩ := hrest
    obtain ⟨hsession, hunclaimed⟩ := hfresh peer hopened
    have hgate : r'.gate = (Service.proceed true p s.client).client.gate := by
      rw [gate, hservice, Service.enter_client]
    rw [← hgate] at hsession hunclaimed
    have hrequest : r'.service.current =
        some ⟨job, requesting setup job address secure endpoint timeout⟩ := by
      rw [hthread, funext hnext]
      rfl
    exact ⟨job, secure, endpoint, timeout, hattended, hentered.wait, hrequest, peer, _, haddress,
      .pending (hattended.claimed hentered.wait) (by simp) hsession hunclaimed⟩
  · cases hcurrent.symm.trans hthread

/-! ### How an attempt goes on -/

theorem Engaged.meanwhile {inputs : List Input} (h : Engaged setup address taken job rest r)
    (hrun : run setup r inputs = some r') (haside : ∀ input ∈ inputs, input.isAside = true) :
    Engaged setup address (taken ++ messages inputs) job rest r' := by
  have hm := run_meanwhile hrun haside
  obtain ⟨peer, number, haddress, hsession⟩ := h.session
  refine ⟨h.attended.run hrun, hm.wait.trans h.wait, hm.current.trans h.current,
    peer, number, haddress, ?_⟩
  rw [hm.gate]
  exact hsession.receiveAll haddress _

theorem Waiting.meanwhile {finished : Bool} {deadline : Nat} {inputs : List Input}
    (h : Waiting setup address finished taken deadline job rest r)
    (hrun : run setup r inputs = some r') (haside : ∀ input ∈ inputs, input.isAside = true) :
    Waiting setup address finished (taken ++ messages inputs) deadline job rest r' := by
  have hm := run_meanwhile hrun haside
  obtain ⟨peer, number, haddress, hwait, hsession⟩ := h.session
  refine ⟨h.attended.run hrun, hm.current.trans h.current, hm.deadline _ hwait h.elapsed,
    peer, number, haddress, hm.wait.trans hwait, ?_⟩
  rw [hm.gate]
  exact hsession.receiveAll haddress _

theorem givenUp_of_enter (setup : Setup) {s : Service} {p : Program Bool} {elapsed : Nat}
    {wait : Option Wait} (hcurrent : s.current = none)
    (h : Service.Ensures setup.hosts (fun _ => False) p
      (fun v s' => v = false ∧ Service.Forgotten s'.client.registration) ⟨s.client, [], {}⟩) :
    GivenUp job { service := s.enter true job (p >>= job.close), elapsed, wait } := by
  obtain ⟨value, s', hholds, hrest, hclient, rfl, hforgotten⟩ := h.silent
  have hservice : s.enter true job (p >>= job.close) = _ :=
    Service.enter_of_finished hholds hrest
  refine ⟨?_, ?_, ?_⟩
  · change (s.enter true job (p >>= job.close)).current = none
    rw [hservice, Service.depart_eq, Service.report_eq]
    exact hcurrent
  · change (s.enter true job (p >>= job.close)).history.head? = _
    rw [hservice, Service.depart_eq]
    rfl
  · change Service.Forgotten (s.enter true job (p >>= job.close)).client.registration
    rw [hservice, Service.depart_eq, Service.report_eq]
    rw [hclient] at hforgotten
    exact hforgotten

theorem goesOn_of_enter {s : Service} {elapsed : Nat} {wait : Option Wait} :
    GoesOn setup job
      { service := s.enter true job (concludeSession setup true >>= job.close),
        elapsed, wait } := by
  have hbegin : Service.Ensures setup.hosts (fun _ => False) beginRegister (fun _ _ => True)
      ⟨s.client, [], {}⟩ := Service.Ensures.beginRegister
  obtain ⟨value, s', hholds, hrest, -, -⟩ := hbegin.silent
  obtain ⟨next, hnext⟩ : ∃ next, sendRegister setup >>= concludeRegister setup =
      .call (.readObject ObjectId.security) next := ⟨_, rfl⟩
  have hproceed : (Service.proceed true (concludeSession setup true) s.client).holds = true ∧
      (Service.proceed true (concludeSession setup true) s.client).rest =
        .call (.readObject ObjectId.security) next := by
    rw [concludeSession_true, Service.proceed_bind _ hholds, hrest, hnext]
    dsimp only
    rw [Service.proceed_of_isAsked rfl]
    exact ⟨rfl, rfl⟩
  change (s.enter true job _).current = _
  rw [Service.enter_of_asking hproceed.1 hproceed.2, hnext]
  rfl

/-- The wait of an operation ends, and the operation goes on to register or ends in vain. -/
theorem outcome_of_conclude {finished : Bool}
    (hcurrent : r.service.current = some ⟨job, awaiting setup job⟩)
    (hr' : r.conclude setup finished = some r') :
    (finished = true → GoesOn setup job r') ∧ (finished = false → GivenUp job r') := by
  obtain ⟨s', hstep, hs'⟩ := Option.map_eq_some_iff.mp hr'
  cases hs'
  obtain ⟨job', c, next, a, hthread, ha, rfl⟩ := Service.step_answer hstep
  cases hcurrent.symm.trans hthread
  cases ha
  constructor
  · rintro rfl
    exact goesOn_of_enter
  · rintro rfl
    refine givenUp_of_enter setup rfl ?_
    refine Service.Ensures.bind (Service.Ensures.log rfl ?_)
    exact Service.Ensures.concludeSession_false

/-- An answer that does not accept the bootstrap ends the attempt. -/
theorem Engaged.refused {secure : Bool} {endpoint : String} {timeout : Option Duration}
    {response : Option Response}
    (h : Engaged setup address taken job (requesting setup job address secure endpoint timeout) r)
    (hstep : step setup r (.service (.answer (.response response))) = some r')
    (hresponse : ¬IsAccepted response) : GivenUp job r' := by
  obtain ⟨s', hs', hservice⟩ := Option.map_eq_some_iff.mp hstep
  cases hservice
  obtain ⟨job', c, next, a, hthread, ha, rfl⟩ := Service.step_answer hs'
  cases h.current.symm.trans hthread
  cases ha
  obtain ⟨line, hline, hprogram⟩ := concludeBootstrap_of_refused setup hresponse
  refine givenUp_of_enter setup rfl ?_
  rw [hprogram]
  refine Service.Ensures.bind (Service.Ensures.log hline ?_)
  exact Service.Ensures.concludeSession_false

/-- After an answer that accepts the bootstrap, the end of the session is waited for. -/
theorem Engaged.accepted {secure : Bool} {endpoint : String} {timeout : Option Duration}
    {response : Option Response}
    (h : Engaged setup address taken job (requesting setup job address secure endpoint timeout) r)
    (hstep : step setup r (.service (.answer (.response response))) = some r')
    (hresponse : IsAccepted response) :
    Engaged setup address taken job (awaiting setup job) r' := by
  have hattended := h.attended.step hstep
  obtain ⟨s', hs', hservice⟩ := Option.map_eq_some_iff.mp hstep
  cases hservice
  obtain ⟨job', c, next, a, hthread, ha, rfl⟩ := Service.step_answer hs'
  cases h.current.symm.trans hthread
  cases ha
  have hproceed : ∀ client : Client Service.Task,
      Service.proceed true (concludeBootstrap setup response) client =
        { client, lines := [.bootstrapAccepted], holds := true
          rest := .call (.awaitFinish setup.settings.bootstrapTimeout)
            (concludeWait setup) } := by
    intro client
    rw [concludeBootstrap_of_accepted setup hresponse]
    rfl
  obtain ⟨peer, number, haddress, hsession⟩ := h.session
  refine ⟨hattended, h.wait, ?_, peer, number, haddress, ?_⟩
  · change (Service.enter _ true job _).current = _
    rw [Service.enter_of_asking (by rw [hproceed]) (by rw [hproceed])]
    rfl
  · change Gate.Underway (Service.enter _ true job _).client.gate _ _ _ _
    rw [Service.enter_client, Service.proceed_bind _ (by rw [hproceed]), hproceed]
    exact hsession

/-- A wait for a session that was cancelled is over at once. -/
theorem Engaged.beginWait (h : Engaged setup address taken job (awaiting setup job) r)
    (hstep : step setup r .beginWait = some r') :
    (.cancel ∈ taken → r'.wait = none ∧ GivenUp job r') ∧
      (.cancel ∉ taken → r'.elapsed = r.elapsed ∧
        Waiting setup address (taken.any (·.isFinishFrom address)) []
          (r.elapsed + setup.settings.bootstrapTimeout.nanos) job (awaiting setup job) r') := by
  have hattended := h.attended.step hstep
  have hasked : r.asked? = some (.awaitFinish setup.settings.bootstrapTimeout) := by
    rw [asked?, h.current]
    rfl
  obtain ⟨peer, number, haddress, hsession⟩ := h.session
  simp only [step, h.wait, hasked] at hstep
  cases hsession with
  | cancelled hclaimed hcancel hclosed hunclaimed =>
    refine ⟨fun _ => ?_, fun hno => absurd hcancel hno⟩
    simp only [Gate.claim, hunclaimed] at hstep
    obtain ⟨s', -, hs'⟩ := Option.map_eq_some_iff.mp hstep
    refine ⟨by rw [← hs'], (outcome_of_conclude ?_ hstep).2 rfl⟩
    exact h.current
  | pending hclaimed hcancel hactive hunclaimed =>
    refine ⟨fun hyes => absurd hyes hcancel, fun _ => ?_⟩
    simp only [Gate.claim, hunclaimed] at hstep
    cases hstep
    refine ⟨rfl, hattended, h.current, Nat.le_add_right _ _, peer, number, haddress,
      rfl, rfl, ?_, ?_⟩
    · change _ :: r.gate.claimed = _
      rw [hclaimed]
      simp
    · change r.gate.session = _
      simpa using hactive

/-- A wait ends as the first message says that settles the session. -/
theorem Waiting.endWait {finished : Bool} {deadline : Nat}
    (h : Waiting setup address finished taken deadline job (awaiting setup job) r)
    (hstep : step setup r .endWait = some r') :
    let ended := finished || (taken.find? (·.settles address)).any (·.isFinishFrom address)
    (ended = true → GoesOn setup job r') ∧ (ended = false → GivenUp job r') ∧
      (ended = false → .cancel ∉ taken → r.elapsed = deadline) := by
  obtain ⟨peer, number, haddress, hwait, hsession⟩ := h.session
  simp only [step, hwait] at hstep
  split at hstep
  · rename_i hover
    have hcurrent : (r.withGate (r.gate.release number)).service.current =
        some ⟨job, awaiting setup job⟩ := h.current
    have houtcome := outcome_of_conclude hcurrent hstep
    rw [hsession.isFinished] at houtcome
    refine ⟨houtcome.1, houtcome.2, ?_⟩
    intro hended hcancel
    have hactive : r.gate.session = .active peer number := by
      rw [hsession.session, if_neg hcancel]
    have hmay : r.gate.mayFinish number = true := by
      simp [Gate.mayFinish, hactive]
    rw [isOver, hsession.isFinished, hended, hmay] at hover
    have hlate : deadline ≤ r.elapsed := by simpa using hover
    exact Nat.le_antisymm h.elapsed hlate
  · cases hstep

/-! ### When a bootstrap counts as finished -/

/-- Some messages reach the gate during the call, the call is answered, more messages reach the
gate before the wait begins and while it lasts, and then the attempt is over. -/
inductive Attempt (setup : Setup) (r₀ : Reception) (during : List Input)
    (response : Option Response) :
    List Input → List Input → Reception → Prop
  /-- Nothing is waited for. -/
  | unaccepted {r₁ r' : Reception} (hduring : run setup r₀ during = some r₁)
      (haside : ∀ input ∈ during, input.isAside = true)
      (hanswer : step setup r₁ (.service (.answer (.response response))) = some r')
      (hends : ∀ timeout, r'.asked? ≠ some (.awaitFinish timeout)) :
      Attempt setup r₀ during response [] [] r'
  /-- The wait is over at once. -/
  | unawaited {r₁ r₂ r₃ r' : Reception} {between : List Input}
      (hduring : run setup r₀ during = some r₁)
      (haside : ∀ input ∈ during ++ between, input.isAside = true)
      (hanswer : step setup r₁ (.service (.answer (.response response))) = some r₂)
      (hbetween : run setup r₂ between = some r₃) (hbegin : step setup r₃ .beginWait = some r')
      (hends : r'.wait = none) : Attempt setup r₀ during response between [] r'
  | awaited {r₁ r₂ r₃ r₄ r₅ r' : Reception} {between within : List Input}
      (hduring : run setup r₀ during = some r₁)
      (haside : ∀ input ∈ during ++ between ++ within, input.isAside = true)
      (hanswer : step setup r₁ (.service (.answer (.response response))) = some r₂)
      (hbetween : run setup r₂ between = some r₃) (hbegin : step setup r₃ .beginWait = some r₄)
      (hwithin : run setup r₄ within = some r₅) (hend : step setup r₅ .endWait = some r') :
      Attempt setup r₀ during response between within r'

/-- The server at an address has accepted the bootstrap and finished it: before the wait began, or
as the first to settle the session within the time of the wait. No cancel came before the wait. -/
def IsFinished (address : SocketAddress) (timeout : Duration) (response : Option Response)
    (before : List Message) (within : List (Nat × Message)) : Prop :=
  IsAccepted response ∧ .cancel ∉ before ∧
    ((∃ sender, .finish sender ∈ before ∧ address.ip = sender.ip) ∨
      ∃ time sender, within.find? (·.2.settles address) = some (time, .finish sender) ∧
        time ≤ timeout.nanos)

theorem any_isFinishFrom {messages : List Message} :
    messages.any (·.isFinishFrom address) = true ↔
      ∃ sender, .finish sender ∈ messages ∧ address.ip = sender.ip := by
  rw [List.any_eq_true]
  constructor
  · rintro ⟨m, hm, hfinish⟩
    cases m with
    | finish sender => exact ⟨sender, hm, of_decide_eq_true hfinish⟩
    | _ => cases hfinish
  · rintro ⟨sender, hm, hip⟩
    exact ⟨_, hm, decide_eq_true hip⟩

/-- The first message to settle the session is found among those that arrive in the course of
time. -/
theorem find?_arrivals (time : Nat) (inputs : List Input) :
    ((messages inputs).find? (·.settles address)).any (·.isFinishFrom address) = true ↔
      ∃ t sender, (arrivals time inputs).find? (·.2.settles address) =
        some (t, .finish sender) := by
  rw [← arrivals_snd time inputs, List.find?_map]
  change _ ↔ ∃ t sender,
    (arrivals time inputs).find? (Message.settles address ∘ Prod.snd) = some (t, .finish sender)
  cases hfirst : (arrivals time inputs).find? (Message.settles address ∘ Prod.snd) with
  | none => simp
  | some first =>
    obtain ⟨t, m⟩ := first
    have hsettles : m.settles address = true := by simpa using List.find?_some hfirst
    cases m with
    | finish sender =>
      have hfinish : (Message.finish sender).isFinishFrom address = true := by
        simpa [Message.settles] using hsettles
      exact iff_of_true hfinish ⟨t, sender, rfl⟩
    | delete sender path => cases hsettles
    | cancel => simp

/-- What arrives during a wait arrives in time. -/
theorem le_of_find?_arrivals {inputs : List Input} {timeout : Nat}
    (hduration : duration inputs ≤ timeout) {t : Nat} {m : Message}
    (h : (arrivals 0 inputs).find? (·.2.settles address) = some (t, m)) : t ≤ timeout := by
  obtain ⟨-, hle⟩ := arrivals_le (List.mem_of_find?_eq_some h)
  rw [Nat.zero_add] at hle
  exact Nat.le_trans hle hduration

theorem not_goesOn_of_givenUp (h : GivenUp job r) : ¬GoesOn setup job r := by
  intro hgoesOn
  cases h.current.symm.trans hgoesOn

theorem asked?_of_current {c : Call} {next : c.Answer → Program Bool}
    (h : r.service.current = some ⟨job, .call c next⟩) : r.asked? = some c := by
  rw [asked?, h]

theorem messages_append (inputs inputs' : List Input) :
    messages (inputs ++ inputs') = messages inputs ++ messages inputs' :=
  List.flatMap_append

/-- A wait begins only after an answer that accepts the bootstrap. -/
theorem Engaged.awaits {secure : Bool} {endpoint : String} {timeout : Option Duration}
    {r₀ r₁ r₂ r₃ r₄ : Reception} {during between : List Input} {response : Option Response}
    (h : Engaged setup address [] job (requesting setup job address secure endpoint timeout) r₀)
    (hduring : run setup r₀ during = some r₁)
    (haside : ∀ input ∈ during ++ between, input.isAside = true)
    (hanswer : step setup r₁ (.service (.answer (.response response))) = some r₂)
    (hbetween : run setup r₂ between = some r₃) (hbegin : step setup r₃ .beginWait = some r₄) :
    IsAccepted response ∧
      Engaged setup address (messages (during ++ between)) job (awaiting setup job) r₃ := by
  have hduringAside : ∀ input ∈ during, input.isAside = true :=
    fun input hi => haside input (List.mem_append_left _ hi)
  have hbetweenAside : ∀ input ∈ between, input.isAside = true :=
    fun input hi => haside input (List.mem_append_right _ hi)
  have hcalled := h.meanwhile hduring hduringAside
  by_cases haccepted : IsAccepted response
  · have hwaits := (hcalled.accepted hanswer haccepted).meanwhile hbetween hbetweenAside
    rw [List.nil_append, ← messages_append] at hwaits
    exact ⟨haccepted, hwaits⟩
  · have hcurrent : r₃.service.current = none :=
      (run_meanwhile hbetween hbetweenAside).current.trans
        (hcalled.refused hanswer haccepted).current
    have hasked : r₃.asked? = none := by rw [asked?, hcurrent]
    simp only [step, hasked] at hbegin
    split at hbegin <;> rename_i heq
    · cases heq
    · cases hbegin

/-- How every attempt of an operation comes out that has just sent its Bootstrap request. -/
theorem Engaged.outcome {secure : Bool} {endpoint : String} {timeout : Option Duration}
    {r₀ : Reception} {during between within : List Input} {response : Option Response}
    (h : Engaged setup address [] job (requesting setup job address secure endpoint timeout) r₀)
    (hattempt : Attempt setup r₀ during response between within r') :
    let finished := IsFinished address setup.settings.bootstrapTimeout response
      (messages (during ++ between)) (arrivals 0 within)
    (finished → GoesOn setup job r') ∧ (¬finished → GivenUp job r') ∧
      (¬finished → IsAccepted response → .cancel ∉ messages (during ++ between ++ within) →
        duration within = setup.settings.bootstrapTimeout.nanos) := by
  cases hattempt with
  | unaccepted hduring haside hanswer hends =>
    have hcalled := h.meanwhile hduring haside
    have hrefused : ¬IsAccepted response := by
      intro haccepted
      exact hends _ (asked?_of_current (hcalled.accepted hanswer haccepted).current)
    exact ⟨fun hf => absurd hf.1 hrefused, fun _ => hcalled.refused hanswer hrefused,
      fun _ haccepted => absurd haccepted hrefused⟩
  | unawaited hduring haside hanswer hbetween hbegin hends =>
    obtain ⟨haccepted, hwaits⟩ := h.awaits hduring haside hanswer hbetween hbegin
    obtain ⟨hcancelled, hbegun⟩ := hwaits.beginWait hbegin
    by_cases hcancel : .cancel ∈ messages (during ++ between)
    · refine ⟨fun hf => absurd hcancel hf.2.1, fun _ => (hcancelled hcancel).2, ?_⟩
      intro _ _ hno
      rw [List.append_nil] at hno
      exact absurd hcancel hno
    · obtain ⟨-, hwaiting⟩ := hbegun hcancel
      obtain ⟨peer, number, -, hwait, -⟩ := hwaiting.session
      cases hends.symm.trans hwait
  | @awaited r₁ r₂ r₃ r₄ r₅ _ between within hduring haside hanswer hbetween
      hbegin hwithin hend =>
    have hbefore : ∀ input ∈ during ++ between, input.isAside = true :=
      fun input hi => haside input (List.mem_append_left _ hi)
    have hwithinAside : ∀ input ∈ within, input.isAside = true :=
      fun input hi => haside input (List.mem_append_right _ hi)
    obtain ⟨haccepted, hwaits⟩ := h.awaits hduring hbefore hanswer hbetween hbegin
    obtain ⟨hcancelled, hbegun⟩ := hwaits.beginWait hbegin
    by_cases hcancel : .cancel ∈ messages (during ++ between)
    · have hnone : r₅.wait = none :=
        (run_meanwhile hwithin hwithinAside).wait.trans (hcancelled hcancel).1
      simp only [step, hnone] at hend
      cases hend
    · obtain ⟨helapsed, hbegun⟩ := hbegun hcancel
      have hwaiting := hbegun.meanwhile hwithin hwithinAside
      have hpassed : r₅.elapsed = r₃.elapsed + duration within := by
        rw [(run_meanwhile hwithin hwithinAside).elapsed, helapsed]
      have hduration : duration within ≤ setup.settings.bootstrapTimeout.nanos := by
        have hle := hwaiting.elapsed
        omega
      rw [List.nil_append] at hwaiting
      obtain ⟨hgoesOn, hgivenUp, hlate⟩ := hwaiting.endWait hend
      have hiff : IsFinished address setup.settings.bootstrapTimeout response
          (messages (during ++ between)) (arrivals 0 within) ↔
          ((messages (during ++ between)).any (·.isFinishFrom address) ||
            ((messages within).find? (·.settles address)).any (·.isFinishFrom address)) =
              true := by
        rw [Bool.or_eq_true, any_isFinishFrom, find?_arrivals 0 within]
        constructor
        · rintro ⟨-, -, hbefore | ⟨t, sender, hfirst, -⟩⟩
          · exact Or.inl hbefore
          · exact Or.inr ⟨t, sender, hfirst⟩
        · rintro (hbefore | ⟨t, sender, hfirst⟩)
          · exact ⟨haccepted, hcancel, Or.inl hbefore⟩
          · exact ⟨haccepted, hcancel, Or.inr ⟨t, sender, hfirst,
              le_of_find?_arrivals hduration hfirst⟩⟩
      refine ⟨fun hf => hgoesOn (hiff.mp hf), fun hf => hgivenUp ?_, ?_⟩
      · exact Bool.eq_false_iff.mpr fun hyes => hf (hiff.mpr hyes)
      · intro hf _ hno
        rw [messages_append] at hno
        have hdeadline := hlate (Bool.eq_false_iff.mpr fun hyes => hf (hiff.mpr hyes))
          fun hmem => hno (List.mem_append_right _ hmem)
        omega

/-- A bootstrap attempt goes on to register iff the server that it asked has accepted it and
finished it, in the session that was opened for the attempt: before the wait began, or as the
first to settle the session within the time of the wait, and without a cancel before the wait.
Otherwise the attempt ends in vain and the registration is forgotten; unless it was refused or
cancelled, it has lasted for the whole time of the wait. -/
theorem finished_iff {scheduler : Scheduler Service.Task} {inputs : List Input}
    (hfresh : scheduler = .timeline {} ∨ scheduler = .worker {})
    (hrun : run setup { service := Service.initial scheduler } inputs = some r)
    {input : Input} {r₀ : Reception} (hstep : step setup r input = some r₀)
    (hbefore : r.bootstrapPeer? = none) (hsent : r₀.bootstrapPeer? = some address)
    {during between within : List Input} {response : Option Response}
    (hattempt : Attempt setup r₀ during response between within r') :
    ∃ job peer, r₀.service.current.map (·.job) = some job ∧
      r₀.gate.peer = some peer ∧ peer.address = some address ∧
      let finished := IsFinished address setup.settings.bootstrapTimeout response
        (messages (during ++ between)) (arrivals 0 within)
      (GoesOn setup job r' ↔ finished) ∧ (¬finished → GivenUp job r') ∧
        (¬finished → IsAccepted response → .cancel ∉ messages (during ++ between ++ within) →
          duration within = setup.settings.bootstrapTimeout.nanos) := by
  obtain ⟨job, secure, endpoint, timeout, hengaged⟩ :=
    Engaged.of_step (Attended.of_run hfresh hrun) hstep hbefore hsent
  obtain ⟨peer, number, haddress, hsession⟩ := hengaged.session
  obtain ⟨hgoesOn, hgivenUp, hduration⟩ := hengaged.outcome hattempt
  refine ⟨job, peer, ?_, hsession.peer_eq, haddress, ⟨?_, hgoesOn⟩, hgivenUp, hduration⟩
  · rw [hengaged.current]
    rfl
  · intro hr'
    refine Classical.byContradiction fun hunfinished => ?_
    exact not_goesOn_of_givenUp (hgivenUp hunfinished) hr'

/-! ### A bootstrap that is finished -/

/-- A store that names one bootstrap server. -/
def sampleStore : Object :=
  ⟨ObjectId.security, .ofList [(0, ⟨0, .ofList
    [(SecurityResource.serverUri, .string "coap://10.0.0.5"),
      (SecurityResource.bootstrap, .boolean true)]⟩)]⟩

/-- What leads to the Bootstrap request of an engine, but for the last answer of the store. -/
def approaching : List Input :=
  [.service (.operate .bootstrap), .service (.turn 0),
    .service (.answer (.object (some sampleStore)))]

def sampleServer : SocketAddress := ⟨.v4 #v[10, 0, 0, 5], 5683, 0⟩

/-- Another host. -/
def sampleStranger : SocketAddress := ⟨.v4 #v[10, 0, 0, 6], 5683, 0⟩

/-- A stranger sends a finish, then the server does. -/
def finishing : List Input :=
  [.pass 1000, .receive (.finish sampleStranger), .pass 1000, .receive (.finish sampleServer)]

/-- The server accepts and finishes the bootstrap while the client waits. -/
theorem finished_once_sent :
    ∃ r r₀ r', run ⟨{}, {}⟩ { service := Service.initial (.timeline {}) } approaching = some r ∧
      step ⟨{}, {}⟩ r (.service (.answer (.object (some ⟨ObjectId.server, .ofList []⟩)))) =
        some r₀ ∧
      r.bootstrapPeer? = none ∧ r₀.bootstrapPeer? = some sampleServer ∧
      Attempt ⟨{}, {}⟩ r₀ [] (some ⟨.changed, none⟩) [] finishing r' ∧
      ∃ job, GoesOn ⟨{}, {}⟩ job r' := by
  have hpossible : ((run ⟨{}, {}⟩ { service := Service.initial (.timeline {}) } approaching).any
      fun r => (step ⟨{}, {}⟩ r
        (.service (.answer (.object (some ⟨ObjectId.server, .ofList []⟩))))).any fun r₀ =>
        (step ⟨{}, {}⟩ r₀ (.service (.answer (.response (some ⟨.changed, none⟩))))).any fun r₂ =>
          (step ⟨{}, {}⟩ r₂ .beginWait).any fun r₄ =>
            (run ⟨{}, {}⟩ r₄ finishing).any fun r₅ =>
              (step ⟨{}, {}⟩ r₅ .endWait).any fun _ =>
                decide (r.bootstrapPeer? = none ∧ r₀.bootstrapPeer? = some sampleServer)) =
                  true := by
    decide +kernel
  obtain ⟨r, hr, hpossible⟩ := (Option.any_eq_true _ _).mp hpossible
  obtain ⟨r₀, hr₀, hpossible⟩ := (Option.any_eq_true _ _).mp hpossible
  obtain ⟨r₂, hr₂, hpossible⟩ := (Option.any_eq_true _ _).mp hpossible
  obtain ⟨r₄, hr₄, hpossible⟩ := (Option.any_eq_true _ _).mp hpossible
  obtain ⟨r₅, hr₅, hpossible⟩ := (Option.any_eq_true _ _).mp hpossible
  obtain ⟨r', hr', hcheck⟩ := (Option.any_eq_true _ _).mp hpossible
  obtain ⟨hbefore, hsent⟩ := of_decide_eq_true hcheck
  have hattempt : Attempt ⟨{}, {}⟩ r₀ [] (some ⟨.changed, none⟩) [] finishing r' :=
    .awaited rfl (by simp [finishing, Input.isAside]) hr₂ rfl hr₄ hr₅ hr'
  obtain ⟨job, -, -, -, -, hgoesOn, -⟩ := finished_iff (Or.inl rfl) hr hr₀ hbefore hsent hattempt
  refine ⟨r, r₀, r', hr, hr₀, hbefore, hsent, hattempt, job, hgoesOn.mpr ?_⟩
  exact ⟨⟨none, rfl⟩,
    by simp [messages], Or.inr ⟨2000, sampleServer, by decide +kernel, by decide +kernel⟩⟩

end Reception
end Lwm2mClient
