import Lwm2mClient.Proofs.Service.Invariant

/-!
What a single step of a service can be. Either an operation has its turn, or the operation in
progress is answered or abandoned, or something happens aside, which leaves the operation in
progress and the registration alone.
-/
namespace Lwm2mClient.Service

open Net Engine

/-- Whether an input leaves the operation in progress alone. -/
def Input.isAside : Input → Bool
  | turn _ | answer _ | fail => false
  | _ => true

/-- What an input does to the gate, unless the operation in progress goes on. -/
def Input.onGate (g : Gate) : Input → Gate
  | operate .shutdown => g.close.gate
  | gate g' => g'
  | _ => g

/-- Whether an event can be due to something that happens aside. -/
def Event.isAside : Event → Bool
  | began _ | reported .bootstrapInProgress | reported .sessionClosed | returned .. => true
  | ended (.operation .bootstrap) result => !result
  | _ => false

variable {setup : Setup} {s s' : Service}

/-! ### Jobs that begin -/

theorem Job.proceed_pending (job : Job) (client : Client Task) :
    proceed false (job.pending setup) client =
      { client, holds := false, rest := job.pending setup } := rfl

/-- A job was launched: it waits for its turn, unless it was refused before. -/
structure Launched (setup : Setup) (s : Service) (job : Job) (s' : Service) : Prop where
  current : s'.current = s.current
  registration : s'.client.registration = s.client.registration
  scheduler : s'.client.scheduler = s.client.scheduler
  gate : s'.client.gate =
    if job = .operation .shutdown then s.client.gate.close.gate else s.client.gate
  waiting : s'.waiting = s.waiting ++ [⟨job, job.pending setup⟩] ∨
    job = .operation .bootstrap ∧ s'.waiting = s.waiting ∧
      s'.history = .ended job false :: .reported .bootstrapInProgress :: .began job :: s.history
  history : ∃ events, s'.history = events ++ s.history ∧ ∀ e ∈ events, e.isAside = true

/-- What a service reports is all that changes when it does. -/
theorem report_history (s : Service) (lines : List Log.Line) :
    (s.report lines).history = lines.reverse.map .reported ++ s.history := by
  unfold report
  induction lines generalizing s with
  | nil => rfl
  | cons line rest ih =>
    rw [List.foldl_cons, ih, List.reverse_cons, List.map_append, List.append_assoc]
    rfl

theorem Launched.of_pending {job : Job} {gate : Gate} {lines : List Log.Line}
    (hproceed : proceed false (job.program setup) s.client =
      { client := { s.client with gate := gate }
        lines, holds := false, rest := job.pending setup })
    (hgate : gate = if job = .operation .shutdown then s.client.gate.close.gate
      else s.client.gate)
    (hlines : ∀ line ∈ lines, (Event.reported line).isAside = true) :
    Launched setup s job (launch setup s job) := by
  have hrest : (proceed false (job.program setup) (s.note (.began job)).client).rest =
      .call .acquire fun _ => job.body setup >>= job.close := by
    change (proceed false (job.program setup) s.client).rest = _
    rw [hproceed]
    rfl
  have hclient : (proceed false (job.program setup) (s.note (.began job)).client) =
      { client := { s.client with gate := gate }
        lines, holds := false, rest := job.pending setup } :=
    hproceed
  rw [launch, enter_of_call hrest (by simp), hclient, if_neg Bool.false_ne_true, report_eq]
  refine ⟨rfl, rfl, rfl, hgate, Or.inl rfl, lines.reverse.map .reported ++ [.began job], ?_, ?_⟩
  · change (Service.report _ lines).history = _
    rw [report_history, List.append_assoc]
    rfl
  · intro e he
    rcases List.mem_append.mp he with hline | hbegan
    · obtain ⟨line, hmem, rfl⟩ := List.mem_map.mp hline
      exact hlines line (List.mem_reverse.mp hmem)
    · rw [List.mem_singleton.mp hbegan]
      rfl

theorem Launched.of_refused (hactive : s.client.gate.isActive = true) :
    Launched setup s (.operation .bootstrap) (launch setup s (.operation .bootstrap)) := by
  have hproceed : proceed false ((Job.operation .bootstrap).program setup)
      (s.note (.began (.operation .bootstrap))).client =
        { client := s.client, lines := [.bootstrapInProgress], holds := false,
          rest := .done false } := by
    change proceed false (if s.client.gate.isActive = true then
      (Program.call (.log .bootstrapInProgress) fun _ => .done false)
      else (Job.operation .bootstrap).pending setup) s.client = _
    rw [if_pos hactive]
    rfl
  rw [launch, enter_of_done (by rw [hproceed]), hproceed]
  refine ⟨rfl, rfl, rfl, rfl, Or.inr ⟨rfl, rfl, rfl⟩,
    [.ended (.operation .bootstrap) false, .reported .bootstrapInProgress,
      .began (.operation .bootstrap)], rfl, ?_⟩
  simp [Event.isAside]

/-- How a job begins. -/
theorem launched (setup : Setup) (s : Service) (job : Job) :
    Launched setup s job (launch setup s job) := by
  have hplain : job.program setup = job.pending setup → job ≠ .operation .shutdown →
      Launched setup s job (launch setup s job) := by
    intro heq hopen
    have hproceed : proceed false (job.program setup) s.client =
        { client := { s.client with gate := s.client.gate }, lines := [], holds := false
          rest := job.pending setup } := by
      rw [heq]
      rfl
    refine Launched.of_pending hproceed ?_ ?_
    · rw [if_neg hopen]
    · intro line hline
      cases hline
  cases job with
  | task due number work => exact hplain (by cases work <;> rfl) (by simp)
  | operation o =>
    cases o with
    | register => exact hplain rfl (by simp)
    | update => exact hplain rfl (by simp)
    | deregister => exact hplain rfl (by simp)
    | stop => exact hplain rfl (by simp)
    | bootstrap =>
      by_cases hactive : s.client.gate.isActive = true
      · exact Launched.of_refused hactive
      · have hproceed : proceed false ((Job.operation .bootstrap).program setup) s.client =
            { client := { s.client with gate := s.client.gate }, lines := [], holds := false
              rest := (Job.operation .bootstrap).pending setup } := by
          change proceed false (if s.client.gate.isActive = true then
            (Program.call (.log .bootstrapInProgress) fun _ => .done false)
            else (Job.operation .bootstrap).pending setup) s.client = _
          rw [if_neg hactive]
          rfl
        refine Launched.of_pending hproceed rfl ?_
        intro line hline
        cases hline
    | shutdown =>
      have hproceed : proceed false ((Job.operation .shutdown).program setup) s.client =
          { client := { s.client with gate := s.client.gate.close.gate }
            lines := s.client.gate.close.lines, holds := false
            rest := (Job.operation .shutdown).pending setup } := by
        change proceed false (Engine.shutdown setup) s.client = _
        rw [Job.shutdown_eq, proceed_of_reply rfl]
        dsimp only
        rw [Job.proceed_pending, List.append_nil]
      refine Launched.of_pending hproceed rfl ?_
      intro line hline
      unfold Gate.close at hline
      split at hline
      · cases hline
      · rw [List.mem_singleton.mp hline]
        rfl
      · cases hline

/-! ### What happens aside -/

/-- The operation in progress and the registration are left alone, and the gate is as it should
be. -/
structure Aside (s : Service) (gate : Gate) (s' : Service) : Prop where
  current : s'.current = s.current
  registration : s'.client.registration = s.client.registration
  gate : s'.client.gate = gate
  history : ∃ events, s'.history = events ++ s.history ∧ ∀ e ∈ events, e.isAside = true

theorem Aside.of_eq {g : Gate} (hcurrent : s'.current = s.current)
    (hregistration : s'.client.registration = s.client.registration)
    (hgate : s'.client.gate = g) (hhistory : s'.history = s.history) : Aside s g s' := by
  refine ⟨hcurrent, hregistration, hgate, [], hhistory, ?_⟩
  intro e he
  cases he

theorem Launched.aside {g : Gate} {job : Job} {s₁ : Service} (h : Launched setup s₁ job s')
    (hcurrent : s₁.current = s.current)
    (hregistration : s₁.client.registration = s.client.registration)
    (hgate : s'.client.gate = g) (hhistory : s₁.history = s.history) : Aside s g s' :=
  ⟨h.current.trans hcurrent, h.registration.trans hregistration, hgate, hhistory ▸ h.history⟩

theorem startTask_aside (setup : Setup) (s : Service) (scheduler : Scheduler Task)
    (entry : Timeline.Entry Task) :
    Aside s s.client.gate (startTask setup (s.withScheduler scheduler) entry) := by
  unfold startTask
  split
  · rename_i work _
    have hlaunched :=
      launched setup (s.withScheduler scheduler) (.task entry.due entry.number work)
    exact hlaunched.aside rfl rfl hlaunched.gate rfl
  · exact Aside.of_eq rfl rfl rfl rfl

theorem step_aside {input : Input} (hstep : step setup s input = some s')
    (haside : input.isAside = true) : Aside s (input.onGate s.client.gate) s' := by
  cases input with
  | operate operation =>
    cases hstep
    have hlaunched := launched setup s (.operation operation)
    refine hlaunched.aside rfl rfl ?_ rfl
    rw [hlaunched.gate]
    cases operation <;> rfl
  | start =>
    cases hstep
    exact Aside.of_eq rfl rfl rfl rfl
  | turn index => cases haside
  | answer answer => cases haside
  | fail => cases haside
  | gate gate =>
    cases hstep
    exact Aside.of_eq rfl rfl rfl rfl
  | schedule delay =>
    cases hstep
    exact Aside.of_eq rfl rfl rfl rfl
  | cancel number =>
    simp only [step] at hstep
    split at hstep
    · cases hstep
      exact Aside.of_eq rfl rfl rfl rfl
    · cases hstep
  | shutDownTimeline =>
    cases hstep
    exact Aside.of_eq rfl rfl rfl rfl
  | windUp index onWorker =>
    obtain ⟨job, next, waits, -, rfl⟩ := step_windUp hstep
    exact Aside.of_eq rfl rfl rfl rfl
  | goBack index =>
    obtain ⟨job, result, waits, -, rfl⟩ := step_goBack hstep
    refine ⟨rfl, rfl, rfl, [.returned job result], rfl, fun e he => ?_⟩
    rw [List.mem_singleton.mp he]
    rfl
  | take target =>
    simp only [step] at hstep
    split at hstep
    · obtain ⟨⟨entry, t'⟩, -, hs'⟩ := Option.map_eq_some_iff.mp hstep
      cases hs'
      exact startTask_aside setup s _ entry
    · cases hstep
  | settle target =>
    simp only [step] at hstep
    split at hstep
    · cases hstep
      exact Aside.of_eq rfl rfl rfl rfl
    · cases hstep
  | serve =>
    simp only [step] at hstep
    split at hstep
    · cases hstep
    · obtain ⟨⟨due?, w'⟩, -, hs'⟩ := Option.map_eq_some_iff.mp hstep
      cases due? with
      | some entry =>
        cases hs'
        exact startTask_aside setup s _ entry
      | none =>
        cases hs'
        exact Aside.of_eq rfl rfl rfl rfl
  | pass instant =>
    cases hstep
    exact Aside.of_eq rfl rfl rfl rfl

/-! ### The operation in progress -/

theorem step_turn {index : Nat} (hstep : step setup s (.turn index) = some s')
    (hpending : ∀ thread ∈ s.waiting, thread.rest = thread.job.pending setup) :
    ∃ job, s.current = none ∧ s.waiting[index]? = some ⟨job, job.pending setup⟩ ∧
      s' = { s with waiting := s.waiting.eraseIdx index }.enter true job
        (job.body setup >>= job.close) := by
  simp only [step] at hstep
  split at hstep
  · rename_i job next hcurrent hindex
    have hrest : Program.call .acquire next = job.pending setup :=
      hpending _ (List.mem_of_getElem? hindex)
    cases hrest
    cases hstep
    exact ⟨job, hcurrent, hindex, rfl⟩
  · cases hstep

theorem step_of_pending {index : Nat} {job : Job} (hidle : s.current = none)
    (hindex : s.waiting[index]? = some ⟨job, job.pending setup⟩) :
    step setup s (.turn index) =
      some ({ s with waiting := s.waiting.eraseIdx index }.enter true job
        (job.body setup >>= job.close)) := by
  simp only [step]
  split
  · rename_i job' next hcurrent hindex'
    cases hindex.symm.trans hindex'
    rfl
  · rename_i hother
    exact absurd hindex (hother _ _ hidle)

theorem step_answer {answer : Answer} (hstep : step setup s (.answer answer) = some s') :
    ∃ job c next a, s.current = some ⟨job, .call c next⟩ ∧ answer.to? c = some a ∧
      s' = ({ s with current := none }.note (.answered c a s.client.scheduler.clock)).enter
        true job
        (next a) := by
  simp only [step] at hstep
  split at hstep
  · rename_i job c next hcurrent
    obtain ⟨a, ha, hs'⟩ := Option.map_eq_some_iff.mp hstep
    exact ⟨job, c, next, a, hcurrent, ha, hs'.symm⟩
  · cases hstep

theorem step_fail (hstep : step setup s .fail = some s') :
    ∃ job c next, s.current = some ⟨job, .call c next⟩ ∧ canFail c = true ∧
      s' = { s with current := none }.note (.failed job c) := by
  simp only [step] at hstep
  split at hstep
  · rename_i job c next hcurrent
    split at hstep
    · rename_i hfails
      cases hstep
      exact ⟨job, c, next, hcurrent, hfails, rfl⟩
    · cases hstep
  · cases hstep

/-- A call that the client cannot answer is where a program stops for the time being. -/
theorem proceed_of_none {α : Type} {holds : Bool} {c : Call} {next : c.Answer → Program α}
    {client : Client Task} (hc : c ≠ .release) (h : client.answer? .work c = none) :
    proceed holds (.call c next) client = { client, holds, rest := .call c next } := by
  cases c <;> simp_all [proceed, Client.answer?]

variable {job : Job} {p : Program Bool}

theorem report_withClient (s : Service) (lines : List Log.Line) (client : Client Task) :
    { s.report lines with client := client } = { s with client := client }.report lines := by
  unfold report
  induction lines generalizing s with
  | nil => rfl
  | cons line rest ih => exact ih (s.note (.reported line))

/-- A job goes on by itself over a call that its client answers. -/
theorem enter_of_reply {holds : Bool} {c : Call} {next : c.Answer → Program Bool}
    {reply : Client.Reply Task c.Answer} (h : s.client.answer? .work c = some reply) :
    s.enter holds job (.call c next) =
      ({ s with client := reply.client }.report reply.lines).enter holds job
        (next reply.answer) := by
  have hclient :
      ({ s with client := reply.client }.report reply.lines).client = reply.client := by
    rw [report_eq]
  have hlines : ∀ (client : Client Task) (lines : List Log.Line),
      { s with client := client }.report (reply.lines ++ lines) =
        Service.report
          { { s with client := reply.client }.report reply.lines with
            client := client } lines := by
    intro client lines
    rw [report_withClient]
    exact List.foldl_append
  unfold enter
  rw [hclient, proceed_of_reply h]
  dsimp only
  rw [hlines]

/-- A call to the surroundings is where a job stops for the time being. -/
theorem enter_of_isAsked {c : Call} {next : c.Answer → Program Bool} (hc : isAsked c = true) :
    s.enter true job (.call c next) = { s with current := some ⟨job, .call c next⟩ } := by
  have hproceed : proceed true (.call c next) s.client =
      { client := s.client, holds := true, rest := .call c next } := proceed_of_isAsked hc
  have hopen : c ≠ .shutDownTimeline := by
    rintro rfl
    cases hc
  rw [enter_of_call (by rw [hproceed]) hopen, hproceed, if_pos rfl]
  rfl

theorem enter_client (s : Service) (holds : Bool) (job : Job) (p : Program Bool) :
    (s.enter holds job p).client = (proceed holds p s.client).client := by
  cases hover : outcome? (proceed holds p s.client).rest with
  | some result =>
    rw [enter_of_outcome hover, depart_eq, report_eq]
    rfl
  | none =>
    rw [enter_of_none hover]
    dsimp only
    split <;> rw [report_eq]

/-- Who is in progress once a thread went on is that thread. -/
theorem enter_current {holds : Bool} {thread : Thread} (hcurrent : s.current = none)
    (h : (s.enter holds job p).current = some thread) :
    thread = ⟨job, (proceed holds p s.client).rest⟩ := by
  cases hover : outcome? (proceed holds p s.client).rest with
  | some result =>
    rw [enter_of_outcome hover, depart_eq, report_eq] at h
    cases hcurrent.symm.trans h
  | none =>
    rw [enter_of_none hover] at h
    dsimp only at h
    split at h
    · cases h
      rfl
    · rw [report_eq] at h
      cases hcurrent.symm.trans h

/-- What a thread adds to the history while it goes on tells of no failure. -/
theorem enter_extends (s : Service) (holds : Bool) (job : Job) (p : Program Bool) :
    ∃ events, (s.enter holds job p).history = events ++ s.history ∧
      ∀ e ∈ events, e.isFailure = false := by
  let reported : List Event := (proceed holds p s.client).lines.reverse.map .reported
  have hreported : ∀ e ∈ reported, e.isFailure = false := by
    intro e he
    obtain ⟨line, -, rfl⟩ := List.mem_map.mp he
    rfl
  cases hover : outcome? (proceed holds p s.client).rest with
  | some result =>
    rw [enter_of_outcome hover, depart_eq]
    refine ⟨.ended job result :: reported, ?_, ?_⟩
    · change Event.ended job result :: (Service.report _ _).history = _
      rw [report_history]
      rfl
    · intro e he
      rcases List.mem_cons.mp he with rfl | hline
      · rfl
      · exact hreported e hline
  | none =>
    rw [enter_of_none hover]
    refine ⟨reported, ?_, hreported⟩
    dsimp only
    split
    · exact report_history _ _
    · exact report_history _ _

/-- Where no operation is in progress and none has its turn, the registration is left alone. -/
theorem step_idle {input : Input} (hstep : step setup s input = some s')
    (hidle : s.current = none) (hturn : ∀ index, input ≠ .turn index) :
    s'.current = none ∧ s'.client.registration = s.client.registration := by
  cases input with
  | turn index => exact absurd rfl (hturn index)
  | answer answer =>
    obtain ⟨job, c, next, a, hcurrent, -, -⟩ := step_answer hstep
    cases hidle.symm.trans hcurrent
  | fail =>
    obtain ⟨job, c, next, hcurrent, -, -⟩ := step_fail hstep
    cases hidle.symm.trans hcurrent
  | _ =>
    have haside := step_aside hstep rfl
    exact ⟨haside.current.trans hidle, haside.registration⟩

/-! ### Those that wait for their turn -/

theorem enter_waiting (s : Service) (holds : Bool) (job : Job) (p : Program Bool) :
    s.waiting <+: (s.enter holds job p).waiting := by
  cases hover : outcome? (proceed holds p s.client).rest with
  | some result =>
    rw [enter_of_outcome hover, depart_eq, report_eq]
    exact List.prefix_rfl
  | none =>
    rw [enter_of_none hover, report_eq]
    dsimp only
    split
    · exact List.prefix_rfl
    · exact List.prefix_append _ _

theorem launch_waiting (setup : Setup) (s : Service) (job : Job) :
    s.waiting <+: (launch setup s job).waiting :=
  enter_waiting (s.note (.began job)) false job (job.program setup)

theorem startTask_waiting (setup : Setup) (s : Service) (entry : Timeline.Entry Task) :
    s.waiting <+: (startTask setup s entry).waiting := by
  unfold startTask
  split
  · exact launch_waiting setup s _
  · exact List.prefix_rfl

/-- Nobody that waits for its turn goes away without having it. -/
theorem step_waiting {input : Input} (hstep : step setup s input = some s')
    (hturn : ∀ index, input ≠ .turn index) : s.waiting <+: s'.waiting := by
  cases input with
  | turn index => exact absurd rfl (hturn index)
  | answer answer =>
    obtain ⟨job, c, next, a, -, -, rfl⟩ := step_answer hstep
    let answered : Service :=
      { s with current := none }.note (.answered c a s.client.scheduler.clock)
    exact enter_waiting answered true job (next a)
  | fail =>
    obtain ⟨job, c, next, -, -, rfl⟩ := step_fail hstep
    exact List.prefix_rfl
  | operate operation =>
    cases hstep
    exact launch_waiting setup s (.operation operation)
  | start | gate | schedule | shutDownTimeline | pass =>
    cases hstep
    exact List.prefix_rfl
  | cancel number =>
    simp only [step] at hstep
    split at hstep
    · cases hstep
      exact List.prefix_rfl
    · cases hstep
  | windUp index onWorker =>
    obtain ⟨job, next, waits, -, rfl⟩ := step_windUp hstep
    exact List.prefix_rfl
  | goBack index =>
    obtain ⟨job, result, waits, -, rfl⟩ := step_goBack hstep
    exact List.prefix_rfl
  | take target =>
    simp only [step] at hstep
    split at hstep
    · obtain ⟨⟨entry, t'⟩, -, rfl⟩ := Option.map_eq_some_iff.mp hstep
      exact startTask_waiting setup (s.withScheduler (.timeline t')) entry
    · cases hstep
  | settle target =>
    simp only [step] at hstep
    split at hstep
    · cases hstep
      exact List.prefix_rfl
    · cases hstep
  | serve =>
    simp only [step] at hstep
    split at hstep
    · cases hstep
    · obtain ⟨⟨due?, w'⟩, -, rfl⟩ := Option.map_eq_some_iff.mp hstep
      cases due? with
      | some entry => exact startTask_waiting setup (s.withScheduler (.worker w')) entry
      | none => exact List.prefix_rfl

/-! ### Histories -/

/-- A history is never rewritten, and only a failure adds one. -/
theorem step_extends {input : Input} (hstep : step setup s input = some s') :
    ∃ events, s'.history = events ++ s.history ∧
      (input ≠ .fail → ∀ e ∈ events, e.isFailure = false) := by
  cases input with
  | turn index =>
    simp only [step] at hstep
    split at hstep
    · rename_i job next hcurrent hindex
      cases hstep
      obtain ⟨events, hevents, hunfailing⟩ := enter_extends
        { s with waiting := s.waiting.eraseIdx index } true job (next ())
      exact ⟨events, hevents, fun _ => hunfailing⟩
    · cases hstep
  | answer answer =>
    obtain ⟨job, c, next, a, -, -, rfl⟩ := step_answer hstep
    obtain ⟨events, hevents, hunfailing⟩ := enter_extends
      ({ s with current := none }.note (.answered c a s.client.scheduler.clock)) true job (next a)
    refine ⟨events ++ [.answered c a s.client.scheduler.clock], ?_, ?_⟩
    · rw [hevents, List.append_assoc]
      rfl
    · intro _ e he
      rcases List.mem_append.mp he with hmore | hheard
      · exact hunfailing e hmore
      · rw [List.mem_singleton.mp hheard]
        rfl
  | fail =>
    obtain ⟨job, c, next, -, -, rfl⟩ := step_fail hstep
    exact ⟨[.failed job c], rfl, fun h => absurd rfl h⟩
  | _ =>
    obtain ⟨events, hevents, haside⟩ := (step_aside hstep rfl).history
    refine ⟨events, hevents, fun _ e he => ?_⟩
    have hasideEvent := haside e he
    cases e <;> first | rfl | cases hasideEvent

theorem unfailing_of_step {input : Input} (hstep : step setup s input = some s')
    (hinput : input ≠ .fail) (h : Unfailing s.history) : Unfailing s'.history := by
  obtain ⟨events, hevents, hunfailing⟩ := step_extends hstep
  intro e he
  rw [hevents] at he
  rcases List.mem_append.mp he with hnew | hold
  · exact hunfailing hinput e hnew
  · exact h e hold

theorem run_extends {inputs : List Input} (hrun : run setup s inputs = some s') :
    ∃ events, s'.history = events ++ s.history := by
  refine run_induction (P := fun x => ∃ events, x.history = events ++ s.history) ?_ ⟨[], rfl⟩ hrun
  rintro x input x' ⟨events, hevents⟩ hstep
  obtain ⟨more, hmore, -⟩ := step_extends hstep
  exact ⟨more ++ events, by rw [hmore, hevents, List.append_assoc]⟩

theorem run_append (setup : Setup) (s : Service) (inputs more : List Input) :
    run setup s (inputs ++ more) = (run setup s inputs).bind fun mid => run setup mid more := by
  induction inputs generalizing s with
  | nil => rfl
  | cons input rest ih =>
    rw [List.cons_append, run, run, Option.bind_assoc]
    exact Option.bind_congr fun mid _ => ih mid

/-- Where no call has failed, none has failed before. -/
theorem unfailing_of_run {inputs : List Input} (hrun : run setup s inputs = some s')
    (hunfailing : Unfailing s'.history) : Unfailing s.history ∧ .fail ∉ inputs := by
  induction inputs generalizing s with
  | nil =>
    cases hrun
    exact ⟨hunfailing, by simp⟩
  | cons input rest ih =>
    obtain ⟨mid, hmid, hrest⟩ := Option.bind_eq_some_iff.mp hrun
    obtain ⟨hmidUnfailing, hnone⟩ := ih hrest
    obtain ⟨events, hevents, -⟩ := step_extends hmid
    refine ⟨fun e he => hmidUnfailing e (hevents ▸ List.mem_append_right events he), ?_⟩
    intro hmem
    rcases List.mem_cons.mp hmem with rfl | hlater
    · obtain ⟨job, c, next, -, -, rfl⟩ := step_fail hmid
      have hfailure := hmidUnfailing (.failed job c) List.mem_cons_self
      cases hfailure
    · exact hnone hlater

/-- The work of a job is done, and the job gives up its turn at once. -/
theorem enter_of_finished {result : Bool} (hholds : (proceed true p s.client).holds = true)
    (hrest : (proceed true p s.client).rest = .done result) :
    s.enter true job (p >>= job.close) =
      (({ s with client := (proceed true p s.client).client }.report
        (proceed true p s.client).lines).note (.ended job result)).depart
          ⟨job, job.coda result⟩ := by
  have hwhole : proceed true (p >>= job.close) s.client =
      { client := (proceed true p s.client).client
        lines := (proceed true p s.client).lines, holds := false, rest := job.coda result } := by
    rw [proceed_bind _ hholds, hrest]
    dsimp only
    rw [Job.proceed_close, List.append_nil]
  have hover : outcome? (proceed true (p >>= job.close) s.client).rest = some result := by
    rw [hwhole]
    exact job.outcome?_coda result
  rw [enter_of_outcome hover, hwhole]

/-- Whoever keeps the turn stops only at a call that the client cannot answer. -/
theorem answer?_of_proceed {c : Call} {next : c.Answer → Program Bool} {client : Client Task}
    (hholds : (proceed true p client).holds = true)
    (hrest : (proceed true p client).rest = .call c next) :
    (proceed true p client).client.answer? .work c = none := by
  induction p generalizing client with
  | done value => cases hrest
  | call c' next' ih =>
    by_cases hc : c' = .release
    · subst hc
      cases hholds
    · cases hreply : client.answer? .work c' with
      | some reply =>
        rw [proceed_of_reply hreply] at hholds hrest ⊢
        exact ih reply.answer hholds hrest
      | none =>
        rw [proceed_of_none hc hreply] at hrest ⊢
        cases hrest
        exact hreply

/-- The work of a job comes to a call to the surroundings. -/
theorem enter_of_asking {c : Call} {next : c.Answer → Program Bool}
    (hholds : (proceed true p s.client).holds = true)
    (hrest : (proceed true p s.client).rest = .call c next) :
    s.enter true job (p >>= job.close) =
      { { s with client := (proceed true p s.client).client }.report
          (proceed true p s.client).lines with
        current := some ⟨job, .call c fun a => next a >>= job.close⟩ } := by
  have hwhole : proceed true (p >>= job.close) s.client =
      { client := (proceed true p s.client).client, lines := (proceed true p s.client).lines
        holds := true, rest := .call c fun a => next a >>= job.close } := by
    rw [proceed_bind _ hholds, hrest]
    rfl
  have hc : c ≠ .shutDownTimeline := by
    rintro rfl
    cases answer?_of_proceed hholds hrest
  rw [enter_of_call (by rw [hwhole]) hc, hwhole, if_pos rfl]

/-- Whether the latest event is the end of an operation with a result. -/
def hasEnded (s : Service) (operation : Operation) (result : Bool) : Bool :=
  match s.history.head? with
  | some (.ended (.operation operation') result') =>
    decide (operation' = operation ∧ result' = result)
  | _ => false

theorem head?_of_hasEnded {operation : Operation} {result : Bool}
    (h : s.hasEnded operation result = true) :
    s.history.head? = some (.ended (.operation operation) result) := by
  unfold hasEnded at h
  split at h
  · rename_i hhead
    obtain ⟨rfl, rfl⟩ := of_decide_eq_true h
    exact hhead
  · cases h

/-- Whether the latest event is the return of an operation with a result. -/
def hasReturned (s : Service) (operation : Operation) (result : Bool) : Bool :=
  match s.history.head? with
  | some (.returned (.operation operation') result') =>
    decide (operation' = operation ∧ result' = result)
  | _ => false

theorem head?_of_hasReturned {operation : Operation} {result : Bool}
    (h : s.hasReturned operation result = true) :
    s.history.head? = some (.returned (.operation operation) result) := by
  unfold hasReturned at h
  split at h
  · rename_i hhead
    obtain ⟨rfl, rfl⟩ := of_decide_eq_true h
    exact hhead
  · cases h

end Lwm2mClient.Service
