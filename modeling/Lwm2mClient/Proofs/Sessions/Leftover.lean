import Lwm2mClient.Proofs.Sessions.Shutdown
import Lwm2mClient.Proofs.Sessions.Window
import Mathlib.Data.List.Basic
import Mathlib.Data.List.Induction

/-!
What a failed call leaves behind at the gate. An operation closes the session that it opened,
whatever its server answers, and no other. It does not close it if it is abandoned meanwhile, and
the one call that can fail while an operation has a session is its Bootstrap request. Nobody but a
message closes the session after that, and until then every attempt to bootstrap is refused.
-/
namespace Lwm2mClient

open Net Engine Program

/-- Whether an operation has a session that it has not closed yet. It opens one only if it has
none and closes only its own. While it has one it asks its surroundings for nothing else than
what belongs to the session. -/
def owning : Monitor Bool where
  permits own
    | .acquire | .release => False
    | .openSession _ => own = false
    | .closeSession => own = true
    | .send _ _ (.bootstrap _) _ | .awaitFinish _ => True
    | .objectIds | .readObject _ | .deleteInstance .. | .send .. => own = false
    | _ => True
  moves own c a own' :=
    match c with
    | .openSession _ => own' = a
    | .closeSession => own' = false
    | _ => own' = own

namespace Owning

variable {α : Type} {setup : Setup} {own : Bool}

theorem manages (c : Call) (own : Bool) (hc : c.isManagement) (hown : own = false) :
    owning.permits own c ∧ ∀ a own', owning.moves own c a own' → own' = false := by
  cases c with
  | send peer secure request timeout =>
    cases request with
    | bootstrap endpoint => exact absurd hc id
    | _ => exact ⟨hown, fun _ _ hmove => hmove.trans hown⟩
  | objectIds => exact ⟨hown, fun _ _ hmove => hmove.trans hown⟩
  | readObject object => exact ⟨hown, fun _ _ hmove => hmove.trans hown⟩
  | log | registration | setRegistration | schedule | cancelTask =>
    exact ⟨trivial, fun _ _ hmove => hmove.trans hown⟩
  | _ => exact absurd hc id

/-- Upkeep is possible at any time, and opens and closes nothing. -/
theorem keeps_upkeep {p : Program α} {mid : α → Prop} {post : α → Bool → Prop}
    (hp : p.Asks Call.isUpkeep mid) (h : ∀ v, post v own) : p.Keeps owning post own := by
  refine Keeps.of_still hp (fun c hc => ?_) h
  cases c with
  | log | registration | setRegistration | schedule | cancelTask =>
    exact ⟨trivial, fun _ _ hmove => hmove⟩
  | _ => exact absurd hc id

theorem keeps_line {line : Log.Line} {post : Unit → Bool → Prop} (h : post () own) :
    (log line).Keeps owning post own := by
  refine Keeps.perform trivial ?_
  rintro ⟨⟩ own' rfl
  exact h

theorem keeps_awaitBootstrap {answer : Option Response} {post : Bool → Bool → Prop}
    (h : ∀ finished, post finished own) :
    (awaitBootstrap setup answer).Keeps owning post own := by
  have hfailed (line : Log.Line) : (log line).Keeps owning (fun _ => post false) own :=
    keeps_line (h false)
  refine Keeps.awaitBootstrap (hfailed _) (fun _ => hfailed _)
    (keeps_line (Keeps.perform trivial ?_))
  rintro finished own' rfl
  cases finished with
  | true => exact h true
  | false => exact hfailed _

theorem keeps_bootstrapNow (hown : own = false) :
    (bootstrapNow setup).Keeps owning (fun _ own' => own' = false) own := by
  have hmanages {β : Type} {p : Program β} {mid : β → Prop} {post : β → Bool → Prop} {own : Bool}
      (hp : p.Asks Call.isManagement mid) (hown : own = false) (h : ∀ v, post v false) :
      p.Keeps owning post own :=
    Keeps.of_asks (fun own' => own' = false) hp hown manages fun v own' _ hown' => hown' ▸ h v
  refine Keeps.bind (hmanages (reads_manages (requireBootstrap_reads setup)) hown fun found => ?_)
  cases found with
  | error e => exact Keeps.bind (keeps_line rfl)
  | ok found =>
    refine Keeps.bind (Keeps.perform rfl ?_)
    rintro _ opened rfl
    cases opened with
    | false => exact Keeps.bind (keeps_line rfl)
    | true =>
      refine Keeps.bind (keeps_upkeep (fire_upkeep .bootstrap) fun _ => ?_)
      refine Keeps.bind (Keeps.perform trivial ?_)
      rintro answer own' rfl
      refine Keeps.bind (keeps_awaitBootstrap fun finished => Keeps.bind (Keeps.perform rfl ?_))
      rintro ⟨⟩ own' rfl
      cases finished with
      | true =>
        exact Keeps.bind (keeps_line (hmanages (registerNow_manages setup) rfl fun _ => rfl))
      | false => exact Keeps.bind (keeps_upkeep forget_upkeep fun _ => rfl)

theorem suits (setup : Setup) :
    Service.Suits setup owning (fun own => own = false) fun own => own = false :=
  ⟨manages, fun _ => keeps_bootstrapNow, fun _ hown => hown⟩

/-- Where the gate is beside an operation, `left` telling whether a session was left behind before
it. -/
structure IsAt (left own : Bool) (client : Client Service.Task)
    (_history : List Service.Event) : Prop where
  whole : ∀ number, client.gate.session ≠ .broken number
  owned : client.gate.isActive = true → own = true ∨ left = true
  left : left = true → client.gate.isActive = true ∧ own = false

/-- What is known of a gate is known of its session. -/
theorem IsAt.of_session {left : Bool} {client client' : Client Service.Task}
    {history history' : List Service.Event} (h : IsAt left own client history)
    (hsession : client'.gate.session = client.gate.session) : IsAt left own client' history' := by
  have hactive : client'.gate.isActive = client.gate.isActive := by
    simp only [Gate.isActive, hsession]
  exact ⟨hsession ▸ h.whole, hactive ▸ h.owned, hactive ▸ h.left⟩

/-- Whatever the session of an operation was, a closed gate is right for it. -/
theorem IsAt.of_closed {client : Client Service.Task} {history : List Service.Event}
    (hsession : client.gate.session = .closed) (own : Bool) : IsAt false own client history := by
  have hshut : client.gate.isActive = false := by
    simp only [Gate.isActive, hsession]
  refine ⟨fun number => by
    simp [hsession], fun hactive => ?_, fun hleft => absurd hleft Bool.false_ne_true⟩
  cases hshut.symm.trans hactive

end Owning

/-! ### Beside the operations -/

namespace Service

open Owning

theorem owning_sees (left : Bool) : Sees owning (IsAt left) where
  ofTurn own c hc := by
    constructor <;> rintro rfl <;> exact hc
  reply own client history c reply hx hc hreply := by
    cases c with
    | openSession peer =>
      cases hreply
      refine ⟨_, rfl, ?_⟩
      dsimp only
      by_cases hclosed : client.gate.session = .closed
      · obtain ⟨hgate, hopened⟩ := Gate.tryOpen_of_closed hclosed peer
        have hnotLeft : left = false := by
          refine Bool.eq_false_iff.mpr fun hleft => ?_
          have hactive := (hx.left hleft).1
          simp only [Gate.isActive, hclosed] at hactive
          cases hactive
        rw [hopened]
        refine ⟨?_, fun _ => Or.inl rfl, fun hleft => by cases hnotLeft.symm.trans hleft⟩
        dsimp only
        rw [hgate]
        intro number hnumber
        cases hnumber
      · obtain ⟨hgate, hrefused⟩ := Gate.tryOpen_of_not_closed hclosed peer
        rw [hrefused]
        have hown : own = false := hc
        rw [← hown]
        exact hx.of_session (by dsimp only; rw [hgate])
    | closeSession =>
      cases hreply
      have hclosed := Gate.close_gate hx.whole
      have hnotLeft : left = false := by
        refine Bool.eq_false_iff.mpr fun hleft => ?_
        cases (hx.left hleft).2.symm.trans hc
      refine ⟨_, rfl, hnotLeft ▸ IsAt.of_closed ?_ _⟩
      dsimp only
      rw [hclosed]
    | log | registration | setRegistration | sessionActive | schedule | cancelTask
        | shutDownTimeline =>
      cases hreply
      exact ⟨own, rfl, hx.of_session rfl⟩
    | _ => cases hreply

theorem owning_serves (setup : Setup) (left : Bool) :
    Serves setup owning (IsAt left) (fun _ _ own => own = false) (IsAt left false) where
  replies := owning_sees left
  begins job client history h := ⟨false, h, (Owning.suits setup).body job rfl⟩
  hears own client history c a clock hx hc hasked := by
    refine ⟨own, ?_, hx.of_session rfl⟩
    cases c <;> first | rfl | cases hasked
  ends job result own client history hx hown := by
    rw [show own = false from hown] at hx
    exact hx.of_session rfl

/-- What a service keeps, `left` telling whether a session was left behind. -/
abbrev Keeping (left : Bool) (s : Service) : Prop :=
  Monitored owning (IsAt left) (fun _ _ own => own = false) (IsAt left false) s

variable {setup : Setup} {left : Bool} {s s' : Service}

theorem Keeping.of_session (h : Keeping left s) (hcurrent : s'.current = s.current)
    (hsession : s'.client.gate.session = s.client.gate.session) : Keeping left s' :=
  Monitored.aside h hcurrent (fun hs => hs.of_session hsession) fun _ hx => hx.of_session hsession

/-- A message has closed the session, whose ever it was. -/
theorem Keeping.of_closed (h : Keeping left s) (hcurrent : s'.current = s.current)
    (hsession : s'.client.gate.session = .closed) : Keeping false s' := by
  refine ⟨fun _ => IsAt.of_closed hsession _, fun thread hthread => ?_⟩
  obtain ⟨c, next, own, hasked, hrest, -, hkeeps⟩ := h.busy thread (hcurrent ▸ hthread)
  exact ⟨c, next, own, hasked, hrest, IsAt.of_closed hsession own, hkeeps⟩

theorem Keeping.whole (h : Keeping left s) (number : Nat) :
    s.client.gate.session ≠ .broken number := by
  cases hcurrent : s.current with
  | none => exact (h.idle hcurrent).whole number
  | some thread =>
    obtain ⟨c, next, own, -, -, hx, -⟩ := h.busy thread hcurrent
    exact hx.whole number

/-- A call that fails leaves a session behind iff one is open and the call is the
Bootstrap request of the session. -/
theorem Keeping.fail (h : Keeping left s) (hstep : step setup s .fail = some s') :
    ∃ job c next, s.current = some ⟨job, .call c next⟩ ∧
      Keeping (left || (s.client.gate.isActive && c.isBootstrap)) s' := by
  obtain ⟨job, c, next, hcurrent, hfails, rfl⟩ := step_fail hstep
  obtain ⟨c', next', own, -, hrest, hx, hpermits, -⟩ := h.busy _ hcurrent
  dsimp only at hrest
  cases hrest
  refine ⟨job, c, _, hcurrent, fun _ =>
    ⟨hx.whole, fun hactive => ?_, fun hleft => ⟨?_, rfl⟩⟩, nofun⟩
  · -- an operation that has a session asks for nothing that can fail but the request
    rcases hx.owned hactive with hown | hleft
    · have hrequest : c.isBootstrap = true := by
        cases c with
        | send peer secure request timeout =>
          cases request with
          | bootstrap endpoint => rfl
          | _ => cases hown.symm.trans hpermits
        | objectIds | readObject | deleteInstance => cases hown.symm.trans hpermits
        | _ => cases hfails
      have hopen : s.client.gate.isActive = true := hactive
      simp [hopen, hrequest]
    · simp [hleft]
  · rcases Bool.or_eq_true_iff.mp hleft with hbefore | hnow
    · exact (hx.left hbefore).1
    · exact (Bool.and_eq_true_iff.mp hnow).1

/-- A bootstrap that the host asks for is refused at once if a session is open, and
waits for its turn otherwise. -/
theorem launch_bootstrap (setup : Setup) (s : Service) :
    (launch setup s (.operation .bootstrap)).waiting =
      if s.client.gate.isActive = true then s.waiting
      else s.waiting ++ [⟨.operation .bootstrap, (Job.operation .bootstrap).pending setup⟩] := by
  have hprogram : (Job.operation .bootstrap).program setup = .call .sessionActive fun active =>
      if active = true then .call (.log .bootstrapInProgress) fun _ => .done false
      else (Job.operation .bootstrap).pending setup := rfl
  have hreply : (s.note (.began (.operation .bootstrap))).client.answer? .work .sessionActive =
      some { answer := s.client.gate.isActive, client := s.client } := rfl
  rw [launch, hprogram, enter_of_reply hreply]
  split <;> rfl

end Service

/-! ### Messages -/

namespace Gate

variable {g : Gate} {messages : List Message}

/-- Only a cancellation does anything to the session itself. -/
theorem session_receive {m : Message} (h : m ≠ .cancel) : (g.receive m).session = g.session := by
  cases m with
  | finish sender =>
    change (g.finish sender).gate.session = g.session
    unfold finish
    split <;> rfl
  | delete sender path => rfl
  | cancel => exact absurd rfl h

theorem session_receiveAll (h : .cancel ∉ messages) :
    (g.receiveAll messages).session = g.session := by
  induction messages generalizing g with
  | nil => rfl
  | cons m rest ih =>
    have hm : m ≠ .cancel := fun heq => h (heq ▸ List.mem_cons_self)
    rw [receiveAll_cons, ih (List.not_mem_of_not_mem_cons h), session_receive hm]

theorem session_receiveAll_of_closed (h : g.session = .closed) :
    (g.receiveAll messages).session = .closed := by
  induction messages generalizing g with
  | nil => exact h
  | cons m rest ih =>
    refine ih ?_
    by_cases hm : m = .cancel
    · rw [hm, receive_cancel (by simp [h])]
    · rw [session_receive hm, h]

theorem session_receiveAll_of_cancel (hwhole : ∀ number, g.session ≠ .broken number)
    (h : .cancel ∈ messages) : (g.receiveAll messages).session = .closed := by
  induction messages generalizing g with
  | nil => cases h
  | cons m rest ih =>
    by_cases hm : m = .cancel
    · subst hm
      rw [receiveAll_cons]
      refine session_receiveAll_of_closed ?_
      rw [receive_cancel hwhole]
    · refine ih ?_ (List.mem_of_ne_of_mem (Ne.symm hm) h)
      rw [session_receive hm]
      exact hwhole

end Gate

/-! ### Runs -/

namespace Reception

open Service (Keeping)

variable {setup : Setup} {r r' : Reception} {inputs : List Input}

/-- Some Bootstrap request failed while its session was open, and no message has
cancelled the session since. -/
def LeftOpen (setup : Setup) (r : Reception) (inputs : List Input) : Prop :=
  ∃ before since r₀, inputs = before ++ .service .fail :: since ∧ run setup r before = some r₀ ∧
    r₀.gate.isActive = true ∧ (∃ address, r₀.bootstrapPeer? = some address) ∧
      .cancel ∉ messages since

theorem leftOpen_concat {input : Input} (hrun : run setup r inputs = some r') :
    LeftOpen setup r (inputs ++ [input]) ↔
      input = .service .fail ∧ r'.gate.isActive = true ∧
      (∃ address, r'.bootstrapPeer? = some address) ∨
        LeftOpen setup r inputs ∧ .cancel ∉ input.messages := by
  constructor
  · rintro ⟨before, since, r₀, hinputs, hbefore, hactive, hrequest, hsince⟩
    rcases List.eq_nil_or_concat' since with rfl | ⟨since, last, rfl⟩
    · obtain ⟨rfl, hlast⟩ := List.append_inj' hinputs rfl
      cases hlast
      cases hrun.symm.trans hbefore
      exact Or.inl ⟨rfl, hactive, hrequest⟩
    · rw [← List.cons_append, ← List.append_assoc] at hinputs
      obtain ⟨rfl, hlast⟩ := List.append_inj' hinputs rfl
      cases hlast
      rw [messages_append, List.mem_append, not_or] at hsince
      refine Or.inr ⟨⟨before, since, r₀, rfl, hbefore, hactive, hrequest, hsince.1⟩, ?_⟩
      simpa [messages] using hsince.2
  · rintro (⟨rfl, hactive, hrequest⟩ | ⟨⟨before, since, r₀, rfl, hbefore, hopen⟩, hnow⟩)
    · exact ⟨inputs, [], r', rfl, hrun, hactive, hrequest, by simp [messages]⟩
    · obtain ⟨hactive, hrequest, hsince⟩ := hopen
      refine ⟨before, since ++ [input], r₀, by simp, hbefore, hactive, hrequest, ?_⟩
      rw [messages_append, List.mem_append, not_or]
      exact ⟨hsince, by simpa [messages] using hnow⟩

/-- A call that fails leaves a session behind iff it is the request of an open session, or
one was left behind before. -/
theorem keeping_of_fail {left : Bool} (hkeeping : Keeping left r.service)
    (hstep : step setup r (.service .fail) = some r') :
    ∃ left', Keeping left' r'.service ∧
      (left' = true ↔ r.gate.isActive = true ∧ (∃ address, r.bootstrapPeer? = some address) ∨
        left = true) := by
  simp only [step] at hstep
  obtain ⟨s', hs', rfl⟩ := Option.map_eq_some_iff.mp hstep
  obtain ⟨job, c, next, hcurrent, hleft⟩ := hkeeping.fail hs'
  have hrequest : c.isBootstrap = true ↔ ∃ address, r.bootstrapPeer? = some address := by
    simp only [bootstrapPeer?, asked?, hcurrent]
    unfold Call.isBootstrap
    split <;> simp_all
  refine ⟨_, hleft, ?_⟩
  rw [Bool.or_eq_true, Bool.and_eq_true, hrequest, or_comm]
  rfl

/-- A step from where nothing is left behind leaves a session behind iff it is the failure of the
request of an open session, and what was left behind stays so until a message cancels it. -/
theorem keeping_of_step {left : Bool} {input : Input} (h : Attended setup r)
    (hkeeping : Keeping left r.service) (hstep : step setup r input = some r') :
    ∃ left', Keeping left' r'.service ∧ (left' = true ↔
      input = .service .fail ∧ r.gate.isActive = true ∧
      (∃ address, r.bootstrapPeer? = some address) ∨
        left = true ∧ .cancel ∉ input.messages) := by
  by_cases hfail : input = .service .fail
  · subst hfail
    obtain ⟨left', hkeeping', hleft'⟩ := keeping_of_fail hkeeping hstep
    refine ⟨left', hkeeping', hleft'.trans ?_⟩
    simp [Input.messages]
  · by_cases haside : input.isAside = true
    · have hmeanwhile := step_meanwhile hstep haside
      have hgate : r'.gate = r.gate.receiveAll input.messages := by
        rw [hmeanwhile.gate, messages, List.flatMap_singleton]
      by_cases hcancel : .cancel ∈ input.messages
      · refine ⟨false, hkeeping.of_closed hmeanwhile.current ?_, by simp [hfail, hcancel]⟩
        change r'.gate.session = .closed
        rw [hgate]
        exact Gate.session_receiveAll_of_cancel hkeeping.whole hcancel
      · refine ⟨left, hkeeping.of_session hmeanwhile.current ?_, by simp [hfail, hcancel]⟩
        change r'.gate.session = r.gate.session
        rw [hgate, Gate.session_receiveAll hcancel]
    · rw [Bool.not_eq_true] at haside
      have hquiet : .cancel ∉ input.messages := by
        cases input with
        | service input =>
          cases input <;> simp_all [Input.messages, Input.isAside, Service.Input.isAside]
        | receive message => cases haside
        | _ => simp [Input.messages]
      obtain ⟨gate, -, hsession, hsteps⟩ := step_onward hstep haside
      have hmoved : Keeping left (r.withGate gate).service := hkeeping.of_session rfl hsession
      refine ⟨left, ?_, by simp [hfail, hquiet]⟩
      rcases hsteps with hsame | ⟨own, hown, hinput, hservice⟩
      · rw [hsame]
        exact hmoved
      · cases own with
        | turn index =>
          exact (Service.owning_serves setup left).turn hmoved h.inv.waiting hservice
        | answer answer => exact (Service.owning_serves setup left).answer hmoved hservice
        | fail => exact absurd (hinput.resolve_right (by simp)) hfail
        | _ => cases hown

theorem keeping_of_run {scheduler : Scheduler Service.Task}
    (hfresh : scheduler = .timeline {} ∨ scheduler = .worker {})
    (hrun : run setup { service := Service.initial scheduler } inputs = some r) :
    ∃ left, Keeping left r.service ∧
      (left = true ↔ LeftOpen setup { service := Service.initial scheduler } inputs) := by
  induction inputs using List.reverseRecOn generalizing r with
  | nil =>
    cases hrun
    refine ⟨false,
      ⟨fun _ => Owning.IsAt.of_closed rfl _, fun thread hthread => by cases hthread⟩, ?_⟩
    refine iff_of_false (by simp) ?_
    rintro ⟨before, since, -, hinputs, -⟩
    simp at hinputs
  | append_singleton inputs input ih =>
    rw [run_append] at hrun
    obtain ⟨mid, hmid, hlast⟩ := Option.bind_eq_some_iff.mp hrun
    have hstep : step setup mid input = some r := by
      simpa [run] using hlast
    obtain ⟨left, hkeeping, hleft⟩ := ih hmid
    obtain ⟨left', hkeeping', hleft'⟩ :=
      keeping_of_step (Attended.of_run hfresh hmid) hkeeping hstep
    exact ⟨left', hkeeping', by rw [hleft', leftOpen_concat hmid, hleft]⟩

/-- Whenever no operation is in progress, the session is open iff it was left open by a
Bootstrap request that failed. So that is when every attempt to bootstrap is refused: the one
of an operation that has its turn finds the gate taken, and the one that the host asks for does
not even wait for its turn. -/
theorem active_iff_leftOpen {scheduler : Scheduler Service.Task}
    (hfresh : scheduler = .timeline {} ∨ scheduler = .worker {})
    (hrun : run setup { service := Service.initial scheduler } inputs = some r)
    (hidle : r.service.current = none) :
    (r.gate.isActive = true ↔ LeftOpen setup { service := Service.initial scheduler } inputs) ∧
    (∀ peer, (r.gate.tryOpen peer).result = false ↔
      LeftOpen setup { service := Service.initial scheduler } inputs) ∧
    ∀ r', step setup r (.service (.operate .bootstrap)) = some r' →
      (r'.service.waiting = r.service.waiting ↔
        LeftOpen setup { service := Service.initial scheduler } inputs) := by
  obtain ⟨left, hkeeping, hleft⟩ := keeping_of_run hfresh hrun
  have hactive : r.gate.isActive = true ↔
      LeftOpen setup { service := Service.initial scheduler } inputs := by
    rw [← hleft]
    constructor
    · intro hopen
      exact ((hkeeping.idle hidle).owned hopen).resolve_left Bool.false_ne_true
    · intro htrue
      exact ((hkeeping.idle hidle).left htrue).1
  refine ⟨hactive, fun peer => ?_, fun r' hstep => ?_⟩
  · rw [← hactive, Gate.isActive]
    cases hsession : r.gate.session with
    | closed => simp [(Gate.tryOpen_of_closed hsession peer).2]
    | active other number =>
      have hnotClosed : r.gate.session ≠ .closed := by simp [hsession]
      simp [(Gate.tryOpen_of_not_closed hnotClosed peer).2]
    | broken number => exact absurd hsession (hkeeping.whole number)
  · cases hstep
    rw [← hactive]
    change (Service.launch setup r.service (.operation .bootstrap)).waiting = _ ↔ _
    rw [Service.launch_bootstrap]
    change (if r.gate.isActive = true then _ else _) = _ ↔ _
    split
    · rename_i hopen
      exact iff_of_true rfl hopen
    · rename_i hshut
      exact iff_of_false (by simp) hshut

/-- The Bootstrap request of an engine fails. -/
def abandoning : List Input := bootstrapping ++ [.service .fail]

/-- A session that a failed request left behind keeps every attempt out until a message cancels
it. -/
theorem leftOpen_once_failed :
    (∃ r, run ⟨{}, {}⟩ { service := Service.initial (.timeline {}) } abandoning = some r ∧
      r.service.current = none ∧ ∀ peer, (r.gate.tryOpen peer).result = false) ∧
    ∃ r, run ⟨{}, {}⟩ { service := Service.initial (.timeline {}) }
      (abandoning ++ [.receive .cancel]) =
        some r ∧ r.service.current = none ∧ r.gate.isActive = false ∧
      ¬LeftOpen ⟨{}, {}⟩ { service := Service.initial (.timeline {}) }
        (abandoning ++ [.receive .cancel]) := by
  have hfails : (run ⟨{}, {}⟩ { service := Service.initial (.timeline {}) } abandoning).any
      fun r => r.service.current.isNone && r.gate.isActive := by
    decide +kernel
  have hcancels : (run ⟨{}, {}⟩ { service := Service.initial (.timeline {}) }
      (abandoning ++ [.receive .cancel])).any fun r => r.service.current.isNone &&
        !r.gate.isActive := by
    decide +kernel
  obtain ⟨r, hr, hcheck⟩ := (Option.any_eq_true _ _).mp hfails
  obtain ⟨hidle, hactive⟩ := Bool.and_eq_true_iff.mp hcheck
  obtain ⟨r', hr', hcheck'⟩ := (Option.any_eq_true _ _).mp hcancels
  obtain ⟨hidle', hshut⟩ := Bool.and_eq_true_iff.mp hcheck'
  rw [Bool.not_eq_true'] at hshut
  rw [Option.isNone_iff_eq_none] at hidle hidle'
  obtain ⟨hleft, hrefused, -⟩ := active_iff_leftOpen (Or.inl rfl) hr hidle
  obtain ⟨hleft', -⟩ := active_iff_leftOpen (Or.inl rfl) hr' hidle'
  refine ⟨⟨r, hr, hidle, fun peer => (hrefused peer).mpr (hleft.mp hactive)⟩, r', hr',
    hidle', hshut, ?_⟩
  rw [← hleft', hshut]
  exact Bool.false_ne_true

/-- The only operation of a run is abandoned in its Bootstrap request. The session stays open, and
a bootstrap that the host asks for afterwards is refused at once. -/
theorem bootstrap_refused_after_failure :
    ∃ r r', run ⟨{}, {}⟩ { service := Service.initial (.timeline {}) } abandoning = some r ∧
      r.service.current = none ∧ r.service.waiting = [] ∧ r.gate.isActive = true ∧
      step ⟨{}, {}⟩ r (.service (.operate .bootstrap)) = some r' ∧ r'.service.waiting = [] ∧
      r'.service.hasEnded .bootstrap false = true := by
  have hpossible :
      (run ⟨{}, {}⟩ { service := Service.initial (.timeline {}) } abandoning).any fun r =>
      r.service.current.isNone && r.service.waiting.isEmpty && r.gate.isActive &&
        (step ⟨{}, {}⟩ r (.service (.operate .bootstrap))).any fun r' =>
          r'.service.waiting.isEmpty && r'.service.hasEnded .bootstrap false := by
    decide +kernel
  obtain ⟨r, hr, hcheck⟩ := (Option.any_eq_true _ _).mp hpossible
  simp only [Bool.and_eq_true, Option.isNone_iff_eq_none, List.isEmpty_iff] at hcheck
  obtain ⟨⟨⟨hidle, hwaiting⟩, hactive⟩, hcheck⟩ := hcheck
  obtain ⟨r', hr', hcheck'⟩ := (Option.any_eq_true _ _).mp hcheck
  simp only [Bool.and_eq_true, List.isEmpty_iff] at hcheck'
  exact ⟨r, r', hr, hidle, hwaiting, hactive, hr', hcheck'.1, hcheck'.2⟩

end Reception
end Lwm2mClient
