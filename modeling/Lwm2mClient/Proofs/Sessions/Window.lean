import Lwm2mClient.Proofs.Service.Bodies
import Lwm2mClient.Proofs.Service.Coherence
import Lwm2mClient.Proofs.Sessions.Attempts
import Lwm2mClient.Proofs.Sessions.Monitoring
import Lwm2mClient.Proofs.Sessions.Visits

/-!
The window in which a bootstrap server may act on the client. An operation opens a session right
before it sends its Bootstrap request and closes it before it does anything else, so a session is
open only while the lifecycle is bootstrapping and that request is on its way or its end is waited
for. A message may close the window earlier, and none can open it.
-/
namespace Lwm2mClient

open Net Engine Program

/-- The calls in the middle of a bootstrap session. -/
def Call.isOfSession : Call → Prop
  | .send _ _ (.bootstrap _) _ | .awaitFinish _ => True
  | _ => False

structure Window where
  /-- Whether the operation has a session that it has not closed yet. -/
  isOpen : Bool
  lifecycle : Lifecycle

/-- While it has a session, an operation asks nothing of its surroundings but what belongs to the
session, and it does so while it is bootstrapping. -/
def window : Monitor Window where
  permits x c := c ≠ .acquire ∧ c ≠ .release ∧
    (x.isOpen = true → (∀ peer, c ≠ .openSession peer) ∧
      (Service.isAsked c = true → x.lifecycle = .bootstrapping ∧ c.isOfSession))
  moves x c a x' :=
    match c with
    | .openSession _ => x' = { x with isOpen := a }
    | .closeSession => x' = { x with isOpen := false }
    | .registration => a.lifecycle = x.lifecycle ∧ x' = x
    | .setRegistration r => x' = { x with lifecycle := r.lifecycle }
    | _ => x' = x

namespace Window

/-- Where the client is as a state of the monitor says. A session may have been closed
meanwhile. -/
def IsAt (x : Window) (client : Client Service.Task) (_history : List Service.Event) : Prop :=
  client.registration.lifecycle = x.lifecycle ∧ (client.gate.isActive = true → x.isOpen = true)

/-- An operation ends without a session. -/
def IsShut (_job : Service.Job) (_result : Bool) (x : Window) : Prop := x.isOpen = false

/-! ### Operations -/

variable {α : Type} {setup : Setup} {x : Window}

/-- Without a session everything but opening one leaves it so. -/
theorem permits_of_shut {c : Call} (hc : c.isManagement ∨ ∃ peer, c = .openSession peer)
    (hx : x.isOpen = false) : window.permits x c := by
  refine ⟨?_, ?_, fun hopen => ?_⟩
  · rintro rfl
    rcases hc with hc | ⟨peer, hc⟩
    · exact hc
    · cases hc
  · rintro rfl
    rcases hc with hc | ⟨peer, hc⟩
    · exact hc
    · cases hc
  · rw [hx] at hopen
    cases hopen

theorem manages (c : Call) (x : Window) (hc : c.isManagement) (hx : x.isOpen = false) :
    window.permits x c ∧ ∀ a x', window.moves x c a x' → x'.isOpen = false := by
  refine ⟨permits_of_shut (Or.inl hc) hx, fun a x' hmove => ?_⟩
  cases c with
  | registration =>
    obtain ⟨-, rfl⟩ := hmove
    exact hx
  | setRegistration r =>
    cases hmove
    exact hx
  | openSession peer => exact absurd hc id
  | closeSession => exact absurd hc id
  | _ =>
    cases hmove
    exact hx

theorem keeps_line {line : Log.Line} {post : Unit → Window → Prop} (h : post () x) :
    (log line).Keeps window post x := by
  refine Keeps.perform ⟨nofun, nofun, fun _ => ⟨nofun, nofun⟩⟩ ?_
  rintro ⟨⟩ x' rfl
  exact h

/-- Whatever was going on before, it is a bootstrap from now on. -/
theorem keeps_fireBootstrap {post : Unit → Window → Prop}
    (h : post () { x with lifecycle := .bootstrapping }) :
    (fire .bootstrap).Keeps window post x := by
  refine Keeps.bind (Keeps.perform ⟨nofun, nofun, fun _ => ⟨nofun, nofun⟩⟩ ?_)
  rintro r x' ⟨hlifecycle, rfl⟩
  have hset : (Program.perform (.setRegistration { r with lifecycle := .bootstrapping })).Keeps
      window post x' := by
    refine Keeps.perform ⟨nofun, nofun, fun _ => ⟨nofun, nofun⟩⟩ ?_
    rintro ⟨⟩ x'' rfl
    exact h
  cases hcase : r.lifecycle with
  | bootstrapping =>
    refine keeps_line ?_
    rw [← hcase, hlifecycle] at h
    exact h
  | _ => exact Keeps.bind (keeps_line hset)

theorem keeps_awaitBootstrap {answer : Option Response} {post : Bool → Window → Prop}
    (hx : x.lifecycle = .bootstrapping) (h : ∀ finished, post finished x) :
    (awaitBootstrap setup answer).Keeps window post x := by
  have hfailed (line : Log.Line) : (log line).Keeps window (fun _ => post false) x :=
    keeps_line (h false)
  refine Keeps.awaitBootstrap (hfailed _) (fun _ => hfailed _) (keeps_line (Keeps.perform ?_ ?_))
  · exact ⟨nofun, nofun, fun _ => ⟨nofun, fun _ => ⟨hx, trivial⟩⟩⟩
  · rintro finished x' rfl
    cases finished with
    | true => exact h true
    | false => exact hfailed _

theorem keeps_bootstrapNow (hx : x.isOpen = false) :
    (bootstrapNow setup).Keeps window (fun _ x' => x'.isOpen = false) x := by
  have hmanages {β : Type} {p : Program β} {mid : β → Prop} {post : β → Window →
      Prop} {x : Window}
      (hp : p.Asks Call.isManagement mid) (hx : x.isOpen = false)
      (h : ∀ v x', x'.isOpen = false → post v x') : p.Keeps window post x :=
    Keeps.of_asks (fun x' => x'.isOpen = false) hp hx manages fun v x' _ => h v x'
  refine Keeps.bind (hmanages (reads_manages (requireBootstrap_reads setup)) hx ?_)
  intro found x₁ hx₁
  cases found with
  | error e => exact Keeps.bind (keeps_line hx₁)
  | ok found =>
    refine Keeps.bind (Keeps.perform (permits_of_shut (Or.inr ⟨_, rfl⟩) hx₁) ?_)
    rintro opened x₂ rfl
    cases opened with
    | false => exact Keeps.bind (keeps_line rfl)
    | true =>
      refine Keeps.bind (keeps_fireBootstrap (Keeps.bind (Keeps.perform ?_ ?_)))
      · exact ⟨nofun, nofun, fun _ => ⟨nofun, fun _ => ⟨rfl, trivial⟩⟩⟩
      · rintro answer x₃ rfl
        refine Keeps.bind (keeps_awaitBootstrap rfl fun finished => ?_)
        refine Keeps.bind (Keeps.perform ⟨nofun, nofun, fun _ => ⟨nofun, nofun⟩⟩ ?_)
        rintro ⟨⟩ x₄ rfl
        cases finished with
        | true =>
          exact Keeps.bind (keeps_line (hmanages (registerNow_manages setup) rfl fun _ _ h => h))
        | false => exact Keeps.bind (hmanages forget_manages rfl fun _ _ h => h)

theorem suits (setup : Setup) :
    Service.Suits setup window (fun x => x.isOpen = false) fun x => x.isOpen = false :=
  ⟨manages, fun _ => keeps_bootstrapNow, fun _ hx => hx⟩

end Window

/-! ### Beside the client -/

theorem Window.sees : Service.Sees window Window.IsAt where
  ofTurn x c hc := ⟨hc.1, hc.2.1⟩
  reply x client history c reply hx hc hreply := by
    cases c with
    | openSession peer =>
      cases hreply
      refine ⟨_, rfl, hx.1, Gate.result_of_isActive fun hopen => ?_⟩
      exact (hc.2.2 (hx.2 hopen)).1 peer rfl
    | closeSession =>
      cases hreply
      refine ⟨_, rfl, hx.1, fun hactive => ?_⟩
      cases hactive.symm.trans (Gate.isActive_close client.gate)
    | registration =>
      cases hreply
      exact ⟨x, ⟨hx.1, rfl⟩, hx⟩
    | setRegistration r =>
      cases hreply
      exact ⟨_, rfl, rfl, hx.2⟩
    | log | sessionActive | schedule | cancelTask | shutDownTimeline =>
      cases hreply
      exact ⟨x, rfl, hx⟩
    | _ => cases hreply

/-! ### Runs -/

namespace Service

/-- No session is open while no operation is in progress. -/
def NoSession (client : Client Task) (_history : List Event) : Prop :=
  client.gate.isActive = false

theorem window_serves (setup : Setup) :
    Serves setup window Window.IsAt Window.IsShut NoSession where
  replies := Window.sees
  begins job client history h := by
    have hshut : Window.IsAt ⟨false, client.registration.lifecycle⟩ client history :=
      ⟨rfl, fun hactive => by cases hactive.symm.trans h⟩
    exact ⟨_, hshut, (Window.suits setup).body job rfl⟩
  hears x client history c a clock hx hc hasked := by
    refine ⟨x, ?_, hx⟩
    cases c <;> first | rfl | cases hasked
  ends job result x client history hx hshut := by
    exact Bool.eq_false_iff.mpr fun hactive => by cases hshut.symm.trans (hx.2 hactive)

/-- What a service keeps as long as no call fails. -/
def Guarded (s : Service) : Prop := Monitored window Window.IsAt Window.IsShut NoSession s

end Service

namespace Reception

variable {setup : Setup} {r : Reception} {inputs : List Input}

theorem guarded_of_run {scheduler : Scheduler Service.Task}
    (hfresh : scheduler = .timeline {} ∨ scheduler = .worker {})
    (hrun : run setup { service := Service.initial scheduler } inputs = some r)
    (hunfailing : Service.Unfailing r.service.history) : r.service.Guarded := by
  refine monitored_of_run (Service.window_serves setup) ?_ ?_ hfresh rfl hrun hunfailing
  · intro x client client' history events hregistration hactive _ hx
    exact ⟨hregistration ▸ hx.1, fun h => hx.2 (hactive h)⟩
  · intro client client' history events _ hactive _ hshut
    exact Bool.eq_false_iff.mpr fun h => by cases hshut.symm.trans (hactive h)

/-- Every message of a bootstrap server is refused for want of a session, and purges nothing. -/
def Refuses (gate : Gate) : Prop :=
  ∀ w : Scenario.World, w.gate = gate → ∀ sender path,
    w.receiveFinish sender = (w, .error .noPendingSession) ∧
      w.receiveDelete sender path = (w, .ok (.error .noPendingSession))

theorem refuses_of_shut {gate : Gate} (h : gate.isActive ≠ true) : Refuses gate := by
  rintro w rfl sender path
  have hlet : w.gate.letIn sender = .error .noPendingSession :=
    Gate.letIn_of_shut (Bool.eq_false_iff.mpr h) sender
  constructor
  · simp only [Scenario.World.receiveFinish, Gate.finish, hlet, Scenario.World.report]
    split <;> simp
  · simp only [Scenario.World.receiveDelete, Gate.acceptsDelete, hlet]

/-- A session is open only while the lifecycle is bootstrapping and a Bootstrap request is on its
way or its end is waited for. So whenever a Register, Update or Deregister request is on its way,
and whenever no operation is in progress, the messages of bootstrap servers are refused. -/
theorem shut_of_unfailing {scheduler : Scheduler Service.Task}
    (hfresh : scheduler = .timeline {} ∨ scheduler = .worker {})
    (hrun : run setup { service := Service.initial scheduler } inputs = some r)
    (hunfailing : Service.Unfailing r.service.history) :
    (r.gate.isActive = true → r.service.client.registration.lifecycle = .bootstrapping ∧
      ((∃ peer secure endpoint timeout,
          r.asked? = some (.send peer secure (.bootstrap endpoint) timeout)) ∨
        ∃ timeout, r.asked? = some (.awaitFinish timeout))) ∧
    (r.service.current = none → Refuses r.gate) ∧
    (∀ peer secure request timeout, r.asked? = some (.send peer secure request timeout) →
      (∀ endpoint, request ≠ .bootstrap endpoint) → Refuses r.gate) := by
  have hguarded := guarded_of_run hfresh hrun hunfailing
  have hopen : r.gate.isActive = true → r.service.client.registration.lifecycle = .bootstrapping ∧
      ∃ c, r.asked? = some c ∧ c.isOfSession := by
    intro hactive
    cases hcurrent : r.service.current with
    | none => cases hactive.symm.trans (hguarded.idle hcurrent)
    | some thread =>
      obtain ⟨c, next, x, hasked, hrest, ⟨hlifecycle, hgate⟩, ⟨-, -, hpermits⟩, -⟩ :=
        hguarded.busy thread hcurrent
      obtain ⟨hbootstrapping, hsession⟩ := (hpermits (hgate hactive)).2 hasked
      obtain ⟨job, rest⟩ := thread
      dsimp only at hrest
      subst hrest
      refine ⟨hlifecycle.trans hbootstrapping, c, ?_, hsession⟩
      simp only [asked?, hcurrent]
  refine ⟨fun hactive => ?_, fun hnone => refuses_of_shut ?_, ?_⟩
  · obtain ⟨hlifecycle, c, hasked, hsession⟩ := hopen hactive
    refine ⟨hlifecycle, ?_⟩
    cases c with
    | send peer secure request timeout =>
      cases request with
      | bootstrap endpoint => exact Or.inl ⟨peer, secure, endpoint, timeout, hasked⟩
      | _ => exact absurd hsession id
    | awaitFinish timeout => exact Or.inr ⟨timeout, hasked⟩
    | _ => exact absurd hsession id
  · exact Bool.eq_false_iff.mp (hguarded.idle hnone)
  · intro peer secure request timeout hsent hother
    refine refuses_of_shut fun hactive => ?_
    obtain ⟨-, c, hasked, hsession⟩ := hopen hactive
    cases hsent.symm.trans hasked
    cases request with
    | bootstrap endpoint => exact hother endpoint rfl
    | _ => exact hsession

/-- What leads to the Bootstrap request of an engine. -/
def bootstrapping : List Input :=
  approaching ++ [.service (.answer (.object (some ⟨ObjectId.server, .ofList []⟩)))]

/-- The server accepts, provisions the client and finishes, and the client comes to its Register
request. -/
def provisioning : List Input :=
  bootstrapping ++ [.service (.answer (.response (some ⟨.changed, none⟩))),
    .beginWait] ++ finishing ++
    [.endWait, .service (.answer (.object (some Service.sampleSecurities))),
      .service (.answer (.object (some (Service.sampleServers 30)))),
        .service (.answer (.ids []))]

/-- Whether a Register request is on its way. -/
def isRegistering (r : Reception) : Bool :=
  match r.asked? with
  | some (.send _ _ (.register ..) _) => true
  | _ => false

theorem asked?_of_isRegistering (h : r.isRegistering = true) :
    ∃ peer secure endpoint lifetime binding links timeout,
      r.asked? =
        some (.send peer secure (.register endpoint lifetime binding links) timeout) := by
  unfold isRegistering at h
  split at h
  · rename_i hsent
    exact ⟨_, _, _, _, _, _, _, hsent⟩
  · cases h

theorem shut_once_provisioned :
    ∃ r₀ r, run ⟨{}, {}⟩ { service := Service.initial (.timeline {}) } bootstrapping = some r₀ ∧
      r₀.gate.isActive = true ∧ r₀.service.client.registration.lifecycle = .bootstrapping ∧
      run ⟨{}, {}⟩ { service := Service.initial (.timeline {}) } provisioning = some r ∧
      (∃ peer secure endpoint lifetime binding links timeout,
        r.asked? = some (.send peer secure (.register endpoint lifetime binding links) timeout)) ∧
      Refuses r.gate := by
  have hopens : (run ⟨{}, {}⟩ { service := Service.initial (.timeline {}) } bootstrapping).any
      fun r => decide (Service.Unfailing r.service.history ∧ r.gate.isActive = true) := by
    decide +kernel
  have hgoesOn : (run ⟨{}, {}⟩ { service := Service.initial (.timeline {}) } provisioning).any
      fun r => decide (Service.Unfailing r.service.history ∧ r.isRegistering = true) := by
    decide +kernel
  obtain ⟨r₀, hr₀, hcheck₀⟩ := (Option.any_eq_true _ _).mp hopens
  obtain ⟨r, hr, hcheck⟩ := (Option.any_eq_true _ _).mp hgoesOn
  obtain ⟨hunfailing₀, hactive⟩ := of_decide_eq_true hcheck₀
  obtain ⟨hunfailing, hregisters⟩ := of_decide_eq_true hcheck
  obtain ⟨hbootstrapping, -⟩ := (shut_of_unfailing (Or.inl rfl) hr₀ hunfailing₀).1 hactive
  obtain ⟨peer, secure, endpoint, lifetime, binding, links, timeout, hsent⟩ :=
    asked?_of_isRegistering hregisters
  refine ⟨r₀, r, hr₀, hactive, hbootstrapping, hr, ⟨_, _, _, _, _, _, _, hsent⟩, ?_⟩
  obtain ⟨-, -, hrefuses⟩ := shut_of_unfailing (Or.inl rfl) hr hunfailing
  refine hrefuses peer secure _ timeout hsent ?_
  rintro endpoint' ⟨⟩

end Reception
end Lwm2mClient
