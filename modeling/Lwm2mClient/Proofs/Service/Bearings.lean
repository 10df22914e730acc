import Lwm2mClient.Proofs.Service.Executions
import Lwm2mClient.Proofs.Service.Phases
import Lwm2mClient.Proofs.Service.Provenance

/-!
What becomes of a registration in the course of a single operation, whatever state the operations
before it have left behind. Beside the registration itself a monitor notes whether a renewal is
planned for it, whether it was lost, and which requests were answered on the way. An operation
plans the renewal after its last call to the surroundings, and wherever it has lost the
registration it holds none when it asks for anything else.
-/
namespace Lwm2mClient

/-- Whether a server refreshes the registration with an answer. -/
def Call.isRefreshed : (c : Call) → c.Answer → Bool
  | .send _ _ (.update _) _, some response => response.code = .changed
  | _, _ => false

/-- Where a registration that is granted leads from a lifecycle: one that is deregistering expects
neither the attempt nor its success. -/
theorem Lifecycle.registered_after_register (l : Lifecycle) :
    (((l.step? .register).getD l).step? .registered).getD ((l.step? .register).getD l) =
      if l = deregistering then deregistering else registered := by
  cases l <;> rfl

/-- Where a registration that is refreshed leads from a lifecycle. -/
theorem Lifecycle.registered_after_update {l : Lifecycle} (h : l ≠ unregistered) :
    (((l.step? .update).getD l).step? .registered).getD ((l.step? .update).getD l) =
      if l = deregistering ∨ l = bootstrapping then l else registered := by
  cases l <;> first | rfl | exact absurd rfl h

namespace Service

open Net Engine Program

namespace Event

/-- An Update request was answered Changed. -/
def refreshes : Event → Bool
  | answered c a _ => c.isRefreshed a
  | _ => false

/-- A Bootstrap request was answered, or its time is over. -/
def bootstraps : Event → Bool
  | answered c _ _ => c.isBootstrap
  | _ => false

/-- Whether an event tells something of a registration that its operation is to remember. -/
def tells (e : Event) : Bool := e.isLoss || e.refreshes || e.bootstraps

theorem tells_of_isAside {e : Event} (h : e.isAside = true) : e.tells = false := by
  unfold isAside at h
  split at h
  · rfl
  · rfl
  · rfl
  · rfl
  · rfl
  · cases h

end Event

/-! ### The monitor -/

/-- Where an operation stands. -/
structure Bearing where
  registration : Registration
  /-- The generation for which the operation has put a renewal on the timeline. -/
  planned : Option Nat := none
  /-- Whether the registration was lost. -/
  lost : Bool := false
  /-- Whether an Update request was answered Changed. -/
  refreshed : Bool := false
  /-- Whether a Bootstrap request was answered. -/
  bootstrapped : Bool := false

namespace Bearing

/-- Takes note of an event. -/
def hear (x : Bearing) (e : Event) : Bearing :=
  { x with
    lost := e.isLoss || x.lost
    refreshed := e.refreshes || x.refreshed
    bootstrapped := e.bootstraps || x.bootstrapped }

/-- Where an operation may ask something of its surroundings. The operations that are `bare` have
cancelled the renewal by then, and they have a registration unless they have lost it. -/
structure MayAsk (bare : Bool) (x : Bearing) : Prop where
  unplanned : x.planned = none
  lost : x.lost = true → x.registration.id = none
  renewal : bare = true → x.registration.renewal = none
  held : bare = true → x.registration.id = none → x.lost = true

/-- With a registration under an id, for which a renewal was put on the timeline. -/
def settled (x : Bearing) (lifecycle : Lifecycle) (id : String) (handle : TaskHandle) : Bearing :=
  { x with
    registration := ⟨lifecycle, some id, some handle, x.registration.generation + 1⟩
    planned :=
      if x.registration.renewal = none then some (x.registration.generation + 1) else none }

/-- With the registration given up. -/
def forgotten (x : Bearing) : Bearing :=
  { x with
    registration := ⟨.unregistered, none, none, x.registration.generation + 1⟩, lost := true }

/-- With the lifecycle moved by an event. -/
def fired (x : Bearing) (event : LifecycleEvent) : Bearing :=
  { x with registration := after x.registration event }

end Bearing

def bearing (bare : Bool) : Monitor Bearing where
  permits x
    | .acquire | .release => False
    | .objectIds | .readObject _ | .deleteInstance .. | .send .. | .awaitFinish _ => x.MayAsk bare
    | _ => True
  moves x c a x' :=
    match c with
    | .registration => a = x.registration ∧ x' = x
    | .setRegistration r => x' = { x with registration := r }
    | .schedule _ (.renewal generation) => x' = { x with planned := some generation }
    | .schedule _ .start | .cancelTask _ | .shutDownTimeline => x' = { x with planned := none }
    | .log line => x' = x.hear (.reported line)
    | c => x' = x.hear (.answered c a .zero)

namespace Bearing

variable {α : Type} {setup : Setup} {bare : Bool} {x : Bearing}

theorem MayAsk.fired (hx : x.MayAsk bare) (event : LifecycleEvent) :
    (x.fired event).MayAsk bare :=
  ⟨hx.unplanned, hx.lost, hx.renewal, hx.held⟩

theorem MayAsk.of_permits {c : Call} (h : (bearing bare).permits x c)
    (hasked : isAsked c = true) : x.MayAsk bare := by
  cases c <;> first | exact h | cases hasked

theorem MayAsk.forgotten (hx : x.planned = none) : x.forgotten.MayAsk bare :=
  ⟨hx, fun _ => rfl, fun _ => rfl, fun _ _ => rfl⟩

theorem keeps_reading {p : Program α} {mid : α → Prop} {post : α → Bearing → Prop}
    (hx : x.MayAsk bare) (hp : p.Asks Call.isReading mid) (h : ∀ v, post v x) :
    p.Keeps (bearing bare) post x := by
  refine Keeps.of_still hp (fun c hc => ?_) h
  cases c with
  | log line =>
    refine ⟨trivial, ?_⟩
    rintro a x' rfl
    have hline : line.isFinding = true := hc
    cases line <;> first | rfl | cases hline
  | objectIds | readObject =>
    refine ⟨hx, ?_⟩
    rintro a x' rfl
    rfl
  | _ => exact absurd hc id

theorem keeps_line {line : Log.Line} {post : Unit → Bearing → Prop}
    (hline : line.tellsLoss = false) (h : post () x) :
    (log line).Keeps (bearing bare) post x := by
  refine Keeps.perform trivial ?_
  rintro ⟨⟩ x' rfl
  rw [hear, Event.isLoss, hline]
  exact h

theorem keeps_loss {line : Log.Line} {post : Unit → Bearing → Prop}
    (hline : line.tellsLoss = true) (h : post () { x with lost := true }) :
    (log line).Keeps (bearing bare) post x := by
  refine Keeps.perform trivial ?_
  rintro ⟨⟩ x' rfl
  rw [hear, Event.isLoss, hline]
  exact h

theorem keeps_registration {post : Registration → Bearing → Prop} (h : post x.registration x) :
    Engine.registration.Keeps (bearing bare) post x := by
  refine Keeps.perform trivial ?_
  rintro r x' ⟨rfl, rfl⟩
  exact h

theorem keeps_setRegistration {r : Registration} {post : Unit → Bearing → Prop}
    (h : post () { x with registration := r }) :
    (Program.perform (.setRegistration r)).Keeps (bearing bare) post x := by
  refine Keeps.perform trivial ?_
  rintro ⟨⟩ x' rfl
  exact h

theorem keeps_modify {f : Registration → Registration} {post : Unit → Bearing → Prop}
    (h : post () { x with registration := f x.registration }) :
    (modify f).Keeps (bearing bare) post x :=
  Keeps.bind (keeps_registration (keeps_setRegistration h))

theorem keeps_fire {event : LifecycleEvent} {post : Unit → Bearing → Prop}
    (h : post () (x.fired event)) : (fire event).Keeps (bearing bare) post x := by
  refine Keeps.bind (keeps_registration ?_)
  have hset : ∀ next, x.registration.lifecycle.step? event = some next →
      (Program.perform (.setRegistration { x.registration with lifecycle := next })).Keeps
        (bearing bare) post x := by
    intro next hnext
    refine keeps_setRegistration ?_
    rw [fired, after, hnext] at h
    exact h
  split
  · rename_i next hnext
    split
    · exact Keeps.bind (keeps_line rfl (hset next hnext))
    · exact hset next hnext
  · rename_i hnone
    refine keeps_line rfl ?_
    rw [fired, after, hnone] at h
    exact h

theorem keeps_cancelAny {handle : Option TaskHandle} {post : Unit → Bearing → Prop}
    (h : post () { x with planned := if handle = none then x.planned else none }) :
    (cancelAny handle).Keeps (bearing bare) post x := by
  cases handle with
  | none => exact h
  | some handle =>
    refine Keeps.perform trivial ?_
    rintro ⟨⟩ x' rfl
    exact h

theorem keeps_cancelRenewal {post : Unit → Bearing → Prop} (hx : x.planned = none)
    (h : post () { x with
      registration :=
        { x.registration with generation := x.registration.generation + 1, renewal := none } }) :
    cancelRenewal.Keeps (bearing bare) post x := by
  refine Keeps.bind (keeps_registration (Keeps.bind (keeps_setRegistration (keeps_cancelAny ?_))))
  dsimp only
  rw [hx, ite_self, ← hx]
  exact h

theorem keeps_planRenewal {lifetime : UInt64} {id : String} {post : Unit → Bearing → Prop}
    (hid : x.registration.id = some id)
    (h : ∀ handle, post () (x.settled x.registration.lifecycle id handle)) :
    (planRenewal setup lifetime).Keeps (bearing bare) post x := by
  refine Keeps.bind
    (keeps_line rfl (Keeps.bind (keeps_modify (Keeps.bind (keeps_registration ?_)))))
  refine Keeps.bind (Keeps.perform trivial ?_)
  rintro handle x' rfl
  refine Keeps.bind (keeps_setRegistration (keeps_cancelAny ?_))
  have hsettled := h handle
  rw [settled, ← hid] at hsettled
  exact hsettled

theorem keeps_forget {post : Unit → Bearing → Prop} (hx : x.planned = none)
    (hlost : x.lost = true) (h : post () x.forgotten) : forget.Keeps (bearing bare) post x := by
  refine Keeps.bind (keeps_modify (Keeps.bind (keeps_cancelRenewal hx (keeps_fire ?_))))
  rw [fired, after]
  dsimp only
  rw [Lifecycle.step?_lost]
  rw [forgotten, ← hlost] at h
  exact h

theorem keeps_ask {server : ManagementServer} {request : Request}
    {post : Except Error Response → Bearing → Prop} (hx : x.MayAsk bare)
    (hunsent : ∀ e, post (.error e) x)
    (hanswer : ∀ address answer, post (answer.elim (.error .timeout) .ok)
      (x.hear (.answered
        (.send address server.info.isSecure request setup.settings.requestTimeout)
        answer .zero))) : (ask setup server request).Keeps (bearing bare) post x := by
  unfold ask
  split
  · exact hunsent _
  · rename_i address _
    refine Keeps.bind (keeps_line rfl (Keeps.bind (Keeps.perform hx ?_)))
    rintro answer x' rfl
    have h := hanswer address answer
    cases answer <;> exact h

/-! ### Operations -/

theorem keeps_sendRegister {post : Except Error (String × UInt64) → Bearing → Prop}
    (hx : x.MayAsk bare) (h : ∀ outcome, post outcome x) :
    (sendRegister setup).Keeps (bearing bare) post x := by
  refine Keeps.bind (keeps_reading hx (requireManagement_reads setup) fun found => ?_)
  cases found with
  | error e => exact h _
  | ok server =>
    dsimp only
    split
    · exact h _
    · refine Keeps.bind (keeps_reading hx describeObjects_reads fun links => Keeps.bind ?_)
      refine keeps_ask hx (fun e => h _) fun address answer => ?_
      cases answer with
      | none => exact h _
      | some response =>
        obtain ⟨code, granted⟩ := response
        refine Keeps.bind ?_
        cases code <;> first | exact h _ | cases granted
        · exact Keeps.bind (keeps_line rfl (h _))
        · exact h _

/-- An attempt to register. A lifecycle that is deregistering stays so. -/
theorem keeps_registerNow {post : Bool → Bearing → Prop} (hx : x.MayAsk bare)
    (hfailed : post false x.forgotten) (hgranted : ∀ id handle, post true (x.settled
      (if x.registration.lifecycle = .deregistering then .deregistering
        else .registered) id handle)) : (registerNow setup).Keeps (bearing bare) post x := by
  rw [registerNow_eq]
  refine Keeps.bind
    (keeps_fire (Keeps.bind (keeps_sendRegister (hx.fired .register) fun outcome => ?_)))
  cases outcome with
  | error e =>
    exact Keeps.bind (keeps_loss rfl (Keeps.bind (keeps_forget hx.unplanned rfl hfailed)))
  | ok granted =>
    obtain ⟨id, lifetime⟩ := granted
    refine Keeps.bind (keeps_line rfl (Keeps.bind (keeps_modify (Keeps.bind ?_))))
    refine keeps_planRenewal rfl fun handle => Keeps.bind (keeps_fire ?_)
    have h := hgranted id handle
    rw [← Lifecycle.registered_after_register] at h
    exact h

theorem keeps_awaitBootstrap {answer : Option Response} {post : Bool → Bearing → Prop}
    (hx : x.MayAsk bare) (hfinished : post true x)
    (hfailed : post false { x with lost := true }) :
    (awaitBootstrap setup answer).Keeps (bearing bare) post x := by
  refine Keeps.awaitBootstrap (keeps_loss rfl hfailed) (fun _ => keeps_loss rfl hfailed)
    (keeps_line rfl (Keeps.perform hx ?_))
  rintro finished x' rfl
  cases finished with
  | true => exact hfinished
  | false => exact keeps_loss rfl hfailed

/-- A bootstrap that succeeds leaves no trace of where the lifecycle was. -/
theorem keeps_bootstrapNow {post : Bool → Bearing → Prop} (hx : x.MayAsk bare)
    (hunchanged : post false x) (hfailed : ∀ x', x'.registration.id = none → post false x')
    (hgranted : ∀ id handle,
      post true ({ x with bootstrapped := true }.settled .registered id handle)) :
    (bootstrapNow setup).Keeps (bearing bare) post x := by
  refine Keeps.bind (keeps_reading hx (requireBootstrap_reads setup) fun found => ?_)
  cases found with
  | error e => exact Keeps.bind (keeps_line rfl hunchanged)
  | ok found =>
    refine Keeps.bind (Keeps.perform trivial ?_)
    rintro opened x' rfl
    cases opened with
    | false => exact Keeps.bind (keeps_line rfl hunchanged)
    | true =>
      refine Keeps.bind (keeps_fire (Keeps.bind (Keeps.perform (hx.fired .bootstrap) ?_)))
      rintro answer x' rfl
      let sent : Bearing := { x.fired .bootstrap with bootstrapped := true }
      have hsent : sent.MayAsk bare := ⟨hx.unplanned, hx.lost, hx.renewal, hx.held⟩
      have hlifecycle : sent.registration.lifecycle = .bootstrapping := by
        change (x.registration.lifecycle.step? .bootstrap).getD x.registration.lifecycle = _
        cases x.registration.lifecycle <;> rfl
      refine Keeps.bind (keeps_awaitBootstrap (x := sent) hsent ?_ ?_)
      · refine Keeps.bind (Keeps.perform trivial ?_)
        rintro ⟨⟩ x' rfl
        refine Keeps.bind
          (keeps_line rfl (keeps_registerNow (x := sent) hsent (hfailed _ rfl) ?_))
        intro id handle
        rw [hlifecycle]
        exact hgranted id handle
      · refine Keeps.bind (Keeps.perform trivial ?_)
        rintro ⟨⟩ x' rfl
        exact Keeps.bind (keeps_forget hsent.unplanned rfl (hfailed _ rfl))

theorem keeps_sendUpdate {id : String} {post : Except Error UInt64 → Bearing → Prop}
    (hx : x.MayAsk bare) (hfailed : ∀ e, post (.error e) x)
    (hrefreshed : ∀ lifetime, post (.ok lifetime) { x with refreshed := true }) :
    (sendUpdate setup id).Keeps (bearing bare) post x := by
  refine Keeps.bind (keeps_reading hx (requireManagement_reads setup) fun found => ?_)
  cases found with
  | error e => exact hfailed e
  | ok server =>
    dsimp only
    split
    · exact hfailed _
    · rename_i lifetime _
      refine Keeps.bind (keeps_ask hx (fun e => hfailed e) fun address answer => ?_)
      cases answer with
      | none => exact hfailed .timeout
      | some response =>
        dsimp only [Option.elim]
        have hheard : x.hear (.answered (.send address server.info.isSecure (.update id)
            setup.settings.requestTimeout) (some response) .zero) =
              { x with refreshed := decide (response.code = .changed) || x.refreshed } := rfl
        rw [hheard]
        split
        · rename_i hchanged
          rw [hchanged]
          exact hrefreshed lifetime
        · rename_i hrefused
          rw [decide_eq_false hrefused]
          exact hfailed _

/-! ### What an operation comes to -/

/-- The lifecycle stays where an operation found it although the operation succeeds. -/
def Sticks (x : Bearing) (lifecycle : Lifecycle) : Prop :=
  lifecycle = .deregistering ∧ x.bootstrapped = false ∨
    lifecycle = .bootstrapping ∧ x.refreshed = true

/-- What an operation has come to that succeeds and found the lifecycle somewhere. -/
structure Succeeded (lifecycle : Lifecycle) (x : Bearing) : Prop where
  held : x.registration.id ≠ none
  stuck : x.Sticks lifecycle → x.registration.lifecycle = lifecycle
  registered : ¬x.Sticks lifecycle → x.registration.lifecycle = .registered

/-- Nothing has happened yet in an operation. -/
structure Fresh (x : Bearing) : Prop where
  planned : x.planned = none
  lost : x.lost = false
  refreshed : x.refreshed = false
  bootstrapped : x.bootstrapped = false

theorem succeeded_of_granted (hrefreshed : x.refreshed = false)
    (hbootstrapped : x.bootstrapped = false) (lifecycle : Lifecycle) (id : String)
    (handle : TaskHandle) :
    Succeeded lifecycle
      (x.settled (if lifecycle = .deregistering then .deregistering else .registered)
        id handle) := by
  refine ⟨by simp [settled], ?_, ?_⟩ <;> cases lifecycle <;> simp_all [Sticks, settled]

theorem succeeded_of_refreshed (hrefreshed : x.refreshed = true)
    (hbootstrapped : x.bootstrapped = false) (lifecycle : Lifecycle) (id : String)
    (handle : TaskHandle) :
    Succeeded lifecycle (x.settled
      (if lifecycle = .deregistering ∨ lifecycle = .bootstrapping then lifecycle else .registered)
      id handle) := by
  refine ⟨by simp [settled], ?_, ?_⟩ <;> cases lifecycle <;> simp_all [Sticks, settled]

theorem succeeded_of_bootstrapped (hrefreshed : x.refreshed = false) (lifecycle : Lifecycle)
    (id : String) (handle : TaskHandle) :
    Succeeded lifecycle ({ x with bootstrapped := true }.settled .registered id handle) := by
  refine ⟨by simp [settled], ?_, ?_⟩ <;> simp_all [Sticks, settled]

theorem keeps_updateNow {post : Bool → Bearing → Prop} (hx : x.Fresh)
    (hfits : x.registration.lifecycle = .unregistered → x.registration.id = none)
    (hfailed : ∀ x', x'.registration.id = none → post false x')
    (hsucceeded : ∀ x', x'.Succeeded x.registration.lifecycle →
      x'.planned = some x'.registration.generation → post true x') :
    (updateNow setup).Keeps (bearing bare) post x := by
  let y : Bearing := { x with
    registration :=
      { x.registration with generation := x.registration.generation + 1, renewal := none } }
  refine Keeps.bind (keeps_cancelRenewal hx.planned (Keeps.bind (keeps_registration ?_)))
  -- an attempt to bootstrap that begins without a registration ends with one or leaves none
  have hbootstrap : ∀ z : Bearing, z.MayAsk bare → z.registration.id = none →
      z.refreshed = false →
      z.registration.renewal = none → (bootstrapNow setup).Keeps (bearing bare) post z := by
    intro z hz hid hrefreshed hrenewal
    refine keeps_bootstrapNow hz (hfailed z hid) hfailed fun id handle => hsucceeded _ ?_ ?_
    · exact succeeded_of_bootstrapped hrefreshed _ id handle
    · simp [settled, hrenewal]
  split
  · rename_i hnone
    exact Keeps.bind (keeps_line rfl (hfailed y hnone))
  · rename_i id hid
    have hheld : x.registration.lifecycle ≠ .unregistered := by
      intro hunregistered
      cases (hfits hunregistered).symm.trans hid
    have hy : y.MayAsk bare := by
      refine ⟨hx.planned, fun hlost => ?_, fun _ => rfl, fun _ hnone => ?_⟩
      · cases hx.lost.symm.trans hlost
      · cases hnone.symm.trans hid
    have hsent : (y.fired .update).MayAsk bare := hy.fired .update
    have hforgotten : (y.fired .update).forgotten.MayAsk bare := .forgotten hx.planned
    refine Keeps.bind
      (keeps_fire (Keeps.bind (keeps_sendUpdate hsent (fun e => ?_) fun lifetime => ?_)))
    · cases e with
      | timeout =>
        refine Keeps.bind (keeps_loss rfl (Keeps.bind (keeps_forget hx.planned rfl ?_)))
        exact hbootstrap _ hforgotten rfl hx.refreshed rfl
      | rejected code =>
        refine Keeps.bind
          (keeps_line rfl (Keeps.bind (keeps_registerNow hsent ?_ fun id handle => ?_)))
        · exact hbootstrap _ hforgotten rfl hx.refreshed rfl
        · refine hsucceeded _ ?_ (by simp [settled, Bearing.fired, after])
          have hstuck : (y.fired .update).registration.lifecycle = .deregistering ↔
              x.registration.lifecycle = .deregistering := by
            change (x.registration.lifecycle.step? .update).getD x.registration.lifecycle = _ ↔ _
            cases x.registration.lifecycle <;> simp [Lifecycle.step?]
          have hsucceeds :=
            succeeded_of_granted (x := y.fired .update) hx.refreshed hx.bootstrapped
            x.registration.lifecycle id handle
          simp only [← hstuck] at hsucceeds
          exact hsucceeds
      | _ =>
        refine Keeps.bind (keeps_loss rfl (Keeps.bind (keeps_forget hx.planned rfl ?_)))
        exact hfailed _ rfl
    · refine Keeps.bind (keeps_line rfl (Keeps.bind (keeps_planRenewal hid fun handle => ?_)))
      refine Keeps.bind (keeps_fire (hsucceeded _ ?_ (by simp [settled, Bearing.fired, after])))
      have hsucceeds :=
        succeeded_of_refreshed (x := { y.fired .update with refreshed := true }) rfl
        hx.bootstrapped x.registration.lifecycle id handle
      rw [← Lifecycle.registered_after_update hheld] at hsucceeds
      exact hsucceeds

theorem keeps_renew {post : Bool → Bearing → Prop} (hx : x.Fresh)
    (hfits : x.registration.lifecycle = .unregistered → x.registration.id = none)
    (hfailed : ∀ x', x'.registration.id = none → post false x')
    (hsucceeded : ∀ x', x'.Succeeded x.registration.lifecycle →
      x'.planned = some x'.registration.generation → post true x') :
    (renew setup x.registration.generation).Keeps (bearing bare) post x := by
  refine Keeps.bind (keeps_registration ?_)
  rw [if_neg (by simp)]
  exact keeps_updateNow hx hfits hfailed hsucceeded

/-! ### Executions -/

/-- Where the client and the history are as a state of the monitor says, the history having been
`before` when the operation began. -/
structure IsAt (before : List Event) (x : Bearing) (client : Client Task)
    (history : List Event) : Prop where
  registration : client.registration = x.registration
  planned : ∀ generation, x.planned = some generation → ∀ t, client.scheduler = .timeline t →
    t.shutDown = false → ∃ e ∈ t.queue, e.task = .work (.renewal generation)
  since : ∃ since, history = since ++ before ∧ since.any Event.isLoss = x.lost ∧
    since.any Event.refreshes = x.refreshed ∧ since.any Event.bootstraps = x.bootstrapped

variable {before : List Event} {client client' : Client Task} {history events : List Event}

theorem IsAt.hear (h : IsAt before x client history) (e : Event) :
    IsAt before (x.hear e) client (e :: history) := by
  obtain ⟨since, hhistory, hlost, hrefreshed, hbootstrapped⟩ := h.since
  refine ⟨h.registration, h.planned, e :: since, by rw [hhistory]; rfl, ?_, ?_, ?_⟩
  · rw [List.any_cons, hlost]
    rfl
  · rw [List.any_cons, hrefreshed]
    rfl
  · rw [List.any_cons, hbootstrapped]
    rfl

/-- Events that tell nothing leave the monitor in its state. -/
theorem IsAt.quiet (h : IsAt before x client history)
    (hregistration : client'.registration = client.registration)
    (hscheduler : x.planned = none ∨ client'.scheduler = client.scheduler)
    (hevents : ∀ e ∈ events, e.tells = false) : IsAt before x client' (events ++ history) := by
  obtain ⟨since, hhistory, hlost, hrefreshed, hbootstrapped⟩ := h.since
  have hquiet : events.any Event.isLoss = false ∧ events.any Event.refreshes = false ∧
      events.any Event.bootstraps = false := by
    simp only [Event.tells, Bool.or_eq_false_iff] at hevents
    refine ⟨?_, ?_, ?_⟩ <;> refine List.any_eq_false.mpr fun e he => ?_
    · simp [(hevents e he).1.1]
    · simp [(hevents e he).1.2]
    · simp [(hevents e he).2]
  refine ⟨hregistration.trans h.registration, ?_, events ++ since,
    by rw [hhistory, List.append_assoc], ?_, ?_, ?_⟩
  · intro generation hsome
    rcases hscheduler with hnone | hsame
    · cases hnone.symm.trans hsome
    · rw [hsame]
      exact h.planned generation hsome
  · rw [List.any_append, hquiet.1, Bool.false_or, hlost]
  · rw [List.any_append, hquiet.2.1, Bool.false_or, hrefreshed]
  · rw [List.any_append, hquiet.2.2, Bool.false_or, hbootstrapped]

/-- What the gate reports tells nothing either. -/
theorem IsAt.gate (h : IsAt before x client history) (gate : Gate) {lines : List Log.Line}
    (hlines : ∀ line ∈ lines, line.tellsLoss = false) :
    IsAt before x { client with gate := gate } (lines.reverse.map .reported ++ history) := by
  refine h.quiet rfl (Or.inr rfl) fun e he => ?_
  obtain ⟨line, hline, rfl⟩ := List.mem_map.mp he
  simp [Event.tells, Event.isLoss, Event.refreshes, Event.bootstraps,
    hlines line (List.mem_reverse.mp hline)]

theorem sees (bare : Bool) (before : List Event) : Sees (bearing bare) (IsAt before) where
  ofTurn x c hc := by
    constructor <;> rintro rfl <;> exact hc
  reply x client history c reply hx hc hreply := by
    cases c with
    | log line =>
      cases hreply
      exact ⟨_, rfl, hx.hear _⟩
    | registration =>
      cases hreply
      exact ⟨x, ⟨hx.registration, rfl⟩, hx⟩
    | setRegistration r =>
      cases hreply
      exact ⟨_, rfl, rfl, hx.planned, hx.since⟩
    | schedule delay work =>
      cases hreply
      cases work with
      | start => exact ⟨_, rfl, hx.registration, nofun, hx.since⟩
      | renewal generation =>
        refine ⟨_, rfl, hx.registration, ?_, hx.since⟩
        rintro _ ⟨⟩ t ht hopen
        dsimp only at ht
        cases hscheduler : client.scheduler with
        | worker w =>
          rw [hscheduler] at ht
          cases ht
        | timeline t₀ =>
          rw [hscheduler] at ht
          cases ht
          change (t₀.schedule delay _).2.shutDown = false at hopen
          rw [Timeline.schedule_shutDown] at hopen
          obtain ⟨e, he, -, -, htask, -⟩ :=
            Timeline.schedule_of_open hopen delay (Task.work (.renewal generation))
          exact ⟨e, he, htask⟩
    | cancelTask handle =>
      cases hreply
      exact ⟨_, rfl, hx.registration, nofun, hx.since⟩
    | shutDownTimeline =>
      cases hreply
      exact ⟨_, rfl, hx.registration, nofun, hx.since⟩
    | sessionActive =>
      cases hreply
      exact ⟨x, rfl, hx⟩
    | openSession peer =>
      cases hreply
      refine ⟨x, rfl, hx.gate _ fun line hline => ?_⟩
      simp only [Gate.tryOpen] at hline
      split at hline <;> simp_all [Log.Line.tellsLoss]
    | closeSession =>
      cases hreply
      refine ⟨x, rfl, hx.gate _ fun line hline => ?_⟩
      simp only [Gate.close] at hline
      split at hline <;> simp_all [Log.Line.tellsLoss]
    | _ => cases hreply

theorem listens (bare : Bool) (before : List Event) : Listens (bearing bare) (IsAt before) where
  answer x client history c a clock hx hc hasked := by
    refine ⟨x.hear (.answered c a clock), ?_, hx.hear _⟩
    cases c <;> first | rfl | cases hasked
  aside x client client' history events c hx hc hasked hregistration hevents := by
    have hask : x.MayAsk bare := .of_permits hc hasked
    exact hx.quiet hregistration (Or.inl hask.unplanned) fun e he =>
      Event.tells_of_isAside (hevents e he)

end Bearing
end Service
end Lwm2mClient
