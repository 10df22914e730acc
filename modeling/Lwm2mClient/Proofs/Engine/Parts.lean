import Lwm2mClient.Proofs.Engine.Reads
import Lwm2mClient.Proofs.Engine.Upkeep

/-!
From the parts of lifecycle work to the whole. A property that goes from programs to sequences of
them is looked at where it may fail: at the search for the servers, at the requests, and at the
sessions. What holds there holds of every operation, and of whatever an engine leaves to its
timeline.
-/
namespace Lwm2mClient

namespace Call

/-- The calls that have to do with the gate of sessions. -/
def isOfGate : Call → Prop
  | .sessionActive | .openSession _ | .awaitFinish _ | .closeSession => True
  | _ => False

/-- The calls that have to do with turns, and with the timeline as a whole. -/
def isOfTurn : Call → Prop
  | .acquire | .release | .shutDownTimeline => True
  | _ => False

end Call

namespace Engine

open Net Program

/-- A property of programs that goes to sequences of them. Reports and the upkeep of the
registration have it. -/
structure Sequential (P : {α : Type} → Program α → Prop) : Prop where
  done : ∀ {α : Type} (value : α), P (.done value)
  bind : ∀ {α β : Type} {p : Program α} {f : α → Program β},
    P p → (∀ value, P (f value)) → P (p >>= f)
  line : ∀ line, P (log line)
  upkeep : ∀ {α : Type} {p : Program α} {post : α → Prop}, p.Asks Call.isUpkeep post → P p

variable {setup : Setup} {P : {α : Type} → Program α → Prop} {Q : Program Bool → Prop}

namespace Sequential

theorem fire (h : Sequential P) (event : LifecycleEvent) : P (Engine.fire event) :=
  h.upkeep (fire_upkeep event)

theorem forget (h : Sequential P) : P Engine.forget := h.upkeep forget_upkeep

theorem registration (h : Sequential P) : P Engine.registration :=
  have hasks : (Engine.registration).Asks Call.isUpkeep fun _ => True := Asks.perform trivial
  h.upkeep hasks

theorem grantedId (h : Sequential P) (response : Response) : P (Engine.grantedId response) := by
  unfold Engine.grantedId
  split
  · exact h.done _
  · exact h.bind (h.line _) fun _ => h.done _
  · exact h.done _

/-- A registration, whatever comes of the request. -/
theorem registerNow (h : Sequential P) (hrequest : P (sendRegister setup)) :
    P (Engine.registerNow setup) := by
  refine h.bind (h.fire .register) fun _ => h.bind hrequest fun granted => ?_
  cases granted with
  | error e => exact h.bind (h.line _) fun _ => h.bind h.forget fun _ => h.done _
  | ok granted =>
    refine h.bind (h.line _) fun _ => h.bind (h.upkeep (modify_upkeep _)) fun _ => ?_
    refine h.bind (h.upkeep (planRenewal_upkeep setup _)) fun _ => ?_
    exact h.bind (h.fire .registered) fun _ => h.done _

theorem awaitBootstrap (h : Sequential P)
    (hwait : P (Program.perform (.awaitFinish setup.settings.bootstrapTimeout)))
    (answer : Option Response) : P (Engine.awaitBootstrap setup answer) := by
  cases answer with
  | none => exact h.bind (h.line _) fun _ => h.done _
  | some response =>
    unfold Engine.awaitBootstrap
    dsimp only
    split
    · refine h.bind (h.line _) fun _ => h.bind hwait fun finished => ?_
      split
      · exact h.bind (h.line _) fun _ => h.done _
      · exact h.done _
    · exact h.bind (h.line _) fun _ => h.done _

end Sequential

/-! ### Requests to the device management server -/

/-- A property that the search for the device management server and the requests to it have. -/
structure Manages (setup : Setup) (P : {α : Type} → Program α → Prop) : Prop
    extends Sequential P where
  requireManagement : P (requireManagement setup)
  describeObjects : P describeObjects
  ask : ∀ server request, (∀ endpoint, request ≠ .bootstrap endpoint) →
    P (ask setup server request)

namespace Manages

theorem sendRegister (h : Manages setup P) : P (Engine.sendRegister setup) := by
  refine h.bind h.requireManagement fun found => ?_
  cases found with
  | error e => exact h.done _
  | ok server =>
    dsimp only
    split
    · exact h.done _
    · refine h.bind h.describeObjects fun links => ?_
      refine h.bind (h.ask server _ (by simp)) fun answer => ?_
      cases answer with
      | error e => exact h.done _
      | ok response => exact h.bind (h.grantedId response) fun _ => h.done _

theorem sendUpdate (h : Manages setup P) (id : String) : P (Engine.sendUpdate setup id) := by
  refine h.bind h.requireManagement fun found => ?_
  cases found with
  | error e => exact h.done _
  | ok server =>
    dsimp only
    split
    · exact h.done _
    · refine h.bind (h.ask server _ (by simp)) fun answer => ?_
      cases answer with
      | error e => exact h.done _
      | ok response =>
        dsimp only
        split <;> exact h.done _

theorem sendDeregister (h : Manages setup P) (server : ManagementServer) (id : String) :
    P (Engine.sendDeregister setup server id) := by
  have hretained :
      ∀ line, P (log line >>= fun _ => Engine.fire .retained >>= fun _ => .done false) :=
    fun line => h.bind (h.line line) fun _ => h.bind (h.fire .retained) fun _ => h.done _
  refine h.bind (h.ask server _ (by simp)) fun answer => ?_
  cases answer with
  | error e => exact hretained _
  | ok response =>
    dsimp only
    split
    · exact h.bind (h.line _) fun _ => h.bind h.forget fun _ => h.done _
    · exact hretained _

theorem deregisterNow (h : Manages setup P) : P (Engine.deregisterNow setup) := by
  refine h.bind h.registration fun r => ?_
  split
  · exact h.done _
  · rename_i id _
    refine h.bind h.requireManagement fun found => ?_
    cases found with
    | error e => exact h.bind (h.line _) fun _ => h.done _
    | ok server => exact h.bind (h.fire .deregister) fun _ => h.sendDeregister server id

end Manages

/-! ### Bootstrap sessions -/

theorem Sequential.bootstrapNow (h : Sequential P) (hfind : P (requireBootstrap setup))
    (hsend : ∀ peer secure endpoint timeout,
      P (Program.perform (.send peer secure (.bootstrap endpoint) timeout)))
    (hgate : ∀ c, c.isOfGate → P (Program.perform c))
    (hregister : P (Engine.registerNow setup)) : P (Engine.bootstrapNow setup) := by
  refine h.bind hfind fun found => ?_
  cases found with
  | error e => exact h.bind (h.line _) fun _ => h.done _
  | ok found =>
    refine h.bind (hgate (.openSession found.1) trivial) fun opened => ?_
    split
    · exact h.bind (h.line _) fun _ => h.done _
    · refine h.bind (h.fire .bootstrap) fun _ => h.bind (hsend _ _ _ _) fun answer => ?_
      refine h.bind (h.awaitBootstrap (hgate _ trivial) answer) fun finished => ?_
      refine h.bind (hgate .closeSession trivial) fun _ => ?_
      split
      · exact h.bind (h.line _) fun _ => hregister
      · exact h.bind h.forget fun _ => h.done _

/-! ### Whole jobs -/

/-- A property of whole programs that bootstrapping has, and that a program has which begins with
parts of another property and goes on to what has it. -/
structure Combines (setup : Setup) (P : {α : Type} → Program α → Prop) (Q : Program Bool → Prop) :
    Prop extends Sequential P where
  knowsManagement : P (knowsManagement setup)
  sendRegister : P (sendRegister setup)
  sendUpdate : ∀ id, P (sendUpdate setup id)
  deregisterNow : P (deregisterNow setup)
  ofPart : ∀ {p : Program Bool}, P p → Q p
  andThen : ∀ {α : Type} {p : Program α} {f : α → Program Bool},
    P p → (∀ value, Q (f value)) → Q (p >>= f)
  bootstrapNow : Q (bootstrapNow setup)

namespace Combines

theorem register (h : Combines setup P Q) : Q (registerNow setup) :=
  h.ofPart (h.registerNow h.sendRegister)

theorem registerOrBootstrap (h : Combines setup P Q) :
    Q (registerNow setup >>= fun registered =>
      if registered = true then pure true else Engine.bootstrapNow setup) := by
  refine h.andThen (h.registerNow h.sendRegister) fun registered => ?_
  split
  · exact h.ofPart (h.done _)
  · exact h.bootstrapNow

theorem updateNow (h : Combines setup P Q) : Q (updateNow setup) := by
  refine h.andThen (h.upkeep cancelRenewal_upkeep) fun _ => h.andThen h.registration fun r => ?_
  split
  · exact h.ofPart (h.bind (h.line _) fun _ => h.done _)
  · refine h.andThen (h.fire .update) fun _ => h.andThen (h.sendUpdate _) fun outcome => ?_
    split
    · refine h.ofPart (h.bind (h.line _) fun _ => ?_)
      refine h.bind (h.upkeep (planRenewal_upkeep setup _)) fun _ => ?_
      exact h.bind (h.fire .registered) fun _ => h.done _
    · exact h.andThen (h.line _) fun _ => h.andThen h.forget fun _ => h.bootstrapNow
    · exact h.andThen (h.line _) fun _ => h.registerOrBootstrap
    · exact h.ofPart (h.bind (h.line _) fun _ => h.bind h.forget fun _ => h.done _)

theorem startNow (h : Combines setup P Q) : Q (startNow setup) := by
  refine h.andThen (h.line _) fun _ => h.andThen h.knowsManagement fun known => ?_
  split
  · exact h.registerOrBootstrap
  · exact h.bootstrapNow

theorem renew (h : Combines setup P Q) (generation : Nat) : Q (renew setup generation) := by
  refine h.andThen h.registration fun r => ?_
  split
  · exact h.ofPart (h.bind (h.line _) fun _ => h.done _)
  · exact h.updateNow

theorem deregisterAndCancel (h : Combines setup P Q) :
    Q (Engine.deregisterNow setup >>= fun result => cancelRenewal >>= fun _ => pure result) :=
  h.ofPart (h.bind h.deregisterNow fun _ =>
    h.bind (h.upkeep cancelRenewal_upkeep) fun _ => h.done _)

end Combines

/-! ### Operations -/

section

variable (h : Combines setup P P) (hturn : ∀ c, c.isOfTurn → P (Program.perform c))

include h hturn

theorem Combines.exclusively {p : Program Bool} (hp : P p) : P (Engine.exclusively p) :=
  h.bind (hturn .acquire trivial) fun _ => h.bind hp fun _ =>
    h.bind (hturn .release trivial) fun _ => h.done _

theorem Combines.operation (hgate : ∀ c, c.isOfGate → P (Program.perform c))
    (o : Operation) : P (o.program setup) := by
  have hstop : P (stop setup) := h.exclusively hturn h.deregisterAndCancel
  cases o with
  | register => exact h.exclusively hturn h.register
  | update => exact h.exclusively hturn h.updateNow
  | bootstrap =>
    refine h.bind (hgate .sessionActive trivial) fun active => ?_
    split
    · exact h.bind (h.line _) fun _ => h.done _
    · exact h.exclusively hturn h.bootstrapNow
  | deregister => exact h.exclusively hturn h.deregisterNow
  | stop => exact hstop
  | shutdown =>
    refine h.bind (hgate .closeSession trivial) fun _ => h.bind hstop fun _ => ?_
    exact h.bind (hturn .shutDownTimeline trivial) fun _ => h.done _

theorem Combines.work (work : Work) : P (Engine.work setup work) := by
  cases work with
  | start => exact h.exclusively hturn h.startNow
  | renewal generation => exact h.exclusively hturn (h.renew generation)

end

/-! ### Calls of one kind -/

/-- To ask for nothing but calls of one kind is such a property. -/
theorem Sequential.asks {calls : Call → Prop} (hline : ∀ line, calls (.log line))
    (hupkeep : ∀ c, c.isUpkeep → calls c) :
    Sequential fun p => p.Asks calls fun _ => True where
  done _ := trivial
  bind hp hf := hp.bind fun value _ => hf value
  line line := Asks.log (hline line)
  upkeep hp := hp.mono hupkeep fun _ _ => trivial

theorem ask_asks {calls : Call → Prop} {server : ManagementServer} {request : Request}
    (hline : ∀ line, calls (.log line))
    (hcall : ∀ address, calls (.send address server.info.isSecure request
      setup.settings.requestTimeout)) :
    (ask setup server request).Asks calls fun _ => True := by
  unfold ask
  split
  · exact trivial
  · refine (Asks.log (hline _)).bind fun _ _ => (Asks.perform (hcall _)).bind fun answer _ => ?_
    cases answer <;> exact trivial

end Engine
end Lwm2mClient
