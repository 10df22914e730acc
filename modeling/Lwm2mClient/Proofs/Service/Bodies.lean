import Lwm2mClient.Proofs.Engine.Management
import Lwm2mClient.Proofs.Monitors
import Lwm2mClient.Proofs.Service.Jobs

/-!
Jobs beside a monitor. All that a job does is to manage the registration and, at last, to
bootstrap. So a monitor that lets management happen and bootstraps begin is kept to by every job.
-/
namespace Lwm2mClient

open Net Engine Program

/-- A bootstrap waits for its end once its request was accepted, and reports every way
in which it ends in vain. -/
theorem Program.Keeps.awaitBootstrap {σ : Type} {m : Monitor σ} {setup : Setup}
    {answer : Option Response} {post : Bool → σ → Prop} {x : σ}
    (htimedOut : (log .bootstrapTimedOut).Keeps m (fun _ => post false) x)
    (hrefused : ∀ code, (log (.bootstrapRefused code)).Keeps m (fun _ => post false) x)
    (hwaits : (log .bootstrapAccepted).Keeps m (fun _ =>
      (Program.perform (.awaitFinish setup.settings.bootstrapTimeout)).Keeps m fun finished x' =>
        if finished = true then post true x'
        else (log (.bootstrapUnfinished setup.settings.bootstrapTimeout)).Keeps m
          (fun _ => post false) x') x) : (Engine.awaitBootstrap setup answer).Keeps m post x := by
  cases answer with
  | none => exact Keeps.bind htimedOut
  | some response =>
    unfold Engine.awaitBootstrap
    dsimp only
    split
    · refine Keeps.bind
        (hwaits.mono fun _ x₁ hwait => Keeps.bind (hwait.mono fun finished x₂ hends => ?_))
      cases finished with
      | true => exact hends
      | false => exact Keeps.bind hends
    · exact Keeps.bind (hrefused response.code)

namespace Service

/-- What holds of registering, updating, starting and bootstrapping holds of what every job
does. -/
theorem Job.body_of_combines {setup : Setup} {P : {α : Type} → Program α → Prop}
    {Q : Program Bool → Prop} (h : Combines setup P Q) (job : Job) : Q (job.body setup) := by
  cases job with
  | task due number work =>
    cases work with
    | start => exact h.startNow
    | renewal generation => exact h.renew generation
  | operation o =>
    cases o with
    | register => exact h.register
    | update => exact h.updateNow
    | bootstrap => exact h.bootstrapNow
    | deregister => exact h.ofPart h.deregisterNow
    | stop => exact h.deregisterAndCancel
    | shutdown => exact h.deregisterAndCancel

/-- No job gives up its turn before its work is done. -/
theorem Job.body_holds (setup : Setup) (job : Job) :
    (job.body setup).Asks (fun c => ¬c.isOfTurn) fun _ => True :=
  Job.body_of_combines (combines_asks
    (fun c hc => by cases c <;> first | exact id | exact absurd hc id)
    (fun c hc => by cases c <;> first | exact id | exact absurd hc id)
      (fun _ _ _ _ => id) setup) job

/-- Management is permitted where `held` holds of a monitor and leaves it so, and a bootstrap that
begins there leads to where `left` holds. -/
structure Suits {σ : Type} (setup : Setup) (m : Monitor σ) (held left : σ → Prop) : Prop where
  manages : ∀ c x, c.isManagement → held x → m.permits x c ∧ ∀ a x', m.moves x c a x' → held x'
  bootstraps : ∀ x, held x → (bootstrapNow setup).Keeps m (fun _ x' => left x') x
  weaken : ∀ x, held x → left x

namespace Suits

variable {σ α : Type} {setup : Setup} {m : Monitor σ} {held left : σ → Prop} {x : σ}

theorem managing (h : Suits setup m held left) {p : Program α} {mid : α → Prop}
    (hp : p.Asks Call.isManagement mid) (hx : held x) : p.Keeps m (fun _ x' => held x') x :=
  Keeps.of_asks held hp hx h.manages fun _ _ _ hx' => hx'

theorem combines (h : Suits setup m held left) :
    Combines setup (fun p => ∀ x, held x → p.Keeps m (fun _ x' => held x') x)
      fun p => ∀ x, held x → p.Keeps m (fun _ x' => left x') x where
  done _ _ hx := hx
  bind hp hf x hx := Keeps.bind ((hp x hx).mono fun value x' hx' => hf value x' hx')
  line _ _ hx := h.managing (Asks.log trivial) hx
  upkeep hp _ hx := h.managing (upkeep_manages hp) hx
  knowsManagement _ hx := h.managing (reads_manages (knowsManagement_reads setup)) hx
  sendRegister _ hx := h.managing (Engine.manages setup).sendRegister hx
  sendUpdate id _ hx := h.managing ((Engine.manages setup).sendUpdate id) hx
  deregisterNow _ hx := h.managing (Engine.manages setup).deregisterNow hx
  ofPart hp x hx := (hp x hx).mono fun _ x' hx' => h.weaken x' hx'
  andThen hp hf x hx := Keeps.bind ((hp x hx).mono fun value x' hx' => hf value x' hx')
  bootstrapNow := h.bootstraps

/-- Whatever a job is there for, it keeps to the monitor. -/
theorem body (h : Suits setup m held left) (job : Job) (hx : held x) :
    (job.body setup).Keeps m (fun _ x' => left x') x :=
  Job.body_of_combines h.combines job x hx

end Suits
end Service
end Lwm2mClient
