import Lwm2mClient.Proofs.Engine.Blindness
import Lwm2mClient.Proofs.Scenario.Happenings
import Lwm2mClient.Proofs.Timeline.Indifference

/-!
Worlds under a veil. The veil hides the keys in the store, in the steps that are still to be
taken, and in what was found by looking at the store; it hides nothing else. A step that does not
look at keys comes to the same under the veil as without it.
-/
namespace Lwm2mClient

/-! ### Clients -/

namespace Client

variable {τ υ α : Type}

/-- The client with other tasks in place of its own. -/
def map (f : τ → υ) (c : Client τ) : Client υ := ⟨c.registration, c.gate, c.scheduler.map f⟩

def Reply.map (f : τ → υ) (r : Reply τ α) : Reply υ α := ⟨r.answer, r.client.map f, r.lines⟩

/-- A client answers in the same way whatever its tasks are. -/
theorem answer?_map (f : τ → υ) (wrap : Work → τ) (client : Client τ) (c : Call) :
    (client.map f).answer? (fun work => f (wrap work)) c = (client.answer? wrap c).map
      (Reply.map f) := by
  cases c with
  | schedule delay work =>
    simp only [answer?, map, Scheduler.schedule_map, Option.map_some, Reply.map]
  | cancelTask handle =>
    simp only [answer?, map, Scheduler.cancel_map, Option.map_some, Reply.map]
  | shutDownTimeline =>
    simp only [answer?, map, Scheduler.shutdown_map, Option.map_some, Reply.map]
  | _ => rfl

end Client

namespace Scenario

open Net

/-! ### What is hidden -/

mutual

/-- A step without the keys that it puts into the store, itself or in steps that it leaves for
later. -/
def Step.veil : Step → Step
  | .put object value => .put object (value.veilIn object)
  | .putSecurity i security => .putSecurity i security.veil
  | .schedule task delay body => .schedule task delay (veilSteps body)
  | .script kind items => .script kind (veilItems items)
  | .aside work => .aside work.veil
  | .asideInSession work => .asideInSession work.veil
  | s => s

def Item.veil : Item → Item
  | .mk answer steps fails times => .mk answer (veilSteps steps) fails times

def Aside.veil : Aside → Aside
  | .steps delay steps => .steps delay (veilSteps steps)
  | work => work

def veilSteps : List Step → List Step
  | [] => []
  | s :: ss => s.veil :: veilSteps ss

def veilItems : List Item → List Item
  | [] => []
  | i :: is => i.veil :: veilItems is

end

@[simp] theorem veilSteps_eq_map (steps : List Step) : veilSteps steps = steps.map Step.veil := by
  induction steps with
  | nil => rfl
  | cons s ss ih => rw [veilSteps, ih, List.map_cons]

/-- Whether a step asks for a key: for that of an identity, or for what the store holds where keys
are. -/
def Step.isLook : Step → Bool
  | .keyOf _ | .dump => true
  | .read object => object = ObjectId.security
  | .resource object _ number => object = ObjectId.security && SecurityResource.isKey number
  | _ => false

mutual

/-- A result without keys. Of bytes that may be a key no more is to be seen than that they are
there. -/
def Result.veil : Result → Result
  | .object value => .object (value.map Object.veil)
  | .objects values => .objects (values.map Object.veil)
  | .resource boolean integer string bytes =>
    .resource boolean integer string (bytes.map fun _ => [])
  | .bytes value => .bytes (value.map fun _ => [])
  | .list values => .list (veilResults values)
  | r => r

def veilResults : List Result → List Result
  | [] => []
  | r :: rs => r.veil :: veilResults rs

end

@[simp] theorem veilResults_eq_map (results : List Result) :
    veilResults results = results.map Result.veil := by
  induction results with
  | nil => rfl
  | cons r rs ih => rw [veilResults, ih, List.map_cons]

def Task.veil : Task → Task
  | .work engine job => .work engine job
  | .body name steps => .body name (veilSteps steps)

def Frame.veil : Frame → Frame
  | .steps rest results => .steps (veilSteps rest) (veilResults results)
  | .body task rest => .body task (veilSteps rest)
  | .underway request rest => .underway request (veilSteps rest)
  | f => f

def Thread.veil (t : Thread) : Thread := { t with frames := t.frames.map Frame.veil }

def SentRequest.veil (x : SentRequest) : SentRequest := { x with steps := veilResults x.steps }

def TaskNote.veil : TaskNote → TaskNote
  | .started task now => .started task now
  | .result task value => .result task value.veil

/-- A script of each kind without the keys that steps in it put into the store. -/
def veilScripts (scripts : List (RequestKind × List Item)) : List (RequestKind × List Item) :=
  scripts.map fun script => (script.1, veilItems script.2)

def World.veil (w : World) : World :=
  { w with
    store := w.store.veil
    scheduler := w.scheduler.map Task.veil
    scripts := veilScripts w.scripts
    threads := w.threads.map Thread.veil
    ended := w.ended.map fun e => (e.1, e.2.veil)
    sent := w.sent.map SentRequest.veil
    notes := w.notes.map TaskNote.veil }

/-- What comes of a step, without the keys in what it leaves to be done. A result is left as it
is. -/
def Effect.veil : Effect → Effect
  | .enter frame => .enter frame.veil
  | .spawn work => .spawn work.veil
  | e => e

/-- What comes of a step, without the keys in a result. -/
def Effect.censor : Effect → Effect
  | .result value => .result value.veil
  | e => e

/-- What comes of something that leads to nothing with keys in it. -/
def veiled {α : Type} (p : World × α) : World × α := (p.1.veil, p.2)

namespace World

variable (w : World)

@[simp] theorem veiled_mk {α : Type} (a : α) : veiled (w, a) = (w.veil, a) := rfl

section

@[simp] theorem veil_hosts : w.veil.hosts = w.hosts := rfl

@[simp] theorem veil_store : w.veil.store = w.store.veil := rfl

@[simp] theorem veil_disturbance : w.veil.disturbance = w.disturbance := rfl

@[simp] theorem veil_gate : w.veil.gate = w.gate := rfl

@[simp] theorem veil_scheduler : w.veil.scheduler = w.scheduler.map Task.veil := rfl

@[simp] theorem veil_current : w.veil.current = w.current := rfl

@[simp] theorem veil_currentEngine? : w.veil.currentEngine? = w.currentEngine? := rfl

@[simp] theorem veil_registration? : w.veil.registration? = w.registration? := rfl

@[simp] theorem veil_busy : w.veil.busy = w.busy := rfl

@[simp] theorem veil_scripts : w.veil.scripts = veilScripts w.scripts := rfl

@[simp] theorem veil_handles : w.veil.handles = w.handles := rfl

@[simp] theorem veil_engine? (e : Nat) : w.veil.engine? e = w.engine? e := rfl

end

theorem report_veil (lines : List Log.Line) : w.veil.report lines = (w.report lines).veil := by
  obtain ⟨hosts, _ | level⟩ := w <;> rfl

/-! ### The store -/

theorem readObject_veil (object : NumericId) :
    w.veil.readObject object =
      ((w.readObject object).1.veil,
        (w.readObject object).2.map (Option.map (Object.veilAs object))) := by
  simp only [readObject, veil_disturbance, veil_store, Store.read_veil, report_veil]
  split
  · rfl
  · split <;> rfl

theorem removeInstance_veil (sender : SocketAddress) (object i : NumericId) :
    w.veil.removeInstance sender object i = veiled (w.removeInstance sender object i) := by
  simp only [removeInstance, veil_store, Store.hasInstance_veil, Store.remove_veil,
    apply_ite veiled, veiled_mk, ← report_veil]
  rfl

theorem deleteInstance_veil (sender : SocketAddress) (object i : NumericId) :
    w.veil.deleteInstance sender object i = veiled (w.deleteInstance sender object i) := by
  simp only [deleteInstance, veil_disturbance, removeInstance_veil, apply_ite veiled, veiled_mk]
  cases w.disturbance.deny <;> rfl

/-! ### Programs -/

theorem client_veil (engine : Option Nat) :
    w.veil.client engine = (w.client engine).map Task.veil := rfl

theorem withClient_veil (engine : Option Nat) (c : Client Task) :
    w.veil.withClient engine (c.map Task.veil) = (w.withClient engine c).veil := rfl

theorem answer?_veil (engine : Option Nat) (c : Call) :
    w.veil.answer? engine c =
      (w.answer? engine c).map fun reply => (reply.1.veil, reply.2.map c.veilAnswer) := by
  have hanswer :
      ((w.client engine).map Task.veil).answer? (fun work => .work (engine.getD 0) work) c =
      ((w.client engine).answer? (fun work => .work (engine.getD 0) work) c).map
        (Client.Reply.map Task.veil) :=
    Client.answer?_map Task.veil (fun work => .work (engine.getD 0) work) (w.client engine) c
  have hclient : ∀ reply : Option (Client.Reply Task c.Answer), c.isClear →
      (reply.map (Client.Reply.map Task.veil)).map (fun reply =>
        ((w.veil.withClient engine reply.client).report reply.lines,
          (.ok reply.answer : Except Fault c.Answer))) =
      (reply.map fun reply =>
        ((w.withClient engine reply.client).report reply.lines,
          (.ok reply.answer : Except Fault c.Answer))).map fun reply =>
            (reply.1.veil, reply.2.map c.veilAnswer) := by
    intro reply hclear
    cases reply with
    | none => rfl
    | some reply =>
      simp only [Option.map_some, Client.Reply.map, withClient_veil, report_veil, Except.map,
        hclear reply.answer]
  cases c with
  | objectIds => exact congrArg (fun ids => some (w.veil, Except.ok ids)) w.store.objectIds_veil
  | readObject object => exact congrArg some (readObject_veil w object)
  | deleteInstance sender object i =>
    refine congrArg some ((deleteInstance_veil w sender object i).trans ?_)
    rcases w.deleteInstance sender object i with ⟨w', fault | code⟩ <;> rfl
  | shutDownTimeline => rfl
  | _ =>
    simp only [answer?, client_veil, hanswer]
    exact hclient _ fun _ => rfl

/-- A program that is blind to keys is followed under the veil to where it is followed without. -/
theorem follow_veil {α : Type} (engine : Option Nat) {p : Program α} (hp : p.IsBlind) :
    follow engine p w.veil = veiled (follow engine p w) := by
  induction p generalizing w with
  | done value => rfl
  | call c next ih =>
    by_cases hacquire : c = .acquire
    · subst hacquire
      have hnext := hp.2 ()
      cases engine with
      | none => exact ih () w hnext
      | some e =>
        simp only [follow, veil_busy, apply_ite veiled, veiled_mk]
        congr 1
        exact ih () { w with busy := e :: w.busy } hnext
    · by_cases hrelease : c = .release
      · subst hrelease
        have hnext := hp.2 ()
        cases engine with
        | none => exact ih () w hnext
        | some e => exact ih () (w.release e) hnext
      · rw [follow_call hacquire hrelease, follow_call hacquire hrelease, answer?_veil]
        rcases w.answer? engine c with _ | ⟨w', fault | answer⟩
        · rfl
        · rfl
        · have hnext := ih answer w' (hp.2 answer)
          rw [← hp.1 answer] at hnext
          simp only [Option.map_some, Except.map]
          rw [hnext, hp.1 answer]

theorem consult_veil {α : Type} {p : Program α} (hp : p.IsBlind) :
    w.veil.consult p = veiled (w.consult p) := by
  unfold consult
  rw [follow_veil w none hp]
  rcases follow none p w with ⟨w', value | fault | ⟨c, next⟩⟩ <;> rfl

theorem consult_findServers_veil (hosts : Hosts) :
    w.veil.consult (findServers hosts) = veiled (w.consult (findServers hosts)) :=
  consult_veil w (findServers_isBlind hosts)

end World
end Scenario
end Lwm2mClient
