import Lwm2mClient.Proofs.Scenario.Veils

/-!
Steps under the veil. A step that does not ask for a key comes to exactly the same under the veil,
its result included. One that asks for a key does no more than that: what it leaves behind is the
same, and its result is what it would have been but for the key.
-/
namespace Lwm2mClient.Scenario

open Net

/-- What comes of a step, under the veil but for a result. -/
def shaded (p : World × Effect) : World × Effect := (p.1.veil, p.2.veil)

namespace World

variable (w : World)

@[simp] theorem shaded_mk (e : Effect) : shaded (w, e) = (w.veil, e.veil) := rfl

theorem readObject_veil_of_ne {object : NumericId} (h : object ≠ ObjectId.security) :
    w.veil.readObject object = veiled (w.readObject object) := by
  have hveil : Object.veilAs object = id := funext (Object.veilAs_of_ne h)
  rw [readObject_veil, hveil, Option.map_id]
  rcases w.readObject object with ⟨w', fault | snapshot⟩ <;> rfl

theorem receiveFinish_veil (sender : SocketAddress) :
    w.veil.receiveFinish sender = veiled (w.receiveFinish sender) :=
  congrArg (·, (w.gate.finish sender).result)
    (report_veil { w with gate := (w.gate.finish sender).gate } _)

theorem receiveDelete_veil (sender : SocketAddress) (path : String) :
    w.veil.receiveDelete sender path = veiled (w.receiveDelete sender path) := by
  simp only [receiveDelete, veil_gate, consult_veil w (Purge.purge_isBlind sender)]
  cases w.gate.acceptsDelete sender path with
  | error rejection => rfl
  | ok accepted => rcases w.consult (Purge.purge sender) with ⟨w', fault | value⟩ <;> rfl

theorem openSession_veil (peer : ServerInfo) :
    w.veil.openSession peer = veiled (w.openSession peer) :=
  congrArg (·, (w.gate.tryOpen peer).result)
    (report_veil { w with gate := (w.gate.tryOpen peer).gate } _)

theorem closeSession_veil : w.veil.closeSession = w.closeSession.veil :=
  report_veil { w with gate := w.gate.close.gate } _

theorem startWait_veil (timeout : Duration) :
    w.veil.startWait timeout = veiled (w.startWait timeout) := by
  simp only [startWait, veil_gate]
  rcases w.gate.claim with ⟨number | number, gate⟩ <;> rfl

/-- What a wait begins with holds no keys. -/
theorem startWait_frame {timeout : Duration} {frame : Frame}
    (h : (w.startWait timeout).2 = some frame) : frame.veil = frame := by
  unfold startWait at h
  split at h
  · cases h
    rfl
  · cases h

theorem shutDownTimeline_veil : w.veil.shutDownTimeline = veiled w.shutDownTimeline := by
  simp only [shutDownTimeline, veil_scheduler, Scheduler.shutdown_map, Scheduler.isOpenWorker_map]
  rfl

theorem shutDownTimeline_frame {frame : Frame}
    (h : w.shutDownTimeline.2 = some frame) : frame.veil = frame := by
  simp only [shutDownTimeline] at h
  split at h
  · cases h
    rfl
  · cases h

theorem conclude_veil {α : Type} (f : α → Result) (p : World × Except Fault α) :
    conclude f (veiled p) = shaded (conclude f p) := by
  rcases p with ⟨w', fault | value⟩ <;> rfl

theorem enterOr_veil (value : Result) {p : World × Option Frame}
    (h : ∀ frame, p.2 = some frame → frame.veil = frame) :
    enterOr value (veiled p) = shaded (enterOr value p) := by
  rcases p with ⟨w', _ | frame⟩
  · rfl
  · simp only [veiled_mk, enterOr, shaded_mk, Effect.veil, h frame rfl]

theorem withHandle_veil {f g : TaskHandle → World × Result}
    (h : ∀ handle, g handle = veiled (f handle)) (name : String) :
    w.veil.withHandle name g = shaded (w.withHandle name f) := by
  unfold withHandle
  rw [veil_handles]
  cases w.handles.lookup name with
  | none => rfl
  | some handle =>
    dsimp only
    rw [h handle]
    rfl

theorem withEngine_veil {f g : Nat → EngineState → World × Effect}
    (h : ∀ e s, g e s = shaded (f e s)) : w.veil.withEngine g = shaded (w.withEngine f) := by
  unfold withEngine
  rw [veil_current, veil_currentEngine?]
  split
  · exact h _ _
  · rfl

theorem makeEngine_veil (settings : Settings) (servers : Option Servers) :
    w.veil.makeEngine settings servers = veiled (w.makeEngine settings servers) := by
  unfold makeEngine
  cases Engine.refusal servers <;> rfl

theorem scheduleTask_veil (name : String) (delay : Duration) (body : List Step) :
    w.veil.scheduleTask name delay (veilSteps body) =
      shaded (w.scheduleTask name delay body) := by
  have hscheduled := w.scheduler.schedule_map Task.veil delay (.body name body)
  have hbody : (Task.body name body).veil = .body name (veilSteps body) := rfl
  rw [hbody] at hscheduled
  simp only [scheduleTask, veil_scheduler, hscheduled, Scheduler.isCancelled_map]
  rfl

theorem setScript_veil (kind : RequestKind) (items : List Item) :
    w.veil.setScript kind (veilItems items) = (w.setScript kind items).veil := by
  simp only [setScript, veil_scripts, veilScripts, List.filter_map]
  rfl

theorem typedValues_veil {number : NumericId} (h : SecurityResource.isKey number = false)
    (snapshot : Option Object) (i : NumericId) :
    typedValues (snapshot.map Object.veil) i number = typedValues snapshot i number := by
  cases snapshot with
  | none => rfl
  | some o =>
    simp only [typedValues, Option.map_some, Option.bind_some, Object.veil_get?]
    cases o.instances.get? i with
    | none => rfl
    | some found =>
      have hbytes : found.veil.bytes number = found.bytes number := by
        simp only [ObjectInstance.veil_bytes, h, Bool.false_eq_true, if_false]
        exact Option.map_id_apply
      simp only [Option.map_some, ObjectInstance.veil_boolean, ObjectInstance.veil_integer,
        ObjectInstance.veil_string, hbytes]

/-- Only the numbers of keys are hidden in the instances of the Security object. -/
theorem take_resource_veil {object number : NumericId} (i : NumericId)
    (h : (Step.resource object i number).isLook = false) :
    w.veil.take (.resource object i number) = shaded (w.take (.resource object i number)) := by
  by_cases hobject : object = ObjectId.security
  · subst hobject
    have hkey : SecurityResource.isKey number = false := h
    simp only [take, readObject_veil]
    rcases w.readObject ObjectId.security with ⟨w', fault | snapshot⟩
    · rfl
    · exact congrArg (fun r => (w'.veil, Effect.result r)) (typedValues_veil hkey snapshot i)
  · simp only [take, readObject_veil_of_ne w hobject, conclude_veil]

/-- The identity that goes with a key is no key. -/
theorem take_identityFor_veil (peer : SocketAddress) :
    w.veil.take (.identityFor peer) = shaded (w.take (.identityFor peer)) := by
  simp only [take, readObject_veil]
  rcases w.readObject ObjectId.security with ⟨w', fault | securities | securities⟩
  · rfl
  · exact congrArg (·, Effect.result (.bytes none)) (report_veil w' _)
  · change ((w'.veil.report (Credentials.identityLines w'.hosts securities.veil peer),
      Effect.result (.bytes (Credentials.identity? w'.hosts securities.veil peer))) :
        World × Effect) = _
    rw [Credentials.identityLines_veil, Credentials.identity?_veil, report_veil]
    rfl

/-- A step that does not ask for a key has the same result under the veil and leaves the same to
be done. -/
theorem take_veil {s : Step} (h : s.isLook = false) : w.veil.take s.veil = shaded (w.take s) := by
  cases s with
  | host | put | putSecurity | putServer | objectIds =>
    simp only [Step.veil, take, veil_store, Store.host_veil, Store.put_veil,
      Store.putSecurity_veil, Store.putServer_veil, Store.objectIds_veil]
    rfl
  | delete sender object i => simp only [Step.veil, take, deleteInstance_veil, conclude_veil]
  | read object =>
    have hobject : object ≠ ObjectId.security := of_decide_eq_false h
    simp only [Step.veil, take, readObject_veil_of_ne w hobject, conclude_veil]
  | links => simp only [Step.veil, take, consult_veil w describeObjects_isBlind, conclude_veil]
  | resource object i number => exact take_resource_veil w i h
  | extract | theManagement | theBootstrap =>
    simp only [Step.veil, take, veil_hosts, consult_findServers_veil, conclude_veil]
  | identityFor peer => exact take_identityFor_veil w peer
  | openWithKnown index =>
    simp only [Step.veil, take, veil_hosts, consult_findServers_veil]
    rcases w.consult (findServers w.hosts) with ⟨w', fault | servers⟩
    · rfl
    · dsimp only [veiled_mk]
      cases servers.bind (·.bootstrap[index]?) with
      | none => rfl
      | some server =>
        dsimp only
        rw [openSession_veil]
        rfl
  | openWith | finishAtGate | closeSession =>
    simp only [Step.veil, take, openSession_veil, receiveFinish_veil, closeSession_veil]
    rfl
  | await timeout =>
    simp only [Step.veil, take, startWait_veil]
    exact enterOr_veil _ fun _ => startWait_frame w
  | purgeAtGate sender path => simp only [Step.veil, take, receiveDelete_veil, conclude_veil]
  | finish sender =>
    simp only [Step.veil, take, receiveFinish_veil]
    exact congrArg (·, Effect.result (.code _)) (report_veil (w.receiveFinish sender).1 _)
  | purge sender path =>
    simp only [Step.veil, take, receiveDelete_veil]
    rcases w.receiveDelete sender path with ⟨w', fault | verdict⟩
    · rfl
    · exact congrArg (·, Effect.result (.code _)) (report_veil w' _)
  | schedule name delay body => exact scheduleTask_veil w name delay body
  | cancelTask name =>
    simp only [Step.veil, take]
    refine withHandle_veil w ?_ name
    intro handle
    simp only [veil_scheduler, Scheduler.cancel_map, Scheduler.isCancelled_map]
    rfl
  | isCancelled name =>
    simp only [Step.veil, take]
    refine withHandle_veil w ?_ name
    intro handle
    simp only [veil_scheduler, Scheduler.isCancelled_map]
    rfl
  | advance span =>
    simp only [Step.veil, take, veil_scheduler, Scheduler.now?_map]
    cases w.scheduler.now? with
    | none => rfl
    | some now => cases hadd : now.add? span <;> simp only [hadd] <;> rfl
  | pending | now =>
    simp only [Step.veil, take, veil_scheduler, Scheduler.pending?_map, Scheduler.now?_map]
    rfl
  | shutDownTimeline =>
    simp only [Step.veil, take, shutDownTimeline_veil]
    exact enterOr_veil _ fun _ => shutDownTimeline_frame w
  | makeEngine values =>
    simp only [Step.veil, take, veil_hosts, consult_findServers_veil]
    rcases w.consult (findServers w.hosts) with ⟨w', fault | servers⟩
    · rfl
    · have hmade := makeEngine_veil w' (Settings.build values) servers
      exact congrArg (fun p : World × Result => (p.1, Effect.result p.2)) hmade
  | start =>
    refine withEngine_veil w fun e s => ?_
    have hsubmitted := w.scheduler.schedule_map Task.veil .zero (.work e .start)
    have hwork : (Task.work e .start).veil = .work e .start := rfl
    rw [hwork] at hsubmitted
    simp only [Scheduler.submit, veil_scheduler, hsubmitted]
    rfl
  | operate operation => exact withEngine_veil w fun e s => rfl
  | engineSessionActive => exact withEngine_veil w fun e s => rfl
  | script kind items =>
    simp only [Step.veil, take, setScript_veil]
    rfl
  | asideInSession work =>
    simp only [Step.veil, take, veil_gate, shaded, apply_ite Effect.veil]
    rfl
  | keyOf | dump => cases h
  | _ => rfl

/-- A step that asks for a key changes nothing by that, and but for the key it has the
same result under the veil. -/
theorem take_look {s : Step} (h : s.isLook = true) :
    (w.veil.take s.veil).1 = (w.take s).1.veil ∧
      (w.veil.take s.veil).2.censor = (w.take s).2.veil.censor := by
  have hread := readObject_veil w ObjectId.security
  cases s with
  | keyOf identity =>
    simp only [Step.veil, take, hread]
    rcases w.readObject ObjectId.security with ⟨w', fault | securities | securities⟩
    · exact ⟨rfl, rfl⟩
    · exact ⟨report_veil w' _, rfl⟩
    · refine ⟨rfl, congrArg Effect.result ?_⟩
      change Result.bytes ((Credentials.key? securities.veil identity).map fun _ => []) = _
      rw [Credentials.key?_veil, Option.map_map]
      rfl
  | dump =>
    refine ⟨?_, congrArg (fun os => Effect.result (.objects os)) w.store.values_veil⟩
    simp only [Step.veil, take, veil_store, Store.objectIds_veil, report_veil]
  | read object =>
    obtain rfl : object = ObjectId.security := of_decide_eq_true h
    simp only [Step.veil, take, hread]
    rcases w.readObject ObjectId.security with ⟨w', fault | _ | securities⟩
    · exact ⟨rfl, rfl⟩
    · exact ⟨rfl, rfl⟩
    · exact ⟨rfl, congrArg (fun o => Effect.result (.object (some o))) securities.veil_veil⟩
  | resource object i number =>
    obtain rfl : object = ObjectId.security := of_decide_eq_true (Bool.and_eq_true_iff.mp h).1
    simp only [Step.veil, take, hread]
    rcases w.readObject ObjectId.security with ⟨w', fault | _ | securities⟩
    · exact ⟨rfl, rfl⟩
    · exact ⟨rfl, rfl⟩
    · refine ⟨rfl, congrArg Effect.result ?_⟩
      change (typedValues (some securities.veil) i number).veil =
          (typedValues (some securities) i number).veil
      simp only [typedValues, Option.bind_some, Object.veil_get?]
      cases securities.instances.get? i with
      | none => rfl
      | some found =>
        simp only [Option.map_some, ObjectInstance.veil_boolean, ObjectInstance.veil_integer,
          ObjectInstance.veil_string, ObjectInstance.veil_bytes, Result.veil, Option.map_map]
        rfl
  | _ => cases h

/-- Whatever a step is, it leads to the same world under the veil. -/
theorem take_censored (s : Step) :
    ((w.veil.take s.veil).1, (w.veil.take s.veil).2.censor) =
      ((w.take s).1.veil, (w.take s).2.veil.censor) := by
  cases hlook : s.isLook with
  | false => rw [take_veil w hlook, shaded]
  | true => exact Prod.ext (take_look w hlook).1 (take_look w hlook).2

end World
end Lwm2mClient.Scenario
