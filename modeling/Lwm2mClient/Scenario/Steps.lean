import Lwm2mClient.Scenario.Follow

/-!
What a single step of a scenario does to the world. Most steps have a result at once;
an operation of an engine, a move of the clock and a wait leave more to do, and work
aside is left to another thread.
-/
namespace Lwm2mClient.Scenario

open Net

/-- What comes of a step: a result at once, more to do, or a failure. -/
inductive Effect where
  | result (value : Result)
  | enter (frame : Frame)
  | spawn (work : Aside)
  | failed (fault : Fault)

namespace World

/-- Makes a result of an answer. -/
def conclude {α : Type} (f : α → Result) : World × Except Fault α → World × Effect
  | (w, .ok value) => (w, .result (f value))
  | (w, .error fault) => (w, .failed fault)

/-- Goes into more to do, or has a result at once. -/
def enterOr (value : Result) : World × Option Frame → World × Effect
  | (w, some frame) => (w, .enter frame)
  | (w, none) => (w, .result value)

/-- Follows a program that operates no engine and asks for nothing but the store. -/
def consult {α : Type} (w : World) (p : Program α) : World × Except Fault α :=
  match follow none p w with
  | (w, .finished value) => (w, .ok value)
  | (w, .failed fault) => (w, .error fault)
  | (w, .asking _ _) => (w, .error .deadlock)

/-- A finish message reaches the gate. -/
def receiveFinish (w : World) (sender : SocketAddress) : World × Except Rejection Unit :=
  let o := w.gate.finish sender
  ({ w with gate := o.gate }.report o.lines, o.result)

/-- A delete message reaches the gate; a store that fails during the purge breaks it. -/
def receiveDelete (w : World) (sender : SocketAddress) (path : String) :
    World × Except Fault (Except Rejection Unit) :=
  match w.gate.acceptsDelete sender path with
  | .error rejection => (w, .ok (.error rejection))
  | .ok () =>
    match w.consult (Purge.purge sender) with
    | (w, .ok ()) => (w, .ok (.ok ()))
    | (w, .error fault) => ({ w with gate := w.gate.breakDown }, .error fault)

def scheduleTask (w : World) (name : String) (delay : Duration) (body : List Step) :
    World × Effect :=
  let (handle, scheduler) := w.scheduler.schedule delay (.body name body)
  ({ w with
      scheduler := scheduler
      handles := (name, handle) :: w.handles.filter (·.1 ≠ name) },
    .result (.handle (scheduler.isCancelled handle)))

/-- Does something with the latest handle under a name, if there is one. -/
def withHandle (w : World) (name : String) (f : TaskHandle → World × Result) : World × Effect :=
  match w.handles.lookup name with
  | some handle => let (w, r) := f handle; (w, .result r)
  | none => (w, .result .nothing)

/-- Does something with the current engine, if there is one. -/
def withEngine (w : World) (f : Nat → EngineState → World × Effect) : World × Effect :=
  match w.current, w.currentEngine? with
  | some e, some s => f e s
  | _, _ => (w, .result .nothing)

def makeEngine (w : World) (settings : Settings) (servers : Option Servers) : World × Result :=
  match Engine.refusal servers with
  | some e => (w, .made (.error e))
  | none =>
    ({ w with
       current := some w.engines.size, engines :=
       w.engines.push { settings := settings } }, .made (.ok ()))

/-- The four typed values of a resource. -/
def typedValues (snapshot : Option Object) (instanceId resource : NumericId) : Result :=
  match snapshot.bind (·.instances.get? instanceId) with
  | some i =>
    .resource (i.boolean resource) (i.integer resource) (i.string resource) (i.bytes resource)
  | none => .resource none none none none

/-- Takes a step. -/
def take (w : World) : Step → World × Effect
  | .host object => ({ w with store := w.store.host object }, .result .nothing)
  | .put object value => ({ w with store := w.store.put object value }, .result .nothing)
  | .putSecurity i security =>
    ({ w with store := w.store.putSecurity i security }, .result .nothing)
  | .putServer i server => ({ w with store := w.store.putServer i server }, .result .nothing)
  | .delete sender object i => conclude .code (w.deleteInstance sender object i)
  | .read object => conclude .object (w.readObject object)
  | .dump =>
    (w.report (w.store.objectIds.map .objectRead), .result (.objects w.store.objects.values))
  | .objectIds => (w, .result (.ids w.store.objectIds))
  | .links => conclude (fun text => .text (some text)) (w.consult describeObjects)
  | .resource object i resource =>
    conclude (fun snapshot => typedValues snapshot i resource) (w.readObject object)
  | .disturb disturbance => ({ w with disturbance := disturbance }, .result .nothing)
  | .extract => conclude .servers (w.consult (findServers w.hosts))
  | .theManagement =>
    conclude (fun servers => .management (servers.map Servers.theManagement))
      (w.consult (findServers w.hosts))
  | .theBootstrap =>
    conclude (fun servers => .server (servers.bind Servers.theBootstrap))
      (w.consult (findServers w.hosts))
  | .keyOf identity =>
    match w.readObject ObjectId.security with
    | (w, .ok (some securities)) => (w, .result (.bytes (Credentials.key? securities identity)))
    | (w, .ok none) => (w.report [.noSecurityObject], .result (.bytes none))
    | (w, .error fault) => (w, .failed fault)
  | .identityFor peer =>
    match w.readObject ObjectId.security with
    | (w, .ok (some securities)) =>
      (w.report (Credentials.identityLines w.hosts securities peer),
        .result (.bytes (Credentials.identity? w.hosts securities peer)))
    | (w, .ok none) => (w.report [.noSecurityObject], .result (.bytes none))
    | (w, .error fault) => (w, .failed fault)
  | .openWithKnown index =>
    match w.consult (findServers w.hosts) with
    | (w, .ok servers) =>
      match servers.bind (·.bootstrap[index]?) with
      | some server => let (w, opened) := w.openSession server; (w, .result (.flag opened))
      | none => (w, .result .nothing)
    | (w, .error fault) => (w, .failed fault)
  | .openWith peer => let (w, opened) := w.openSession peer; (w, .result (.flag opened))
  | .await timeout => enterOr (.flag false) (w.startWait timeout)
  | .finishAtGate sender => let (w, r) := w.receiveFinish sender; (w, .result (.verdict r))
  | .purgeAtGate sender path => conclude .verdict (w.receiveDelete sender path)
  | .finish sender =>
    let (w, r) := w.receiveFinish sender
    (w.report (BootstrapEndpoint.finishLines sender r),
      .result (.code (BootstrapEndpoint.finishCode r)))
  | .purge sender path =>
    match w.receiveDelete sender path with
    | (w, .ok r) =>
      (w.report (BootstrapEndpoint.deleteLines sender r),
        .result (.code (BootstrapEndpoint.deleteCode r)))
    | (w, .error fault) => (w, .failed fault)
  | .closeSession => (w.closeSession, .result .nothing)
  | .sessionActive => (w, .result (.flag w.gate.isActive))
  | .sessionPeer => (w, .result (.server w.gate.peer))
  | .schedule name delay body => w.scheduleTask name delay body
  | .cancelTask name =>
    w.withHandle name fun h =>
      let scheduler := w.scheduler.cancel h
      ({ w with scheduler := scheduler }, .flag (scheduler.isCancelled h))
  | .isCancelled name => w.withHandle name fun h => (w, .flag (w.scheduler.isCancelled h))
  | .advance span =>
    match w.scheduler.now? with
    | some now =>
      match now.add? span with
      | some target => (w, .enter (.advance target 0))
      | none => (w, .failed .clockOverflow)
    | none => (w, .result .nothing)
  | .pending => (w, .result (.durations w.scheduler.pending?))
  | .now => (w, .result (.duration w.scheduler.now?))
  | .shutDownTimeline => enterOr .nothing w.shutDownTimeline
  | .fail => (w, .failed .task)
  | .makeEngine values =>
    match w.consult (findServers w.hosts) with
    | (w, .ok servers) =>
      let (w, r) := w.makeEngine (Settings.build values) servers
      (w, .result r)
    | (w, .error fault) => (w, .failed fault)
  | .dropEngine => ({ w with current := none }, .result (.flag w.current.isSome))
  | .start =>
    w.withEngine fun e _ =>
      ({ w with scheduler := (w.scheduler.submit (.work e .start)).2 }, .result .nothing)
  | .operate operation =>
    w.withEngine fun e s => (w, .enter (.program e (operation.program (w.setup s.settings))))
  | .registrationId => (w, .result (.text (w.registration?.bind (·.id))))
  | .lifecycle => (w, .result (.lifecycle (w.registration?.map (·.lifecycle))))
  | .settings => (w, .result (.settings (w.currentEngine?.map (·.settings))))
  | .engineSessionActive =>
    w.withEngine fun _ _ => (w, .result (.flag w.gate.isActive))
  | .script kind items => (w.setScript kind items, .result .nothing)
  | .aside work => (w, .spawn work)
  | .asideInSession work =>
    (w, if w.gate.isActive then .spawn work else .result .noSession)

end World
end Lwm2mClient.Scenario
