import Lwm2mClient.Engine.Steps

/-!
The operations of an engine: register, update, bootstrap, deregister and stop, and the work
it leaves to the timeline. Each operation tells whether it reached its goal. An update that
fails escalates to a new registration and then to a bootstrap session; a finished bootstrap
session leads to a registration.
-/
namespace Lwm2mClient.Engine

open Net Program

/-- The registration parameters of a server. -/
def registerParameters (server : ManagementServer) : Except Error (UInt64 × BindingMode) :=
  match server.lifetime, server.binding with
  | some lifetime, some binding => .ok (lifetime, binding)
  | _, _ => .error (.unconfigured (.lifetimeOrBinding server.info.uri))

/-- The id of the registration that an answer grants. -/
def grantedId (response : Response) : Program (Except Error String) := do
  match response.code, response.registration with
  | .created, some id => return .ok id
  | .created, none =>
    log .locationMissing
    return .error (.rejected .created)
  | code, _ => return .error (.rejected code)

/-- Asks the server for a registration; gives its id and the lifetime that was asked for. -/
def sendRegister (setup : Setup) : Program (Except Error (String × UInt64)) := do
  match ← requireManagement setup with
  | .error e => return .error e
  | .ok server =>
    match registerParameters server with
    | .error e => return .error e
    | .ok (lifetime, binding) =>
      let links ← describeObjects
      let request := .register setup.settings.endpoint lifetime binding.text links
      match ← ask setup server request with
      | .error e => return .error e
      | .ok response => return (← grantedId response).map fun id => (id, lifetime)

/-- Registers, whatever the client held before. -/
def registerNow (setup : Setup) : Program Bool := do
  fire .register
  match ← sendRegister setup with
  | .ok (id, lifetime) =>
    log (.registeredAs id)
    modify fun r => { r with id := some id }
    planRenewal setup lifetime
    fire .registered
    return true
  | .error e =>
    log (.registrationFailed e)
    forget
    return false

/-- The bootstrap server and its address. -/
def requireBootstrap (setup : Setup) : Program (Except Error (ServerInfo × SocketAddress)) := do
  match ← requireServers setup with
  | .error e => return .error e
  | .ok servers =>
    match servers.theBootstrap with
    | none => return .error (.unconfigured .bootstrapServer)
    | some server => return server.requireAddress.map fun address => (server, address)

/-- Waits for the end of a session that the server accepted. -/
def awaitBootstrap (setup : Setup) : Option Response → Program Bool
  | none => do
    log .bootstrapTimedOut
    return false
  | some response => do
    if response.code = .changed then
      log .bootstrapAccepted
      let finished ← perform (.awaitFinish setup.settings.bootstrapTimeout)
      if !finished then log (.bootstrapUnfinished setup.settings.bootstrapTimeout)
      return finished
    else
      log (.bootstrapRefused response.code)
      return false

/-- Runs a bootstrap session, then registers. Nothing changes if no session can be opened. -/
def bootstrapNow (setup : Setup) : Program Bool := do
  match ← requireBootstrap setup with
  | .error e =>
    log (.cannotBootstrap e)
    return false
  | .ok (server, address) =>
    if !(← perform (.openSession server)) then
      log .bootstrapInProgress
      return false
    else
      fire .bootstrap
      let answer ← perform (.send address server.isSecure (.bootstrap setup.settings.endpoint)
        setup.settings.requestTimeout)
      let finished ← awaitBootstrap setup answer
      perform .closeSession
      if finished then
        log .bootstrapFinished
        registerNow setup
      else
        forget
        return false

/-- Asks the server to refresh a registration; gives the lifetime it then has. -/
def sendUpdate (setup : Setup) (id : String) : Program (Except Error UInt64) := do
  match ← requireManagement setup with
  | .error e => return .error e
  | .ok server =>
    match server.lifetime with
    | none => return .error (.unconfigured (.lifetime server.info.uri))
    | some lifetime =>
      match ← ask setup server (.update id) with
      | .error e => return .error e
      | .ok response =>
        if response.code = .changed then return .ok lifetime
        else return .error (.rejected response.code)

/-- Refreshes the registration, or finds another way to be registered. -/
def updateNow (setup : Setup) : Program Bool := do
  cancelRenewal
  match (← registration).id with
  | none =>
    log .updateSkipped
    return false
  | some id =>
    fire .update
    match ← sendUpdate setup id with
    | .ok lifetime =>
      log .updated
      planRenewal setup lifetime
      fire .registered
      return true
    | .error .timeout =>
      log .updateTimedOut
      forget
      bootstrapNow setup
    | .error (.rejected code) =>
      log (.updateRejected code)
      if ← registerNow setup then return true else bootstrapNow setup
    | .error e =>
      log (.updateFailed e)
      forget
      return false

/-- Sends a deregister request and judges the answer. -/
def sendDeregister (setup : Setup) (server : ManagementServer) (id : String) : Program Bool := do
  match ← ask setup server (.deregister id) with
  | .error e =>
    log (.deregistrationFailed e)
    fire .retained
    return false
  | .ok response =>
    if response.code = .deleted ∨ response.code = .notFound then
      log (.deregistered response.code)
      forget
      return true
    else
      log (.deregistrationRefused response.code)
      fire .retained
      return false

/-- Takes the registration back; done at once if there is none. -/
def deregisterNow (setup : Setup) : Program Bool := do
  match (← registration).id with
  | none => return true
  | some id =>
    match ← requireManagement setup with
    | .error e =>
      log (.cannotDeregister e)
      return false
    | .ok server =>
      fire .deregister
      sendDeregister setup server id

/-- Runs work while no other work of the engine is in progress. -/
def exclusively (work : Program Bool) : Program Bool := do
  perform .acquire
  let result ← work
  perform .release
  return result

def register (setup : Setup) : Program Bool := exclusively (registerNow setup)

def update (setup : Setup) : Program Bool := exclusively (updateNow setup)

/-- Refused at once while a session is open. -/
def bootstrap (setup : Setup) : Program Bool := do
  if ← perform .sessionActive then
    log .bootstrapInProgress
    return false
  else exclusively (bootstrapNow setup)

def deregister (setup : Setup) : Program Bool := exclusively (deregisterNow setup)

/-- Deregisters and drops the renewal, whether or not the server was reached. -/
def stop (setup : Setup) : Program Bool := exclusively do
  let result ← deregisterNow setup
  cancelRenewal
  return result

/-- Cuts a bootstrap session short, stops, and shuts the timeline down. -/
def shutdown (setup : Setup) : Program Bool := do
  perform .closeSession
  let result ← stop setup
  perform .shutDownTimeline
  return result

/-- Whether the store names a device management server. -/
def knowsManagement (setup : Setup) : Program Bool := do
  match ← findServers setup.hosts with
  | some servers => return !servers.management.isEmpty
  | none => return false

/-- The first decision: register where a device management server is known, bootstrap where
none is or registering fails. -/
def startNow (setup : Setup) : Program Bool := do
  log .started
  if ← knowsManagement setup then
    if ← registerNow setup then return true else bootstrapNow setup
  else bootstrapNow setup

/-- Renews the registration, unless the renewal was replaced or cancelled since it was
scheduled. -/
def renew (setup : Setup) (generation : Nat) : Program Bool := do
  if (← registration).generation ≠ generation then
    log .staleUpdate
    return false
  else updateNow setup

/-- What the timeline runs for an engine. -/
def work (setup : Setup) : Work → Program Bool
  | .start => exclusively (startNow setup)
  | .renewal generation => exclusively (renew setup generation)

/-- What a host may ask of an engine. -/
inductive Operation where
  | register
  | update
  | bootstrap
  | deregister
  | stop
  | shutdown
  deriving DecidableEq

def Operation.program (setup : Setup) : Operation → Program Bool
  | register => Engine.register setup
  | update => Engine.update setup
  | bootstrap => Engine.bootstrap setup
  | deregister => Engine.deregister setup
  | stop => Engine.stop setup
  | shutdown => Engine.shutdown setup

/-- An engine is made only where the store names at most one device management server. -/
def refusal (servers : Option Servers) : Option Error :=
  match servers with
  | some s =>
    if 1 < s.management.length then some (.unsupportedServers s.management.length) else none
  | none => none

end Lwm2mClient.Engine
