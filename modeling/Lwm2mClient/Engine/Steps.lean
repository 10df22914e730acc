import Lwm2mClient.Servers.Lookup

/-!
The steps that lifecycle work is made of: moving the lifecycle, planning and cancelling the
renewal, finding the server, sending it a request, and giving the registration up.
-/
namespace Lwm2mClient.Engine

open Net Program

/-- What an engine is made with. -/
structure Setup where
  settings : Settings
  hosts : Hosts

def registration : Program Registration := perform .registration

def modify (f : Registration → Registration) : Program Unit := do
  let r ← registration
  perform (.setRegistration (f r))

/-- Moves the lifecycle as an event demands; an unexpected event is reported and changes
nothing. -/
def fire (event : LifecycleEvent) : Program Unit := do
  let r ← registration
  match r.lifecycle.step? event with
  | some next =>
    if next ≠ r.lifecycle then log (.entered next)
    perform (.setRegistration { r with lifecycle := next })
  | none => log (.unexpectedEvent event r.lifecycle)

def cancelAny : Option TaskHandle → Program Unit
  | some handle => perform (.cancelTask handle)
  | none => pure ()

/-- Cancels the renewal, if there is one. A renewal that has already started is outdated. -/
def cancelRenewal : Program Unit := do
  let r ← registration
  perform (.setRegistration { r with generation := r.generation + 1, renewal := none })
  cancelAny r.renewal

/-- How long after a success the registration is renewed. -/
def renewalDelay (settings : Settings) (lifetime : UInt64) : Duration :=
  (Duration.ofSeconds lifetime).remaining settings.renewalMargin

/-- Schedules the renewal in place of the one that is pending. -/
def planRenewal (setup : Setup) (lifetime : UInt64) : Program Unit := do
  let delay := renewalDelay setup.settings lifetime
  log (.nextUpdate delay)
  modify fun r => { r with generation := r.generation + 1 }
  let r ← registration
  let handle ← perform (.schedule delay (.renewal r.generation))
  perform (.setRegistration { r with renewal := some handle })
  cancelAny r.renewal

/-- Gives the registration up. -/
def forget : Program Unit := do
  modify fun r => { r with id := none }
  cancelRenewal
  fire .lost

/-- The servers, or that the client is not configured at all. -/
def requireServers (setup : Setup) : Program (Except Error Servers) := do
  match ← findServers setup.hosts with
  | some servers => return .ok servers
  | none => return .error (.unconfigured .objects)

/-- The device management server. -/
def requireManagement (setup : Setup) : Program (Except Error ManagementServer) := do
  return (← requireServers setup).bind Servers.theManagement

/-- Sends a request to a device management server and waits for its answer. -/
def ask (setup : Setup) (server : ManagementServer) (request : Request) :
    Program (Except Error Response) := do
  match server.info.requireAddress with
  | .error e => return .error e
  | .ok address =>
    log (.requestSent request address)
    let answer ← perform
      (.send address server.info.isSecure request setup.settings.requestTimeout)
    match answer with
    | some response => return .ok response
    | none => return .error .timeout

end Lwm2mClient.Engine
