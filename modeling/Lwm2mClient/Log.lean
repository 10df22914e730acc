import Lwm2mClient.Bootstrap.Rejection
import Lwm2mClient.Duration
import Lwm2mClient.IdMap
import Lwm2mClient.Lifecycle
import Lwm2mClient.Request
import Lwm2mClient.Servers.Basic

/-!
What the client reports of its work. Every line is one thing that happened; its level and its
message are functions of it.

Lines that a worker reports of itself are left out, since their place among the others depends on
how threads are scheduled: that it has started or stopped, that a delay was clamped, and that a
task was skipped or dropped. They tell a delay or a number of tasks and nothing else.
-/
namespace Lwm2mClient.Log

open Net

/-- Levels, the most urgent first. -/
inductive Level where
  | error
  | warn
  | info
  | debug
  | trace
  deriving DecidableEq

namespace Level

def rank : Level → Nat
  | error => 0
  | warn => 1
  | info => 2
  | debug => 3
  | trace => 4

def name : Level → String
  | error => "ERROR"
  | warn => "WARN"
  | info => "INFO"
  | debug => "DEBUG"
  | trace => "TRACE"

/-- Whether lines of a level are shown by a log that is set to another. -/
def shownAt (line log : Level) : Bool := line.rank ≤ log.rank

end Level

inductive Line where
  | objectRead (object : NumericId)
  | instanceDeleted (object instanceId : NumericId) (peer : SocketAddress)
  | securitySkipped (instanceId : NumericId) (error : Error)
  | hostUnresolved (uri : ServerUri) (error : Error)
  | bindingUnknown (instanceId : NumericId) (text : String)
  | serverInstanceMissing (shortId : Option UInt16) (uri : ServerUri)
  | serversFound (servers : Servers)
  | securityUnusable (instanceId : NumericId) (error : Error)
  | noSecurityObject
  | sessionRefused (uri : ServerUri)
  | sessionOpened (uri : ServerUri)
  | sessionClosed
  | nobodyWaits
  | sessionFinished (peer : SocketAddress)
  | securityKept (instanceId : NumericId)
  | deleteRefused (object instanceId : NumericId) (code : ResponseCode)
  | objectsPurged (peer : SocketAddress)
  | finishRejected (peer : SocketAddress) (rejection : Rejection)
  | purgeRejected (peer : SocketAddress) (rejection : Rejection)
  | started
  | entered (state : Lifecycle)
  | unexpectedEvent (event : LifecycleEvent) (state : Lifecycle)
  | requestSent (request : Request) (peer : SocketAddress)
  | registeredAs (registration : String)
  | registrationFailed (error : Error)
  | locationMissing
  | updateSkipped
  | updated
  | updateTimedOut
  | updateRejected (code : ResponseCode)
  | updateFailed (error : Error)
  | nextUpdate (delay : Duration)
  | staleUpdate
  | bootstrapInProgress
  | cannotBootstrap (error : Error)
  | bootstrapTimedOut
  | bootstrapAccepted
  | bootstrapUnfinished (timeout : Duration)
  | bootstrapRefused (code : ResponseCode)
  | bootstrapFinished
  | cannotDeregister (error : Error)
  | deregistered (code : ResponseCode)
  | deregistrationFailed (error : Error)
  | deregistrationRefused (code : ResponseCode)
  | taskFailed
  deriving DecidableEq

namespace Line

def level : Line → Level
  | objectRead _ | noSecurityObject => .trace
  | instanceDeleted .. | serversFound _ | sessionRefused _ | sessionClosed | nobodyWaits
  | securityKept _ | requestSent .. | nextUpdate _ | staleUpdate | bootstrapInProgress
  | bootstrapAccepted => .debug
  | sessionOpened _ | sessionFinished _ | objectsPurged _ | started | entered _ | registeredAs _
  | registrationFailed _ | updated | updateTimedOut | updateRejected _ | bootstrapTimedOut
  | bootstrapUnfinished _ | bootstrapRefused _ | bootstrapFinished | deregistered _
  | deregistrationFailed _ | deregistrationRefused _ => .info
  | hostUnresolved .. | bindingUnknown .. | serverInstanceMissing .. | deleteRefused ..
  | finishRejected .. | purgeRejected .. | unexpectedEvent .. | locationMissing
  | updateSkipped => .warn
  | securitySkipped .. | securityUnusable .. | updateFailed _ | cannotBootstrap _
  | cannotDeregister _ | taskFailed => .error

/-- The path of an instance. -/
def path (object instanceId : NumericId) : String :=
  "/" ++ toString object.toNat ++ "/" ++ toString instanceId.toNat

/-- A short server id that may be absent. -/
def shortIdText : Option UInt16 → String
  | some id => "Some(" ++ toString id.toNat ++ ")"
  | none => "None"

def message : Line → String
  | objectRead object => "read /" ++ toString object.toNat
  | instanceDeleted o i peer => "deleted " ++ path o i ++ " on behalf of " ++ peer.text
  | securitySkipped i e => "skipping security instance " ++ toString i.toNat ++ ": " ++ e.message
  | hostUnresolved uri e => uri.text ++ ": " ++ e.message
  | bindingUnknown i text =>
    "server instance " ++ toString i.toNat ++ ": " ++ BindingMode.unknownMessage text
  | serverInstanceMissing id uri =>
    "no server instance for short server id " ++ shortIdText id ++ " (" ++ uri.text ++ ")"
  | serversFound servers => servers.text
  | securityUnusable i e => "security instance " ++ toString i.toNat ++ ": " ++ e.message
  | noSecurityObject => "no security object, no psk"
  | sessionRefused uri => "bootstrap session already active, " ++ uri.text ++ " refused"
  | sessionOpened uri => "=> Bootstrap session with " ++ uri.text
  | sessionClosed => "=> Bootstrap session closed"
  | nobodyWaits => "nobody waits for this session"
  | sessionFinished peer => "=> Bootstrap finished by " ++ peer.text
  | securityKept i => "keeping bootstrap security instance " ++ path 0 i
  | deleteRefused o i code => "delete " ++ path o i ++ ": " ++ code.text
  | objectsPurged peer => "bootstrap delete from " ++ peer.text
  | finishRejected peer r => "bootstrap finish from " ++ peer.text ++ ": " ++ r.message
  | purgeRejected peer r => "bootstrap delete from " ++ peer.text ++ ": " ++ r.message
  | started => "=> Start"
  | entered state => "=> " ++ state.name
  | unexpectedEvent event state => "unexpected " ++ event.name ++ " at " ++ state.name
  | requestSent request peer => request.text ++ " -> " ++ peer.text
  | registeredAs id => "Registered with location '" ++ id ++ "'"
  | registrationFailed e => "Registration failed: " ++ e.message
  | locationMissing => "register response without location"
  | updateSkipped => "Registration update skipped: not registered"
  | updated => "Registration updated"
  | updateTimedOut => "Registration update failed: timeout"
  | updateRejected code => "Registration update failed: " ++ code.text
  | updateFailed e => "Registration update failed: " ++ e.message
  | nextUpdate delay => "next registration update in " ++ delay.text
  | staleUpdate => "stale registration update skipped"
  | bootstrapInProgress => "Bootstrap already in progress"
  | cannotBootstrap e => "Cannot bootstrap: " ++ e.message
  | bootstrapTimedOut => "Bootstrap failed: timeout"
  | bootstrapAccepted => "Bootstrap request accepted, waiting for finish"
  | bootstrapUnfinished timeout => "Bootstrap failed: not finished within " ++ timeout.text
  | bootstrapRefused code => "Bootstrap failed: " ++ code.text
  | bootstrapFinished => "Bootstrap finished"
  | cannotDeregister e => "Missing info to deregister: " ++ e.message
  | deregistered code => "Deregistered: " ++ code.text
  | deregistrationFailed e => "Deregistration failed: " ++ e.message
  | deregistrationRefused code => "Deregistration failed: " ++ code.text
  | taskFailed => "lifecycle task panicked"

end Line
end Lwm2mClient.Log
