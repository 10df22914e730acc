import Lwm2mClient.Engine.Operations
import Lwm2mClient.Store.Provisioning
import Lwm2mClient.Timeline.Scheduler

/-!
Scenarios: a client in scripted surroundings, driven step by step. The servers answer as a
script says, and while a request is on its way further steps can happen, on the same
thread or aside on another one.
-/
namespace Lwm2mClient.Scenario

open Net

/-- The kinds of requests, each of which has a script of its own. -/
inductive RequestKind where
  | register
  | update
  | deregister
  | bootstrap
  deriving DecidableEq

def RequestKind.of : Request → RequestKind
  | .register .. => register
  | .update _ => update
  | .deregister _ => deregister
  | .bootstrap _ => bootstrap

/-- How the store is disturbed. -/
structure Disturbance where
  /-- The answer to every delete, none of which then removes anything. -/
  deny : Option ResponseCode := none
  /-- Objects that cannot be read although they are hosted. -/
  hidden : List NumericId := []
  /-- Objects whose reading fails. -/
  failingReads : List NumericId := []
  /-- Instances whose deletion fails. -/
  failingDeletes : List (NumericId × NumericId) := []

mutual

/-- One thing that happens to a client. -/
inductive Step where
  | host (object : NumericId)
  | put (object : NumericId) (value : ObjectInstance)
  | putSecurity (instanceId : NumericId) (security : Security)
  | putServer (instanceId : NumericId) (server : Server)
  | delete (sender : SocketAddress) (object instanceId : NumericId)
  | read (object : NumericId)
  | dump
  | objectIds
  | links
  /-- Reads a resource in each of the four types. -/
  | resource (object instanceId resource : NumericId)
  | disturb (disturbance : Disturbance)
  | extract
  | theManagement
  | theBootstrap
  | keyOf (identity : Bytes)
  | identityFor (peer : SocketAddress)
  /-- Opens a session with one of the bootstrap servers that the store names. -/
  | openWithKnown (index : Nat)
  | openWith (peer : ServerInfo)
  | await (timeout : Duration)
  /-- A finish message reaches the gate of sessions; likewise a delete message. -/
  | finishAtGate (sender : SocketAddress)
  | purgeAtGate (sender : SocketAddress) (path : String)
  /-- A finish message reaches the endpoint, which answers with a code; likewise a delete
  message. -/
  | finish (sender : SocketAddress)
  | purge (sender : SocketAddress) (path : String)
  | closeSession
  | sessionActive
  | sessionPeer
  | schedule (task : String) (delay : Duration) (body : List Step)
  | cancelTask (task : String)
  | isCancelled (task : String)
  | advance (span : Duration)
  | pending
  | now
  | shutDownTimeline
  /-- Fails where it stands. -/
  | fail
  | makeEngine (values : List Setting)
  | dropEngine
  | start
  | operate (operation : Engine.Operation)
  | registrationId
  | lifecycle
  | settings
  | engineSessionActive
  | script (kind : RequestKind) (items : List Item)
  | aside (work : Aside)
  /-- Work aside that is refused where no session is open. -/
  | asideInSession (work : Aside)

/-- One item of a script: the answer to a request, the steps that happen before it arrives,
whether the transport fails instead, and how often the item is used. -/
inductive Item where
  | mk (answer : Option Response) (steps : List Step) (fails : Bool) (times : Nat)

/-- Work on another thread. -/
inductive Aside where
  /-- Steps that begin some milliseconds later. -/
  | steps (delay : Nat) (steps : List Step)
  | shutdown
  | advance (span : Duration)

end

/-- Failures that abandon what is in progress. -/
inductive Fault where
  | storeRead
  | storeDelete
  | transport
  | task
  /-- The clock cannot be moved that far. -/
  | clockOverflow
  /-- Work waits for other work that cannot go on before it. -/
  | deadlock
  /-- The number of moves that a run may take is used up. -/
  | exhausted
  deriving DecidableEq

def Fault.message : Fault → String
  | storeRead => "store read fault"
  | storeDelete => "store delete fault"
  | transport => "transport fault"
  | task => "task fault"
  | clockOverflow => "overflow when adding durations"
  | deadlock => "work waits for itself"
  | exhausted => "too many moves"

/-- What a step results in. -/
inductive Result where
  | nothing
  | flag (value : Bool)
  | count (value : Nat)
  | text (value : Option String)
  | code (value : ResponseCode)
  | object (value : Option Object)
  | objects (value : List Object)
  | ids (value : List NumericId)
  | resource (boolean : Option Bool) (integer : Option Int64) (string : Option String)
      (bytes : Option Bytes)
  | servers (value : Option Servers)
  | server (value : Option ServerInfo)
  | management (value : Option (Except Error ManagementServer))
  | bytes (value : Option Bytes)
  | verdict (value : Except Rejection Unit)
  | handle (cancelled : Bool)
  | duration (value : Option Duration)
  | durations (value : Option (List Duration))
  | made (value : Except Error Unit)
  | settings (value : Option Settings)
  | lifecycle (value : Option Lifecycle)
  | failed (fault : Fault)
  /-- The step was refused since no session is open. -/
  | noSession
  | list (values : List Result)

/-- A request as the transport saw it, with the state of the engine at that moment. -/
structure SentRequest where
  peer : SocketAddress
  secure : Bool
  request : Request
  timeout : Option Duration
  lifecycle : Option Lifecycle
  registration : Option String
  /-- Results of the steps that happened before the answer arrived. -/
  steps : List Result := []

/-- A deletion that the store answered. -/
structure Deletion where
  sender : SocketAddress
  object : NumericId
  instanceId : NumericId
  code : ResponseCode

/-- What a task did. -/
inductive TaskNote where
  | started (task : String) (now : Option Duration)
  | result (task : String) (value : Result)

/-- The state of the client after a step. -/
structure Snapshot where
  lifecycle : Lifecycle
  registration : Option String
  sessionActive : Bool
  now : Option Duration
  pending : Option (List Duration)

/-- Everything that is told of a step. -/
structure Report where
  result : Result
  sent : List SentRequest
  deletions : List Deletion
  tasks : List TaskNote
  asides : List Result
  lines : List Log.Line
  snapshot : Option Snapshot

end Lwm2mClient.Scenario

namespace Lwm2mClient

open Scenario

/-- A client in scripted surroundings, and what happens to it. -/
structure Scenario where
  hosts : Net.Hosts := {}
  onWorker : Bool := false
  /-- The lines that are shown, if any. -/
  level : Option Log.Level := none
  scripts : List (RequestKind × List Item) := []
  /-- Steps of which nothing is told. -/
  preparation : List Step := []
  steps : List Step := []

end Lwm2mClient
