import Lwm2mClient.Bootstrap.Endpoint
import Lwm2mClient.Bootstrap.Purge
import Lwm2mClient.Credentials
import Lwm2mClient.Engine.Client
import Lwm2mClient.Scenario.Basic

/-!
The world of a scenario: the client with its store, its engines and its scheduler, the scripts of
the servers, the threads, and what has been noted so far. Engines are numbered, and only the
current one is driven; work that the timeline still holds for a dropped engine does nothing,
unless an operation of that engine is in progress. Time passes only where every thread waits.
-/
namespace Lwm2mClient.Scenario

open Net

/-- What waits on the timeline: work of an engine, or a named task with a body. -/
inductive Task where
  | work (engine : Nat) (work : Work)
  | body (name : String) (steps : List Step)

structure EngineState where
  settings : Settings
  registration : Registration := {}

/-- A part of what a thread has still to do. -/
inductive Frame where
  /-- The rest of an operation of an engine. -/
  | program (engine : Nat) (rest : Program Bool)
  /-- The rest of an operation once the request it sent is settled. -/
  | reply (engine : Nat) (outcome : Except Fault (Option Response))
      (next : Option Response → Program Bool)
  /-- The rest of an operation once its wait for the end of a session is over. -/
  | afterWait (engine : Nat) (next : Bool → Program Bool)
  /-- Steps, with the results of those before them. -/
  | steps (rest : List Step) (results : List Result)
  /-- The rest of the body of a task. -/
  | body (task : String) (rest : List Step)
  /-- The rest of the steps that happen while a request is on its way. -/
  | underway (request : Nat) (rest : List Step)
  /-- The rest of a move of the clock, with the number of tasks started. -/
  | advance (target : Duration) (started : Nat)
  /-- Whatever tasks reach the worker until it is stopped. -/
  | serve
  /-- A sleep until an instant. -/
  | sleep (instant : Duration)
  /-- A wait for the end of a session, with the instant at which it is given up. -/
  | await (session : Nat) (deadline : Duration)
  /-- A wait for the end of the worker. -/
  | workerEnd

/-- The operation of an engine that a frame belongs to. -/
def Frame.engine? : Frame → Option Nat
  | program e _ | reply e _ _ | afterWait e _ => some e
  | _ => none

/-- What a thread is there for. -/
inductive Role where
  /-- It takes a step of the scenario. -/
  | main
  | aside (number : Nat)
  | worker
  deriving DecidableEq

structure Thread where
  role : Role
  /-- What it has to do, innermost part first. -/
  frames : List Frame

structure World where
  hosts : Hosts
  level : Option Log.Level
  store : Store := {}
  disturbance : Disturbance := {}
  gate : Gate := {}
  scheduler : Scheduler Task
  engines : Array EngineState := #[]
  current : Option Nat := none
  /-- Engines of which an operation is in progress. -/
  busy : List Nat := []
  scripts : List (RequestKind × List Item)
  /-- The latest handle under each task name. -/
  handles : List (String × TaskHandle) := []
  /-- The threads that have not ended, the one that goes on next first. -/
  threads : List Thread := []
  /-- How many threads were started aside. -/
  asides : Nat := 0
  /-- How much time has passed. -/
  elapsed : Duration := .zero
  /-- Results of the threads that ended. -/
  ended : List (Role × Result) := []
  /-- How many requests were told of. -/
  told : Nat := 0
  sent : Array SentRequest := #[]
  deletions : Array Deletion := #[]
  notes : Array TaskNote := #[]
  lines : Array Log.Line := #[]

namespace World

/-- Keeps the lines that the log shows. -/
def report (w : World) (lines : List Log.Line) : World :=
  match w.level with
  | some level =>
    { w with lines := w.lines ++ (lines.filter fun l => l.level.shownAt level).toArray }
  | none => w

def note (w : World) (n : TaskNote) : World := { w with notes := w.notes.push n }

/-! ### The store -/

def readObject (w : World) (object : NumericId) : World × Except Fault (Option Object) :=
  if object ∈ w.disturbance.failingReads then (w, .error .storeRead)
  else if object ∈ w.disturbance.hidden then (w, .ok none)
  else (w.report [.objectRead object], .ok (w.store.read object))

/-- The answer of an undisturbed store to a delete. -/
def removeInstance (w : World) (sender : SocketAddress) (object instanceId : NumericId) :
    World × ResponseCode :=
  if w.store.hasInstance object instanceId then
    ({ w with store := w.store.remove object instanceId }.report
      [.instanceDeleted object instanceId sender], .deleted)
  else (w, .notFound)

def deleteInstance (w : World) (sender : SocketAddress) (object instanceId : NumericId) :
    World × Except Fault ResponseCode :=
  if (object, instanceId) ∈ w.disturbance.failingDeletes then (w, .error .storeDelete)
  else
    let (w, code) := match w.disturbance.deny with
      | some code => (w, code)
      | none => w.removeInstance sender object instanceId
    ({ w with deletions := w.deletions.push ⟨sender, object, instanceId, code⟩ }, .ok code)

/-! ### The engines -/

def engine? (w : World) (engine : Nat) : Option EngineState := w.engines[engine]?

def currentEngine? (w : World) : Option EngineState := w.current.bind w.engine?

/-- The registration of the current engine. -/
def registration? (w : World) : Option Registration := w.currentEngine?.map (·.registration)

def setup (w : World) (settings : Settings) : Engine.Setup := ⟨settings, w.hosts⟩

/-- The state of the client as one of its engines sees it. -/
def client (w : World) (engine : Option Nat) : Client Task :=
  { registration := ((engine.bind w.engine?).map (·.registration)).getD {}
    gate := w.gate
    scheduler := w.scheduler }

/-- The world in which an engine left the client in a state. -/
def withClient (w : World) (engine : Option Nat) (c : Client Task) : World :=
  let engines := match engine with
    | some e => w.engines.modify e fun s => { s with registration := c.registration }
    | none => w.engines
  { w with engines := engines, gate := c.gate, scheduler := c.scheduler }

/-- Whether an engine can still be operated: it is the current one, or an operation of it is in
progress. -/
def isAlive (w : World) (engine : Nat) : Bool :=
  w.current = some engine || engine ∈ w.busy ||
    w.threads.any fun t => t.frames.any fun f => f.engine? = some engine

/-- An operation of an engine ends. -/
def release (w : World) (engine : Nat) : World := { w with busy := w.busy.filter (· ≠ engine) }

/-- What a task has to do, once it is started. -/
def startTask (w : World) : Task → World × List Frame
  | .work engine work =>
    if w.isAlive engine then
      match w.engine? engine with
      | some s => (w, [.program engine (Engine.work (w.setup s.settings) work)])
      | none => (w, [.steps [] []])
    else (w, [.steps [] []])
  | .body name steps => (w.note (.started name w.scheduler.now?), [.body name steps])

/-! ### The transport -/

/-- Takes the next item of a script. -/
def takeItem (kind : RequestKind) : List (RequestKind × List Item) →
    Option Item × List (RequestKind × List Item)
  | [] => (none, [])
  | (k, items) :: rest =>
    if k = kind then
      match items with
      | [] => (none, (k, []) :: rest)
      | .mk answer steps fails times :: more =>
        let left := if times ≤ 1 then more else .mk answer steps fails (times - 1) :: more
        (some (.mk answer steps fails times), (k, left) :: rest)
    else
      let (item, rest) := takeItem kind rest
      (item, (k, items) :: rest)

/-- Replaces a script. -/
def setScript (w : World) (kind : RequestKind) (items : List Item) : World :=
  { w with scripts := (kind, items) :: w.scripts.filter (·.1 ≠ kind) }

/-- Notes a request with the state of the current engine, and gives its number. -/
def noteRequest (w : World) (peer : SocketAddress) (secure : Bool) (request : Request)
    (timeout : Option Duration) : World × Nat :=
  let number := w.told + w.sent.size
  let r := w.registration?
  ({ w with
    sent := w.sent.push
      { peer, secure, request, timeout
        lifecycle := r.map (·.lifecycle), registration := r.bind (·.id) } }, number)

/-- Notes the result of a step that happened while a request was on its way, unless the
request was told of already. -/
def noteStep (w : World) (request : Nat) (result : Result) : World :=
  if request < w.told then w
  else
    { w with
      sent := w.sent.modify (request - w.told) fun s => { s with steps := s.steps ++ [result] } }

/-! ### The gate and the scheduler -/

def openSession (w : World) (peer : ServerInfo) : World × Bool :=
  let o := w.gate.tryOpen peer
  ({ w with gate := o.gate }.report o.lines, o.result)

def closeSession (w : World) : World :=
  let o := w.gate.close
  { w with gate := o.gate }.report o.lines

/-- Starts to wait for the end of the latest session; gives the wait, unless there is nothing to
wait for. -/
def startWait (w : World) (timeout : Duration) : World × Option Frame :=
  match w.gate.claim with
  | (some session, gate) =>
    ({ w with gate := gate }, some (.await session (w.elapsed.saturatingAdd timeout)))
  | (none, gate) => ({ w with gate := gate }, none)

/-- Shuts the timeline down. Whoever shuts a worker down waits for its end. -/
def shutDownTimeline (w : World) : World × Option Frame :=
  ({ w with scheduler := w.scheduler.shutdown },
    if w.scheduler.isOpenWorker then some .workerEnd else none)

/-- Lets time pass until an instant, if it is still to come. -/
def passUntil (w : World) (instant : Duration) : World :=
  { w with elapsed := w.elapsed.later instant, scheduler := w.scheduler.passUntil instant }

/-! ### Reports -/

def snapshot (w : World) : Option Snapshot :=
  w.registration?.map fun r =>
    { lifecycle := r.lifecycle
      registration := r.id
      sessionActive := w.gate.isActive
      now := w.scheduler.now?
      pending := w.scheduler.pending? }

/-- Results of the threads that worked aside and ended, in the order in which they were
started. -/
def asideResults (w : World) : List Result :=
  let numbered := w.ended.filterMap fun (role, result) =>
    match role with
    | .aside number => some (number, result)
    | _ => none
  (numbered.mergeSort fun a b => a.1 ≤ b.1).map (·.2)

/-- Forgets what was noted. -/
def clearNotes (w : World) : World :=
  { w with
    told := w.told + w.sent.size, sent := #[], deletions := #[], notes := #[], lines := #[] }

end World
end Lwm2mClient.Scenario
