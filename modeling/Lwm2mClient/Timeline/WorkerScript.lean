import Lwm2mClient.Timeline.Worker

/-!
Scripts for a worker: a host sends it named tasks, cancels them, waits for them and shuts it down,
and the tasks may do the same except wait. A task takes no time, and the host takes none except
while it waits, so the worker does whatever it can before the host goes on.
-/
namespace Lwm2mClient.WorkerScript

inductive Step where
  | schedule (task : String) (delay : Duration) (body : List Step) (fails : Bool)
  | cancel (task : String)
  | isCancelled (task : String)
  /-- Waits until a task of that name has ended, three seconds at most. -/
  | wait (task : String)
  | shutdown

/-- What a step results in. -/
inductive Result where
  | nothing
  | handle (cancelled : Bool)
  | flag (value : Bool)
  deriving DecidableEq

structure Task where
  name : String
  body : List Step

structure State where
  worker : Worker Task := {}
  /-- The latest handle under each name. -/
  handles : List (String × TaskHandle) := []
  /-- The names of the tasks that were started, the latest first. -/
  started : List String := []

/-- Does something with the latest handle under a name, if there is one. -/
def withHandle (s : State) (name : String) (f : TaskHandle → State × Result) : State × Result :=
  match s.handles.lookup name with
  | some handle => f handle
  | none => (s, .nothing)

/-- Takes a step that needs no waiting. -/
def take (s : State) : Step → State × Result
  | .schedule name delay body _ =>
    let (handle, worker) := s.worker.schedule delay ⟨name, body⟩
    ({ s with worker := worker, handles := (name, handle) :: s.handles.filter (·.1 ≠ name) },
      .handle (worker.isCancelled handle))
  | .cancel name =>
    withHandle s name fun h => ({ s with worker := s.worker.cancel h }, .nothing)
  | .isCancelled name => withHandle s name fun h => (s, .flag (s.worker.isCancelled h))
  | .shutdown => ({ s with worker := s.worker.shutdown }, .nothing)
  | .wait _ => (s, .nothing)

/-- Starts a task. -/
def start (s : State) (task : Task) : State :=
  task.body.foldl (fun s step => (take s step).1) { s with started := task.name :: s.started }

/-- Lets the worker do what it can, in a bounded number of moves. -/
def settle : Nat → State → State
  | 0, s => s
  | n + 1, s =>
    match s.worker.move? with
    | some (some entry, worker) => settle n (start { s with worker := worker } entry.task)
    | some (none, worker) => settle n { s with worker := worker }
    | none => s

/-- How long a host waits for a task. -/
def patience : Duration := .ofSeconds 3

/-- Lets time pass until a task of a name has ended or a deadline is reached; tells
whether the task has ended. -/
def waitFor (moves : Nat) (name : String) (deadline : Duration) : Nat → State → State × Bool
  | 0, s => (s, false)
  | n + 1, s =>
    if name ∈ s.started then (s, true)
    else
      match s.worker.nextDue?.filter (· ≤ deadline) with
      | some due =>
        waitFor moves name deadline n (settle moves { s with worker := s.worker.passUntil due })
      | none => ({ s with worker := s.worker.passUntil deadline }, false)

/-- A step of the host, and what the worker does then. -/
def hostStep (moves : Nat) (s : State) : Step → State × Result
  | .wait name =>
    let (s, ended) := waitFor moves name (s.worker.now.saturatingAdd patience) moves s
    (s, .flag ended)
  | step =>
    let (s, result) := take s step
    (settle moves s, result)

/-- The results of the steps of a host, and the tasks started in order; at the end the worker is
shut down. -/
def run (moves : Nat) (steps : List Step) : List Result × List String :=
  let (s, results) := steps.foldl
    (fun (s, results) step =>
      let (s, result) := hostStep moves s step
      (s, result :: results)) (({} : State), ([] : List Result))
  let s := settle moves { s with worker := s.worker.shutdown }
  (results.reverse, s.started.reverse)

end Lwm2mClient.WorkerScript
