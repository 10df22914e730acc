import Lwm2mClient.Scenario.Threads

/-!
Running a scenario. Each of its steps is taken by a thread of its own and has ended when that
thread and all that work aside have ended; then the worker, if there is one, is given the time
it needs. What the worker left to threads aside may go on during later steps. Every run is
bounded by a number of moves.
-/
namespace Lwm2mClient.Scenario.World

/-- Whether all threads but the worker have ended. -/
def isJoined (w : World) : Bool := w.threads.all (·.role = .worker)

/-- Whether no thread can move now and the worker has nothing in hand. -/
def isSettled (w : World) : Bool :=
  w.threads.all fun t =>
    w.isBlocked t && (t.role ≠ .worker || t.frames.head?.any (· matches .serve))

/-- Lets happen what happens until a condition holds or nothing can happen, in a bounded number of
moves. -/
def runUntil (stop : World → Bool) : Nat → World → World
  | 0, w => w
  | n + 1, w => if stop w || w.isStuck then w else runUntil stop n w.tick

/-- The world in which a thread takes a step of the scenario. -/
def beginStep (w : World) (s : Step) : World :=
  { w with threads := ⟨.main, [.steps [s] []]⟩ :: w.threads }

/-- The result of the step that a thread took. -/
def stepResult (w : World) : Result :=
  match w.ended.lookup .main with
  | some (.list [r]) => r
  | some r => r
  | none => .failed (if w.isStuck then .deadlock else .exhausted)

/-- Takes a step of a scenario, waits for the threads it started, and tells of it. -/
def tell (moves : Nat) (w : World) (s : Step) : World × Report :=
  let w := runUntil isJoined moves (w.beginStep s)
  let result := w.stepResult
  let asides := w.asideResults
  let threads := w.threads.filter (·.role = .worker)
  let w := runUntil isSettled moves { w with threads := threads, ended := [] }
  (w.clearNotes,
    { result := result
      sent := w.sent.toList
      deletions := w.deletions.toList
      tasks := w.notes.toList
      asides := asides
      lines := w.lines.toList
      snapshot := w.snapshot })

/-- Takes steps one after the other. -/
def tellAll (moves : Nat) (w : World) : List Step → World × List Report
  | [] => (w, [])
  | s :: rest =>
    let (w, report) := w.tell moves s
    let (w, reports) := tellAll moves w rest
    (w, report :: reports)

end Lwm2mClient.Scenario.World

namespace Lwm2mClient

open Scenario

/-- The world before the first step. -/
def Scenario.initial (s : Scenario) : World :=
  { hosts := s.hosts
    level := s.level
    scheduler := if s.onWorker then .worker {} else .timeline {}
    scripts := s.scripts
    threads := if s.onWorker then [⟨.worker, [.serve]⟩] else [] }

/-- What is told of the steps of a scenario, each of which may take a number of moves. -/
def Scenario.reports (moves : Nat) (s : Scenario) : List Report :=
  let (w, _) := s.initial.tellAll moves s.preparation
  (w.tellAll moves s.steps).2

end Lwm2mClient
