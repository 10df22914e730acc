import Lwm2mClient.Duration

/-!
A timeline of single-shot tasks over a virtual clock. Tasks start in the order of their due
times and, where these are equal, in the order in which they were accepted; the clock stands
at the due time while a task runs. What a task does is not known here: `takeDue?` hands it
out, and the caller runs it.
-/
namespace Lwm2mClient

/-- Names a task that was handed to a timeline, to cancel it before it starts. -/
inductive TaskHandle where
  | accepted (number : Nat)
  /-- The timeline did not take the task. -/
  | refused
  deriving DecidableEq

/-- A task that waits for its time. -/
structure Timeline.Entry (τ : Type) where
  due : Duration
  number : Nat
  task : τ

structure Timeline (τ : Type) where
  now : Duration := .zero
  /-- How many tasks were accepted so far; the latest has this number. -/
  accepted : Nat := 0
  /-- The tasks that are neither started nor cancelled, in the order in which they start. -/
  queue : List (Timeline.Entry τ) := []
  /-- The accepted tasks whose handle was cancelled, started or not. -/
  cancelled : List Nat := []
  shutDown : Bool := false

namespace Timeline

variable {τ : Type}

/-- Puts an entry behind all that are due no later. -/
def enqueue (e : Entry τ) : List (Entry τ) → List (Entry τ)
  | [] => [e]
  | x :: xs => if e.due < x.due then e :: x :: xs else x :: enqueue e xs

/-- Accepts a task to start after a delay, unless the timeline is shut down. A due time that the
clock cannot show is its last one. -/
def schedule (t : Timeline τ) (delay : Duration) (task : τ) : TaskHandle × Timeline τ :=
  if t.shutDown then (.refused, t)
  else
    let number := t.accepted + 1
    let entry := ⟨t.now.saturatingAdd delay, number, task⟩
    (.accepted number, { t with accepted := number, queue := enqueue entry t.queue })

/-- Cancels a task. One that has started goes on, but its handle counts as cancelled. -/
def cancel (t : Timeline τ) : TaskHandle → Timeline τ
  | .refused => t
  | .accepted number =>
    { t with
      queue := t.queue.filter (·.number ≠ number)
      cancelled := number :: t.cancelled }

def isCancelled (t : Timeline τ) : TaskHandle → Bool
  | .refused => true
  | .accepted number => number ∈ t.cancelled

/-- How long each waiting task still has to wait, soonest first. -/
def pending (t : Timeline τ) : List Duration := t.queue.map fun e => e.due.remaining t.now

/-- Takes the next task that is due by a time and sets the clock to its due time. -/
def takeDue? (t : Timeline τ) (target : Duration) : Option (Entry τ × Timeline τ) :=
  match t.queue with
  | e :: rest =>
    if e.due ≤ target then some (e, { t with now := t.now.later e.due, queue := rest }) else none
  | [] => none

/-- Moves the clock to a time, unless it is already there or later. -/
def settle (t : Timeline τ) (target : Duration) : Timeline τ :=
  { t with now := t.now.later target }

/-- Drops all waiting tasks and takes no more. -/
def shutdown (t : Timeline τ) : Timeline τ := { t with queue := [], shutDown := true }

end Timeline
end Lwm2mClient
