import Lwm2mClient.Timeline.Basic

/-!
A timeline served by one worker. Tasks reach the worker as commands in the order in which they are
sent; before it receives the next command, the worker starts every task that is due. Shutting down
is a command too, so what was sent before it is still received. The clock moves only where
somebody waits. What the worker reports of itself is left out.
-/
namespace Lwm2mClient

open Timeline (Entry enqueue)

inductive Worker.Command (τ : Type) where
  | schedule (entry : Entry τ)
  | stop

structure Worker (τ : Type) where
  now : Duration := .zero
  /-- How many tasks were accepted so far; the latest has this number. -/
  accepted : Nat := 0
  /-- What was sent to the worker and not received yet. -/
  commands : List (Worker.Command τ) := []
  /-- The tasks received and not started, in the order in which they are looked at. -/
  queue : List (Entry τ) := []
  cancelled : List Nat := []
  /-- No more commands are taken. -/
  closed : Bool := false
  /-- The worker has received the command to stop. -/
  stopped : Bool := false

namespace Worker

variable {τ : Type}

/-- The last instant the worker's clock can show. -/
def horizon : Duration := .ofSeconds 9223372036854775807

/-- What a delay beyond the horizon is replaced by: a hundred years. -/
def farFuture : Duration := .ofSeconds 3153600000

/-- When a task that is sent now becomes due. -/
def deadline (w : Worker τ) (delay : Duration) : Duration :=
  match w.now.add? delay with
  | some due => if due ≤ horizon then due else w.now.saturatingAdd farFuture
  | none => w.now.saturatingAdd farFuture

def schedule (w : Worker τ) (delay : Duration) (task : τ) : TaskHandle × Worker τ :=
  if w.closed then (.refused, w)
  else
    let number := w.accepted + 1
    let command := .schedule ⟨w.deadline delay, number, task⟩
    (.accepted number, { w with accepted := number, commands := w.commands ++ [command] })

def cancel (w : Worker τ) : TaskHandle → Worker τ
  | .refused => w
  | .accepted number => { w with cancelled := number :: w.cancelled }

def isCancelled (w : Worker τ) : TaskHandle → Bool
  | .refused => true
  | .accepted number => number ∈ w.cancelled

/-- Sends the command to stop, once. -/
def shutdown (w : Worker τ) : Worker τ :=
  if w.closed then w else { w with closed := true, commands := w.commands ++ [.stop] }

/-- One move of a worker that is not blocked: it starts a due task, drops a due task that was
cancelled, or receives a command. -/
def move? (w : Worker τ) : Option (Option (Entry τ) × Worker τ) :=
  if w.stopped then none
  else
    let receive : Option (Option (Entry τ) × Worker τ) :=
      match w.commands with
      | .schedule entry :: rest =>
        some (none, { w with commands := rest, queue := enqueue entry w.queue })
      | .stop :: rest => some (none, { w with commands := rest, queue := [], stopped := true })
      | [] => none
    match w.queue with
    | e :: rest =>
      if e.due ≤ w.now then
        some (if e.number ∈ w.cancelled then none else some e, { w with queue := rest })
      else receive
    | [] => receive

/-- Lets time pass until an instant, if it is still to come. -/
def passUntil (w : Worker τ) (instant : Duration) : Worker τ :=
  { w with now := w.now.later instant }

/-- Whether the worker waits for a command, or for the next task to be due. -/
def isBlocked (w : Worker τ) : Bool := !w.stopped && w.move?.isNone

/-- When the next task that the worker has received is due. -/
def nextDue? (w : Worker τ) : Option Duration :=
  if w.stopped then none else w.queue.head?.map (·.due)

end Worker
end Lwm2mClient
