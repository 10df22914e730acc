import Lwm2mClient.Proofs.Timeline.Serving
import Lwm2mClient.Proofs.Timeline.Waiting

/-!
Timed scripts for a scheduler, and how a virtual timeline and a worker play them. The host does
something at an instant, lets a span of time pass, and does something again; a task does
something when it is started, which depends on all the tasks started so far and on when they
were started, and takes no time. With a virtual timeline the host moves the clock by the span.
With a worker it waits: meanwhile the worker makes its moves, and the clock moves only while the
worker is blocked, in ticks as long as one likes, but never past the time at which the next task
is due that it has received.
-/
namespace Lwm2mClient

open Timeline (Entry)

namespace Play

inductive Act (τ : Type) where
  | schedule (delay : Duration) (task : τ)
  /-- The task that was accepted under a number is cancelled. -/
  | cancel (number : Nat)
  /-- Whoever acts fails, and does nothing more. -/
  | fail

/-- A task that was started, and what the clock showed then. -/
structure Start (τ : Type) where
  clock : Duration
  entry : Entry τ

/-- What the host does at an instant, and how long it lets the time pass then. -/
structure Round (τ : Type) where
  acts : List (Act τ)
  span : Duration

end Play

open Play in
/-- A script that is being played: what the scheduler has come to, the tasks started, the latest
first, and what the host has still to do. -/
structure Play (τ : Type) where
  scheduler : Scheduler τ
  starts : List (Start τ) := []
  rounds : List (Round τ)
  /-- Until when the host lets the time pass, unless it is its turn. -/
  until? : Option Duration := none

namespace Scheduler

variable {τ : Type}

def accepted : Scheduler τ → Nat
  | .timeline t => t.accepted
  | .worker w => w.accepted

/-- What comes of something that is done. It is possible where either clock can show the due time,
and where somebody has the handle. -/
def perform? (s : Scheduler τ) : List (Play.Act τ) → Option (Scheduler τ)
  | [] | .fail :: _ => some s
  | .schedule delay task :: rest =>
    if (s.clock.add? delay).any (· ≤ Worker.horizon)
      then perform? (s.schedule delay task).2 rest else none
  | .cancel number :: rest =>
    if number ≤ s.accepted then perform? (s.cancel (.accepted number)) rest else none

end Scheduler

namespace Play

variable {τ : Type}

/-- A task is started and does what it does, given all the tasks started so far. -/
def start? (conduct : List (Start τ) → List (Act τ)) (p : Play τ) (s : Scheduler τ)
    (e : Entry τ) : Option (Play τ) :=
  let starts := ⟨s.clock, e⟩ :: p.starts
  (s.perform? (conduct starts)).map fun s => { p with scheduler := s, starts := starts }

/-- The host does what is next in the script, and lets the time pass. -/
def hostTurn? (p : Play τ) : Option (Play τ) :=
  match p.rounds with
  | round :: rest =>
    (p.scheduler.perform? round.acts).bind fun s =>
      ((s.clock.add? round.span).filter (· ≤ Worker.horizon)).map fun target =>
        { p with scheduler := s, rounds := rest, until? := some target }
  | [] => none

/-- Until when the clock of a blocked worker may move. -/
def limit (w : Worker τ) (target : Duration) : Duration :=
  (w.nextDue?.filter (· ≤ target)).getD target

/-- How far it does move towards an instant. -/
def reach (w : Worker τ) (target instant : Duration) : Duration :=
  if instant ≤ limit w target then instant else limit w target

/-- What happens next, if anything does. The clock of a blocked worker moves towards an
instant. -/
def next? (conduct : List (Start τ) → List (Act τ)) (instant : Duration)
    (p : Play τ) : Option (Play τ) :=
  match p.until? with
  | none => p.hostTurn?
  | some target =>
    match p.scheduler with
    | .timeline t =>
      match t.takeDue? target with
      | some (e, t) => p.start? conduct (.timeline t) e
      | none => some { p with scheduler := .timeline (t.settle target), until? := none }
    | .worker w =>
      match w.move? with
      | some (some e, w) => p.start? conduct (.worker w) e
      | some (none, w) => some { p with scheduler := .worker w }
      | none =>
        if w.now < limit w target
          then some { p with scheduler := .worker (w.passUntil (reach w target instant)) }
        else some { p with until? := none }

/-- How far a script is played in a number of steps, given how far the clock moves in each. -/
def run? (conduct : List (Start τ) → List (Act τ)) (p : Play τ) : List Duration → Option (Play τ)
  | [] => some p
  | instant :: rest => (p.next? conduct instant).bind fun p => run? conduct p rest

end Play
end Lwm2mClient
