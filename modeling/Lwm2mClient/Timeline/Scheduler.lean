import Lwm2mClient.Timeline.Worker

/-!
The scheduler of a client: a timeline over a virtual clock, or a worker.
-/
namespace Lwm2mClient

inductive Scheduler (τ : Type) where
  | timeline (t : Timeline τ)
  | worker (w : Worker τ)

namespace Scheduler

variable {τ : Type}

def schedule (s : Scheduler τ) (delay : Duration) (task : τ) : TaskHandle × Scheduler τ :=
  match s with
  | .timeline t => let (handle, t) := t.schedule delay task; (handle, .timeline t)
  | .worker w => let (handle, w) := w.schedule delay task; (handle, .worker w)

/-- Schedules a task to start as soon as possible. -/
def submit (s : Scheduler τ) (task : τ) : TaskHandle × Scheduler τ := s.schedule .zero task

def cancel (s : Scheduler τ) (handle : TaskHandle) : Scheduler τ :=
  match s with
  | .timeline t => .timeline (t.cancel handle)
  | .worker w => .worker (w.cancel handle)

def isCancelled (s : Scheduler τ) (handle : TaskHandle) : Bool :=
  match s with
  | .timeline t => t.isCancelled handle
  | .worker w => w.isCancelled handle

def shutdown (s : Scheduler τ) : Scheduler τ :=
  match s with
  | .timeline t => .timeline t.shutdown
  | .worker w => .worker w.shutdown

/-- Time passes until an instant. It moves the clock of a worker, a virtual clock is moved by
hand. -/
def passUntil (s : Scheduler τ) (instant : Duration) : Scheduler τ :=
  match s with
  | .timeline t => .timeline t
  | .worker w => .worker (w.passUntil instant)

/-- Whether there is a worker, and it was not shut down. -/
def isOpenWorker (s : Scheduler τ) : Bool :=
  match s with
  | .timeline _ => false
  | .worker w => !w.closed

/-- Whether there is a worker that has not stopped. -/
def isServing (s : Scheduler τ) : Bool :=
  match s with
  | .timeline _ => false
  | .worker w => !w.stopped

/-- Whether there is a worker that has nothing to do for the time being. -/
def isBlocked (s : Scheduler τ) : Bool :=
  match s with
  | .timeline _ => false
  | .worker w => w.isBlocked

/-- When the next task of a worker is due. -/
def nextDue? (s : Scheduler τ) : Option Duration :=
  match s with
  | .timeline _ => none
  | .worker w => w.nextDue?

/-- The virtual clock. -/
def now? (s : Scheduler τ) : Option Duration :=
  match s with
  | .timeline t => some t.now
  | .worker _ => none

def pending? (s : Scheduler τ) : Option (List Duration) :=
  match s with
  | .timeline t => some t.pending
  | .worker _ => none

end Scheduler
end Lwm2mClient
