import Lwm2mClient.Engine.Client
import Lwm2mClient.Engine.Operations
import Lwm2mClient.Proofs.Timeline.Waiting

/-!
An engine in service. Host threads ask it for operations and its timeline hands out its tasks. One
operation is in progress at a time and the others wait for it to end. An operation goes on by
itself as far as its client can answer it; for what the store holds, what a server answers and how
a wait ends it depends on its surroundings, which may answer anything and take any time. Meanwhile
the clock may move, tasks may be taken out, further operations may be asked for, and the gate of
sessions may change in any way. A call to the store or to a server may also fail, and then the
operation is abandoned as it stands.

An operation gives up its turn before it returns. A shutdown has still to shut the timeline down
then, and to wait for the worker to end, and in the meantime others may have their turn.
-/
namespace Lwm2mClient

namespace Service

/-- What waits on the timeline: work of the engine, or a task of somebody else. -/
inductive Task where
  | work (work : Work)
  | other
  deriving DecidableEq

/-- What a thread is there for: an operation for the host, or work that was taken from the
timeline. -/
inductive Job where
  | operation (operation : Engine.Operation)
  | task (due : Duration) (number : Nat) (work : Work)
  deriving DecidableEq

namespace Job

def program (setup : Engine.Setup) : Job → Program Bool
  | operation o => o.program setup
  | task _ _ work => Engine.work setup work

/-- The entry of the timeline that a job was. -/
def taken? : Job → Option (Timeline.Entry Task)
  | operation _ => none
  | task due number work => some ⟨due, number, .work work⟩

/-- Whether a job ends with the registration taken back and the renewal dropped. -/
def isStop : Job → Bool
  | operation .stop | operation .shutdown => true
  | _ => false

end Job

/-- A job with what it has still to do. -/
structure Thread where
  job : Job
  rest : Program Bool

/-- A thread that has given up its turn and has not returned. -/
structure Departure where
  thread : Thread
  /-- Whether it waits for the worker to end. -/
  waits : Bool := false

inductive Event where
  | began (job : Job)
  | reported (line : Log.Line)
  /-- The operation in progress got an answer, at a time. -/
  | answered (call : Call) (answer : call.Answer) (now : Duration)
  /-- A call failed, and its operation was abandoned. -/
  | failed (job : Job) (call : Call)
  /-- The turn of a job is over, which returns with a result. -/
  | ended (job : Job) (result : Bool)
  /-- A job that had still something to do after its turn has returned. -/
  | returned (job : Job) (result : Bool)

/-- An answer of the surroundings. -/
inductive Answer where
  | ids (value : List NumericId)
  | object (value : Option Object)
  | code (value : ResponseCode)
  | response (value : Option Response)
  | flag (value : Bool)

/-- Reads an answer as one to a call. -/
def Answer.to? (answer : Answer) : (c : Call) → Option c.Answer
  | .objectIds => match answer with | ids value => some value | _ => none
  | .readObject _ => match answer with | object value => some value | _ => none
  | .deleteInstance .. => match answer with | code value => some value | _ => none
  | .send .. => match answer with | response value => some value | _ => none
  | .awaitFinish _ => match answer with | flag value => some value | _ => none
  | _ => none

/-- Whether a call can fail: the calls to the store and to the servers. -/
def canFail : Call → Bool
  | .objectIds | .readObject _ | .deleteInstance .. | .send .. => true
  | _ => false

end Service

/-- An engine with what it works on, and what has happened so far, the latest first. -/
structure Service where
  client : Client Service.Task
  /-- The operation in progress. -/
  current : Option Service.Thread := none
  /-- The operations that wait until none is in progress. -/
  waiting : List Service.Thread := []
  /-- The operations that have given up their turn and have not returned. -/
  leaving : List Service.Departure := []
  history : List Service.Event := []

namespace Service

/-- An engine that was made just now. -/
def initial (scheduler : Scheduler Task) : Service := { client := { scheduler } }

/-! ### How an operation goes on by itself -/

/-- How far a program came by itself. -/
structure Progress (α : Type) where
  client : Client Task
  lines : List Log.Line := []
  /-- Whether the engine is still kept from other operations. -/
  holds : Bool
  rest : Program α

/-- Lets a program go on until it is done, gives up its turn or asks for what the client cannot
answer. -/
def proceed {α : Type} : Bool → Program α → Client Task → Progress α
  | holds, .done value, client => { client, holds, rest := .done value }
  | _, .call .release next, client => { client, holds := false, rest := next () }
  | holds, .call c next, client =>
    match client.answer? .work c with
    | some reply =>
      let p := proceed holds (next reply.answer) reply.client
      { p with lines := reply.lines ++ p.lines }
    | none => { client, holds, rest := .call c next }

def note (s : Service) (e : Event) : Service := { s with history := e :: s.history }

def report (s : Service) (lines : List Log.Line) : Service :=
  lines.foldl (fun s line => s.note (.reported line)) s

/-- What a program results in, if nothing is left to it but to shut the timeline down. -/
def outcome? {α : Type} : Program α → Option α
  | .done value => some value
  | .call .shutDownTimeline next => outcome? (next ())
  | .call _ _ => none

/-- A thread has given up its turn. It has returned, unless it has still something to do. -/
def depart (s : Service) (thread : Thread) : Service :=
  match thread.rest with
  | .done _ => s
  | _ => { s with leaving := s.leaving ++ [{ thread }] }

/-- A thread goes on, either as the operation in progress or not, until its turn is over or it has
to wait. -/
def enter (s : Service) (holds : Bool) (job : Job) (p : Program Bool) : Service :=
  let progress := proceed holds p s.client
  let s := { s with client := progress.client }.report progress.lines
  match outcome? progress.rest with
  | some result => (s.note (.ended job result)).depart ⟨job, progress.rest⟩
  | none =>
    if progress.holds then { s with current := some ⟨job, progress.rest⟩ }
    else { s with waiting := s.waiting ++ [⟨job, progress.rest⟩] }

/-- A thread begins with a job. -/
def launch (setup : Engine.Setup) (s : Service) (job : Job) : Service :=
  (s.note (.began job)).enter false job (job.program setup)

/-! ### What may happen -/

inductive Input where
  /-- A host thread asks for an operation. -/
  | operate (operation : Engine.Operation)
  /-- The host has the engine started. -/
  | start
  /-- A waiting operation has its turn, none being in progress. -/
  | turn (index : Nat)
  /-- The operation in progress gets the answer that it waits for. -/
  | answer (answer : Answer)
  /-- The call that the operation in progress waits for fails. -/
  | fail
  /-- Others than the engine change the gate of sessions. -/
  | gate (gate : Gate)
  /-- Others than the engine schedule a task, or cancel one of theirs. -/
  | schedule (delay : Duration)
  | cancel (number : Nat)
  | shutDownTimeline
  /-- An operation that has given up its turn shuts the timeline down. If that is to end the
  worker, it waits for the end, unless it runs on the worker itself. -/
  | windUp (index : Nat) (onWorker : Bool)
  /-- An operation that has given up its turn returns. -/
  | goBack (index : Nat)
  /-- The next task that is due by a time is taken from the virtual timeline. -/
  | take (target : Duration)
  /-- The virtual clock moves to a time. -/
  | settle (target : Duration)
  /-- The worker makes a move. -/
  | serve
  /-- Time passes for the worker. -/
  | pass (instant : Duration)

def withScheduler (s : Service) (scheduler : Scheduler Task) : Service :=
  { s with client := { s.client with scheduler := scheduler } }

/-- Whether the worker has not come to its end: it serves, or a task that it took out is not
over. -/
def isServing (s : Service) : Bool :=
  s.client.scheduler.isServing || (s.current.toList ++ s.waiting).any (·.job.taken?.isSome)

/-- A task that was taken out is started. -/
def startTask (setup : Engine.Setup) (s : Service) (entry : Timeline.Entry Task) : Service :=
  match entry.task with
  | .work work => launch setup s (.task entry.due entry.number work)
  | .other => s

/-- What an input leads to, if it is possible. -/
def step (setup : Engine.Setup) (s : Service) : Input → Option Service
  | .operate operation => some (launch setup s (.operation operation))
  | .start => some (s.withScheduler (s.client.scheduler.submit (.work .start)).2)
  | .turn index =>
    match s.current, s.waiting[index]? with
    | none, some ⟨job, .call .acquire next⟩ =>
      some ({ s with waiting := s.waiting.eraseIdx index }.enter true job (next ()))
    | _, _ => none
  | .answer answer =>
    match s.current with
    | some ⟨job, .call c next⟩ =>
      (answer.to? c).map fun a =>
        ({ s with current := none }.note (.answered c a s.client.scheduler.clock)).enter true job
          (next a)
    | _ => none
  | .fail =>
    match s.current with
    | some ⟨job, .call c _⟩ =>
      if canFail c then some ({ s with current := none }.note (.failed job c)) else none
    | _ => none
  | .gate gate => some { s with client := { s.client with gate := gate } }
  | .schedule delay => some (s.withScheduler (s.client.scheduler.schedule delay .other).2)
  | .cancel number =>
    if s.client.scheduler.entries.all fun e => e.number ≠ number || e.task = .other then
      some (s.withScheduler (s.client.scheduler.cancel (.accepted number)))
    else none
  | .shutDownTimeline => some (s.withScheduler s.client.scheduler.shutdown)
  | .windUp index onWorker =>
    match s.leaving[index]? with
    | some ⟨⟨job, .call .shutDownTimeline next⟩, _⟩ =>
      let waits := s.client.scheduler.isOpenWorker && !onWorker
      some { s.withScheduler s.client.scheduler.shutdown with
        leaving := s.leaving.set index ⟨⟨job, next ()⟩, waits⟩ }
    | _ => none
  | .goBack index =>
    match s.leaving[index]? with
    | some ⟨⟨job, .done result⟩, waits⟩ =>
      if waits && s.isServing then none
      else some ({ s with leaving := s.leaving.eraseIdx index }.note (.returned job result))
    | _ => none
  | .take target =>
    match s.client.scheduler with
    | .timeline t =>
      (t.takeDue? target).map fun (entry, t) =>
        startTask setup (s.withScheduler (.timeline t)) entry
    | .worker _ => none
  | .settle target =>
    match s.client.scheduler with
    | .timeline t => some (s.withScheduler (.timeline (t.settle target)))
    | .worker _ => none
  | .serve =>
    match s.client.scheduler with
    | .timeline _ => none
    | .worker w =>
      w.move?.map fun (due?, w) =>
        let s := s.withScheduler (.worker w)
        match due? with
        | some entry => startTask setup s entry
        | none => s
  | .pass instant => some (s.withScheduler (s.client.scheduler.passUntil instant))

theorem step_windUp {setup : Engine.Setup} {s s' : Service} {index : Nat} {onWorker : Bool}
    (hstep : step setup s (.windUp index onWorker) = some s') :
    ∃ job next waits, s.leaving[index]? = some ⟨⟨job, .call .shutDownTimeline next⟩, waits⟩ ∧
      s' = { s.withScheduler s.client.scheduler.shutdown with
        leaving := s.leaving.set index
          ⟨⟨job, next ()⟩, s.client.scheduler.isOpenWorker && !onWorker⟩ } := by
  simp only [step] at hstep
  split at hstep
  · rename_i job next waits hindex
    cases hstep
    exact ⟨job, next, waits, hindex, rfl⟩
  · cases hstep

theorem step_goBack {setup : Engine.Setup} {s s' : Service} {index : Nat}
    (hstep : step setup s (.goBack index) = some s') :
    ∃ job result waits, s.leaving[index]? = some ⟨⟨job, .done result⟩, waits⟩ ∧
      s' = { s with leaving := s.leaving.eraseIdx index }.note (.returned job result) := by
  simp only [step] at hstep
  split at hstep
  · rename_i job result waits hindex
    split at hstep
    · cases hstep
    · cases hstep
      exact ⟨job, result, waits, hindex, rfl⟩
  · cases hstep

/-- What a sequence of inputs leads to, if each of them is possible. -/
def run (setup : Engine.Setup) (s : Service) : List Input → Option Service
  | [] => some s
  | input :: rest => (step setup s input).bind fun s => run setup s rest

/-- What every step keeps, every run keeps. -/
theorem run_induction {setup : Engine.Setup} {P : Service → Prop}
    (hstep : ∀ s input s', P s → step setup s input = some s' → P s')
    {inputs : List Input} {s s' : Service} (hs : P s) (hrun : run setup s inputs = some s') :
    P s' := by
  induction inputs generalizing s with
  | nil => exact Option.some.inj hrun ▸ hs
  | cons input rest ih =>
    obtain ⟨mid, hmid, hrest⟩ := Option.bind_eq_some_iff.mp hrun
    exact ih (hstep s input mid hs hmid) hrest

end Service
end Lwm2mClient
