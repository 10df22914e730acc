import Lwm2mClient.Scenario.Steps

/-!
Threads of a scenario. A thread is a stack of frames, the innermost first, and it moves by its
first frame: that frame goes on, goes into another one, or hands its result to the frame
behind it. A failure unwinds the stack as far as a frame that starts tasks, which takes the
next one. A frame may be blocked, and then its thread moves again once another thread or the
time has changed what it is blocked by. A thread that is not blocked goes on as long as it
can, since what it does takes no time.
-/
namespace Lwm2mClient.Scenario

open Net

/-- What a move of a thread comes to. -/
inductive Next where
  | goOn (frames : List Frame)
  | deliver (result : Result) (frames : List Frame)
  | failed (fault : Fault) (frames : List Frame)
  | spawn (work : Aside) (frames : List Frame)

namespace World

/-! ### What blocks a thread -/

/-- Whether a thread cannot move by a frame for the time being. The worker does not wait for
itself. -/
def blocks (w : World) (role : Role) : Frame → Bool
  | .program e (.call .acquire _) => e ∈ w.busy
  | .serve => w.scheduler.isBlocked
  | .sleep instant => w.elapsed < instant
  | .await session deadline =>
    !w.gate.isFinished session && w.gate.mayFinish session && w.elapsed < deadline
  | .workerEnd => role ≠ .worker && w.scheduler.isServing
  | _ => false

def isBlocked (w : World) (t : Thread) : Bool := t.frames.head?.any (w.blocks t.role)

/-- When time alone lets a blocked thread move again. -/
def wake? (w : World) (t : Thread) : Option Duration :=
  match t.frames with
  | .serve :: _ => w.scheduler.nextDue?
  | .sleep instant :: _ => some instant
  | .await _ deadline :: _ => some deadline
  | _ => none

/-! ### How a thread moves -/

/-- What an operation asks for that takes more than an answer. An engine that is in use is asked
for again once it is not. -/
def ask (w : World) (e : Nat) (rest : List Frame) :
    (c : Call) → (c.Answer → Program Bool) → World × Next
  | .send peer secure request timeout, next =>
    let (w, number) := w.noteRequest peer secure request timeout
    let (item, scripts) := takeItem (.of request) w.scripts
    match item with
    | some (.mk answer steps fails _) =>
      let outcome := if fails then .error .transport else .ok answer
      ({ w with scripts := scripts },
        .goOn (.underway number steps :: .reply e outcome next :: rest))
    | none => ({ w with scripts := scripts }, .goOn (.reply e (.ok none) next :: rest))
  | .awaitFinish timeout, next =>
    match w.startWait timeout with
    | (w, some wait) => (w, .goOn (wait :: .afterWait e next :: rest))
    | (w, none) => (w, .goOn (.program e (next false) :: rest))
  | .shutDownTimeline, next =>
    match w.shutDownTimeline with
    | (w, some wait) => (w, .goOn (wait :: .program e (next ()) :: rest))
    | (w, none) => (w, .goOn (.program e (next ()) :: rest))
  | c, next => (w, .goOn (.program e (.call c next) :: rest))

/-- Takes a step, and then goes on with a frame. -/
def takeStep (w : World) (s : Step) (after : Frame) (rest : List Frame) : World × Next :=
  match w.take s with
  | (w, .result value) => (w, .deliver value (after :: rest))
  | (w, .enter frame) => (w, .goOn (frame :: after :: rest))
  | (w, .spawn work) => (w, .spawn work (after :: rest))
  | (w, .failed fault) => (w, .failed fault rest)

/-- One move of a thread by a frame that is not blocked. -/
def move (w : World) (frame : Frame) (rest : List Frame) : World × Next :=
  match frame with
  | .program e p =>
    match follow (some e) p w with
    | (w, .finished reached) => (w, .deliver (.flag reached) rest)
    | (w, .failed fault) => (w.release e, .failed fault rest)
    | (w, .asking c next) => w.ask e rest c next
  | .reply e (.ok answer) next => (w, .goOn (.program e (next answer) :: rest))
  | .reply e (.error fault) _ => (w.release e, .failed fault rest)
  | .afterWait e next => (w, .goOn (.program e (next false) :: rest))
  | .steps [] results => (w, .deliver (.list results) rest)
  | .steps (s :: ss) results => w.takeStep s (.steps ss results) rest
  | .body _ [] => (w, .deliver .nothing rest)
  | .body task (s :: ss) => w.takeStep s (.body task ss) rest
  | .underway _ [] => (w, .goOn rest)
  | .underway request (s :: ss) => w.takeStep s (.underway request ss) rest
  | .advance target started =>
    match w.scheduler with
    | .timeline t =>
      match t.takeDue? target with
      | some (entry, t) =>
        let (w, frames) := { w with scheduler := .timeline t }.startTask entry.task
        (w, .goOn (frames ++ .advance target started :: rest))
      | none =>
        ({ w with scheduler := .timeline (t.settle target) }, .deliver (.count started) rest)
    | .worker _ => (w, .deliver (.count started) rest)
  | .serve =>
    match w.scheduler with
    | .timeline _ => (w, .goOn rest)
    | .worker k =>
      match k.move? with
      | some (some entry, k) =>
        let (w, frames) := { w with scheduler := .worker k }.startTask entry.task
        (w, .goOn (frames ++ .serve :: rest))
      | some (none, k) => ({ w with scheduler := .worker k }, .goOn (.serve :: rest))
      | none => (w, .goOn rest)
  | .sleep _ => (w, .goOn rest)
  | .await session _ =>
    ({ w with gate := w.gate.release session },
      .deliver (.flag (w.gate.isFinished session)) rest)
  | .workerEnd => (w, .deliver .nothing rest)

/-- A result reaches the frame that it belongs to. -/
def deliver (w : World) (result : Result) : List Frame → World × List Frame
  | .afterWait e next :: frames => (w, .program e (next (result matches .flag true)) :: frames)
  | .steps rest results :: frames => (w, .steps rest (results ++ [result]) :: frames)
  | .body task rest :: frames => (w.note (.result task result), .body task rest :: frames)
  | .underway request rest :: frames =>
    (w.noteStep request result, .underway request rest :: frames)
  | .advance target started :: frames => (w, .advance target (started + 1) :: frames)
  | frames => (w, frames)

/-- What a thread goes on with after a failure, if anything. An operation that was abandoned while
its request was on its way does not keep its engine. -/
def unwind (w : World) : List Frame → World × List Frame
  | .advance target started :: frames => (w, .advance target (started + 1) :: frames)
  | .serve :: frames => (w, .serve :: frames)
  | .reply e _ _ :: frames => unwind (w.release e) frames
  | _ :: frames => unwind w frames
  | [] => (w, [])

/-! ### How threads take turns -/

/-- A thread goes on first, unless it is blocked: then it goes on last. -/
def putBack (w : World) (t : Thread) : World :=
  if w.isBlocked t then { w with threads := w.threads ++ [t] }
  else { w with threads := t :: w.threads }

/-- Notes how a thread ended. -/
def settle (w : World) (role : Role) (result : Result) : World :=
  { w with ended := (role, result) :: w.ended }

/-- A thread starts another one that is to begin at once, and lets it and all others go on
first. -/
def startAtOnce (w : World) (other t : Thread) : World :=
  { w with threads := w.threads ++ [other, t] }

/-- A thread starts work aside. -/
def spawn (w : World) (work : Aside) (t : Thread) : World :=
  let role := .aside w.asides
  let w := { w with asides := w.asides + 1 }
  match work with
  | .steps delay steps =>
    let beginning := w.elapsed.saturatingAdd (.ofNanos (delay * 1000000))
    { w with threads := t :: w.threads ++ [⟨role, [.sleep beginning, .steps steps []]⟩] }
  | .shutdown =>
    match w.current, w.currentEngine? with
    | some e, some s =>
      w.startAtOnce ⟨role, [.program e (Engine.shutdown (w.setup s.settings))]⟩ t
    | _, _ => (w.settle role .nothing).putBack t
  | .advance span =>
    match w.scheduler.now? with
    | some now =>
      match now.add? span with
      | some target => w.startAtOnce ⟨role, [.advance target 0]⟩ t
      | none => (w.settle role (.failed .clockOverflow)).putBack t
    | none => (w.settle role .nothing).putBack t

/-- One move of a thread that was taken out of the world. -/
def turn (w : World) (t : Thread) : World :=
  match t.frames with
  | [] => w.settle t.role .nothing
  | frame :: rest =>
    match w.move frame rest with
    | (w, .goOn frames) => w.putBack { t with frames := frames }
    | (w, .deliver result []) => w.settle t.role result
    | (w, .deliver result frames) =>
      let (w, frames) := w.deliver result frames
      w.putBack { t with frames := frames }
    | (w, .failed fault frames) =>
      match w.unwind frames with
      | (w, []) => w.settle t.role (.failed fault)
      | (w, frames) => (w.report [.taskFailed]).putBack { t with frames := frames }
    | (w, .spawn work frames) =>
      let (w, frames) := w.deliver .nothing frames
      w.spawn work { t with frames := frames }

/-- The first thread that is not blocked, and the world without it. -/
def takeReady (w : World) : Option (Thread × World) :=
  match w.threads.span w.isBlocked with
  | (blocked, t :: others) => some (t, { w with threads := blocked ++ others })
  | (_, []) => none

/-- The first instant at which time alone lets a thread move again. -/
def firstWake? (w : World) : Option Duration :=
  (w.threads.filterMap w.wake?).foldl
    (fun (first : Option Duration) instant =>
      match first with
      | some f => if instant < f then some instant else some f
      | none => some instant) none

/-- Whether nothing can happen any more: all threads are blocked, and time alone changes that for
none. -/
def isStuck (w : World) : Bool := w.threads.all fun t => w.isBlocked t && (w.wake? t).isNone

/-- What happens next: a thread moves or, where all are blocked, time passes until one is not. -/
def tick (w : World) : World :=
  match w.takeReady with
  | some (t, w) => w.turn t
  | none =>
    match w.firstWake? with
    | some instant => w.passUntil instant
    | none => w

end World
end Lwm2mClient.Scenario
