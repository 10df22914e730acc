import Lwm2mClient.Proofs.Scenario.Openings
import Lwm2mClient.Proofs.Scenario.Tellings

/-!
What is told of an engine that is made and started where nothing else goes on. Its first request,
if there is one, is sent in the very move in which its work begins, on a timeline that is moved
and by a worker alike; if that move sends nothing, nothing is sent ever after.
-/
namespace Lwm2mClient

/-- A scheduler that would start what it is given at once. -/
def Scheduler.IsIdle {τ : Type} : Scheduler τ → Prop
  | .timeline t => t.queue = [] ∧ t.shutDown = false
  | .worker k => k.queue = [] ∧ k.commands = [] ∧ k.closed = false ∧ k.stopped = false ∧
      k.now ≤ Worker.horizon ∧
    ∀ number ∈ k.cancelled, number ≤ k.accepted

namespace Scenario

open Engine

/-- To whom a request goes, in which way, and what is asked. -/
def SentRequest.essence (x : SentRequest) : Net.SocketAddress × Bool × Request :=
  (x.peer, x.secure, x.request)

namespace World

variable {w w' : World} {o : Option (Net.SocketAddress × Bool × Request)}

/-- The threads that are there before any step is taken: the worker, if there is one. -/
def crew : Scheduler Task → List Thread
  | .timeline _ => []
  | .worker _ => [⟨.worker, [.serve]⟩]

/-- Between two steps of a scenario, a client on whose timeline nothing waits and
whose gate of sessions is new. -/
structure IsIdle (w : World) : Prop where
  plain : w.disturbance = {}
  gate : w.gate = {}
  free : w.busy = []
  sent : w.sent = #[]
  ended : w.ended = []
  scheduler : w.scheduler.IsIdle
  threads : w.threads = crew w.scheduler

/-- The first request is as given; if there is none, nothing is left to do either. -/
structure Opens (w : World) (o : Option (Net.SocketAddress × Bool × Request)) : Prop where
  first : w.first?.map SentRequest.essence = o
  vacant : o = none → w.IsVacant

theorem first?_eq_none_iff : w.first? = none ↔ w.sent = #[] := by
  rw [first?, Option.map_eq_none_iff, Array.getElem?_eq_none_iff, Nat.le_zero,
    Array.size_eq_zero_iff]

theorem Opens.sent_of_none (h : w.Opens none) : w.sent = #[] :=
  first?_eq_none_iff.mp (Option.map_eq_none_iff.mp h.first)

theorem Opens.runUntil (h : w.Opens o) (stop : World → Bool) (n : Nat) :
    (runUntil stop n w).Opens o := by
  cases o with
  | none =>
    obtain ⟨hvacant, hsent⟩ := runUntil_vacant (h.vacant rfl) stop n
    refine ⟨?_, fun _ => hvacant⟩
    rw [first?_eq_none_iff.mpr (hsent.trans h.sent_of_none)]
    rfl
  | some request =>
    refine ⟨?_, nofun⟩
    obtain ⟨x, hx, hessence⟩ := Option.map_eq_some_iff.mp h.first
    rw [runUntil_keepsFirst stop n w x hx]
    exact congrArg some hessence

theorem Opens.head? (h : w.Opens o) : w.sent.toList.head?.map SentRequest.essence = o := by
  rw [← h.first, first?, Option.map_map, List.head?_eq_getElem?, Array.getElem?_toList]
  rfl

/-! ### Making an engine -/

theorem consult_of_quiet (hquiet : w.level = none) (hplain : w.disturbance = {})
    (hosts : Net.Hosts) : w.consult (findServers hosts) = (w, .ok (w.view.servers? hosts)) := by
  have hfollowed : follow none (findServers hosts >>= Program.done) w = _ :=
    follow_findServers hquiet hplain hosts _
  rw [Program.bind_done] at hfollowed
  simp only [consult, hfollowed, follow]

/-- The world in which an engine was made. -/
def making (w : World) (settings : Settings) : World :=
  { w with current := some w.engines.size, engines := w.engines.push { settings := settings } }

theorem take_makeEngine {found : Servers} (hquiet : w.level = none) (hplain : w.disturbance = {})
    (hfound : w.view.servers? w.hosts = some found) (hone : found.management.length ≤ 1)
    (values : List Setting) :
    w.take (.makeEngine values) =
      (w.making (Settings.build values), .result (.made (.ok ()))) := by
  have haccepted : refusal (some found) = none := if_neg (Nat.not_lt.mpr hone)
  simp only [take, consult_of_quiet hquiet hplain, hfound, makeEngine, haccepted]
  rfl

theorem IsIdle.isSettled (h : w.IsIdle) : w.isSettled = true := by
  have hthreads := h.threads
  have hidle := h.scheduler
  cases hscheduler : w.scheduler with
  | timeline clock =>
    rw [hscheduler] at hthreads
    rw [World.isSettled, hthreads]
    rfl
  | worker k =>
    rw [hscheduler] at hthreads hidle
    obtain ⟨hqueue, hcommands, -, hstopped, -⟩ := hidle
    have hblocked : w.isBlocked ⟨.worker, [.serve]⟩ = true := by
      change w.scheduler.isBlocked = true
      simp only [hscheduler, Scheduler.isBlocked, Worker.isBlocked, Worker.move?, hstopped,
        hqueue, hcommands]
      rfl
    rw [World.isSettled, hthreads]
    simp only [crew, List.all_cons, List.all_nil, hblocked]
    rfl

theorem IsIdle.isJoined (h : w.IsIdle) : w.isJoined = true := by
  rw [World.isJoined, h.threads]
  cases w.scheduler <;> rfl

theorem tell_makeEngine {found : Servers} (h : w.IsIdle) (hquiet : w.level = none)
    (hfound : w.view.servers? w.hosts = some found) (hone : found.management.length ≤ 1)
    (values : List Setting) (n : Nat) :
    (w.tell (n + 2) (.makeEngine values)).1 = (w.making (Settings.build values)).clearNotes ∧
      (w.tell (n + 2) (.makeEngine values)).2.sent = [] := by
  have htake := take_makeEngine hquiet h.plain hfound hone values
  have hmade : (w.making (Settings.build values)).IsIdle := { h with }
  obtain ⟨hworld, hsent⟩ := tell_of_result h.isJoined htake rfl h.ended n
  rw [runUntil_of_stop hmade.isSettled] at hworld hsent
  exact ⟨hworld, hsent.trans (congrArg Array.toList h.sent)⟩

/-! ### Starting it -/

/-- A thread is about to begin the work of an engine that starts, and nothing else goes on. -/
structure Begins (w : World) (e : Nat) (s : EngineState) (t : Thread) : Prop where
  fresh : IsFresh w e s
  frames :
    ∃ rest, t.frames = .program e (Engine.work (w.setup s.settings) .start) :: rest ∧ rest ≠ [] ∧
    ∀ frame ∈ rest, frame.IsVacant
  threads : w.threads = []
  live : w.scheduler.live = []
  sent : w.sent = #[]

section

variable {e : Nat} {s : EngineState} {t : Thread} {found : Servers}

/-- A request that the work pauses at is the first. -/
theorem Begins.opens_of_asking (h : w.Begins e s t) {peer : Net.SocketAddress} {secure : Bool}
    {request : Request} {timeout : Option Duration} {next : Option Response → Program Bool}
    (hasked : follow (some e) (Engine.work (w.setup s.settings) .start) w =
      (w', .asking (.send peer secure request timeout) next)) :
    (w.turn t).Opens (some (peer, secure, request)) := by
  refine ⟨?_, nofun⟩
  obtain ⟨role, frames⟩ := t
  obtain ⟨rest, rfl, -, -⟩ := h.frames
  have hsent : w'.sent = #[] := by
    have hunchanged := follow_sent (some e) (Engine.work (w.setup s.settings) .start) w
    rw [hasked] at hunchanged
    exact hunchanged.trans h.sent
  have hnoted : (w'.noteRequest peer secure request timeout).1.first?.map SentRequest.essence =
      some (peer, secure, request) := by
    simp only [noteRequest, first?, hsent]
    rfl
  have hgoOn :
      ∃ scripts frames, w.move (.program e (Engine.work (w.setup s.settings) .start)) rest =
      ({ (w'.noteRequest peer secure request timeout).1 with scripts := scripts },
        .goOn frames) := by
    simp only [move, hasked, ask]
    split <;> exact ⟨_, _, rfl⟩
  obtain ⟨scripts, frames, hgoOn⟩ := hgoOn
  simp only [turn, hgoOn, first?, putBack_sent]
  exact hnoted

/-- Work that ends without a request leaves nothing to do. -/
theorem Begins.opens_of_finished (h : w.Begins e s t) {r : Registration}
    (hfinished : follow (some e) (Engine.work (w.setup s.settings) .start) w =
      (((IsFresh.held w e).holding e r).release e, .finished false)) : (w.turn t).Opens none := by
  obtain ⟨role, frames⟩ := t
  obtain ⟨rest, rfl, hrest, hvacant⟩ := h.frames
  obtain ⟨behind, others, rfl⟩ := List.exists_cons_of_ne_nil hrest
  let left := ((IsFresh.held w e).holding e r).release e
  have hleft : left.IsVacant := ⟨h.live, by rw [show left.threads = [] from h.threads]; nofun⟩
  obtain ⟨hsame, hdelivered⟩ := deliver_vacant (w := left) (r := .flag false) hvacant
  simp only [turn, move, hfinished]
  rw [show (((IsFresh.held w e).holding e r).release e).deliver (.flag false)
    (behind :: others) = (left, _) from
    Prod.ext hsame rfl]
  refine ⟨?_, fun _ => hleft.putBack hdelivered⟩
  rw [first?_eq_none_iff.mpr ((putBack_sent left _).trans h.sent)]
  rfl

/-- What an engine asks for first: a registration where the only management server is usable, else
a bootstrap where the bootstrap server has an address, else nothing. -/
theorem Begins.opens (h : w.Begins e s t) (hfound : w.view.servers? w.hosts = some found) :
    (∀ server, found.theManagement = .ok server → server.isUsable = true →
      ∃ address lifetime binding links, server.info.address = some address ∧
        (w.turn t).Opens (some (address, server.info.isSecure,
          .register s.settings.endpoint lifetime binding links))) ∧
    ((∀ server, found.theManagement = .ok server → server.isUsable = false) →
      (∀ server address, found.theBootstrap = some server → server.address = some address →
        (w.turn t).Opens (some (address, server.isSecure, .bootstrap s.settings.endpoint))) ∧
      ((∀ server, found.theBootstrap = some server → server.address = none) →
        (w.turn t).Opens none)) := by
  have hknown : w.view.servers? (w.setup s.settings).hosts = some found := hfound
  refine ⟨?_, fun hunusable => ⟨?_, ?_⟩⟩
  · intro server hserver husable
    obtain ⟨w', address, lifetime, binding, haddress, next, hasked⟩ :=
      h.fresh.start_of_usable hknown hserver husable
    exact ⟨address, lifetime, binding, _, haddress, h.opens_of_asking hasked⟩
  · intro server address hserver haddress
    obtain ⟨w', next, hasked⟩ :=
      h.fresh.start_of_address hunusable hknown hserver haddress
    exact h.opens_of_asking hasked
  · intro hnone
    obtain ⟨r, hfinished⟩ := h.fresh.start_of_none hunusable hknown hnone
    exact h.opens_of_finished hfinished

end

/-! ### The reports -/

theorem tellAll_cons (moves : Nat) (w : World) (step : Step) (rest : List Step) :
    (w.tellAll moves (step :: rest)).2 =
      (w.tell moves step).2 :: ((w.tell moves step).1.tellAll moves rest).2 := rfl

theorem tell_opens {step : Step} {moves : Nat}
    (h : (World.runUntil isJoined moves (w.beginStep step)).Opens o) :
    (w.tell moves step).2.sent.head?.map SentRequest.essence = o ∧
    (o = none → (w.tell moves step).1.IsVacant) := by
  have hjoined : ((World.runUntil isJoined moves (w.beginStep step)).happen .join).Opens o :=
    ⟨h.first, fun hnone =>
      ⟨(h.vacant hnone).live, fun t ht => (h.vacant hnone).frames t (List.mem_filter.mp ht).1⟩⟩
  have hsettled := hjoined.runUntil isSettled moves
  exact ⟨hsettled.head?, fun hnone =>
    ⟨(hsettled.vacant hnone).live, (hsettled.vacant hnone).frames⟩⟩

/-- The first request told is that of the first report, and if there is none, no report tells of
one. -/
theorem head?_of_reports {report : Report} {reports : List Report}
    (hfirst : report.sent.head?.map SentRequest.essence = o)
    (hrest : o = none → ∀ later ∈ reports, later.sent = []) :
    ((report :: reports).flatMap (·.sent)).head?.map SentRequest.essence = o := by
  rw [List.flatMap_cons]
  cases hsent : report.sent with
  | cons x others =>
    rw [hsent] at hfirst
    exact hfirst
  | nil =>
    rw [hsent] at hfirst
    obtain rfl : o = none := hfirst.symm
    rw [List.nil_append, List.flatMap_eq_nil_iff.mpr (hrest rfl)]
    rfl

section

variable {e : Nat} {s : EngineState}

/-- The world in which the engine was told to start. -/
def starting (w : World) (e : Nat) : World :=
  { w with scheduler := (w.scheduler.submit (.work e .start)).2 }

theorem take_start (hcurrent : w.current = some e) (hengine : w.engine? e = some s) :
    w.take .start = (w.starting e, .result .nothing) := by
  simp only [take, withEngine]
  split
  · rename_i e' s' hcurrent' _
    cases hcurrent'.symm.trans hcurrent
    rfl
  · rename_i hnone
    refine absurd ?_ (hnone e s hcurrent)
    simp only [currentEngine?, hcurrent, Option.bind_some, hengine]

theorem startTask_start (hcurrent : w.current = some e) (hengine : w.engine? e = some s) :
    w.startTask (.work e .start) =
      (w, [.program e (Engine.work (w.setup s.settings) .start)]) := by
  have halive : w.isAlive e = true := by simp only [isAlive, hcurrent, decide_true, Bool.true_or]
  simp only [startTask, halive, if_true, hengine]

theorem isSettled_led {t : Thread} (h : w.isBlocked t = false) : (w.led t).isSettled = false := by
  have hready : (w.led t).isBlocked t = false := h
  unfold isSettled
  rw [List.all_eq_false]
  exact ⟨t, List.mem_cons_self, by rw [hready]; exact Bool.false_ne_true⟩

theorem isBlocked_start {role : Role} {setup : Setup} {rest : List Frame} (hfree : w.busy = []) :
    w.isBlocked ⟨role, .program e (Engine.work setup .start) :: rest⟩ = false := by
  change decide (e ∈ w.busy) = false
  rw [hfree]
  rfl

theorem IsIdle.isFresh (h : w.IsIdle) (hquiet : w.level = none) (hengine : w.engine? e = some s)
    (hrenewal : s.registration.renewal = none) : IsFresh w e s :=
  ⟨hquiet, h.plain, congrArg Gate.session h.gate,
    by rw [h.free]; exact List.not_mem_nil, hengine, hrenewal⟩

/-- A move by which the work is taken up. -/
theorem turn_start {role : Role} {frame : Frame} {rest behind : List Frame}
    (hmove : w.move frame rest =
      (w', .goOn (.program e (Engine.work (w'.setup s.settings) .start) :: behind)))
    (hfree : w'.busy = []) :
    w.turn ⟨role, frame :: rest⟩ =
      w'.led ⟨role, .program e (Engine.work (w'.setup s.settings) .start) :: behind⟩ := by
  simp only [turn, hmove, putBack, isBlocked_start hfree]
  rfl

/-- A timeline takes the work up as soon as the clock is moved. -/
theorem begins_on_timeline (h : w.IsIdle) (hquiet : w.level = none)
    (hcurrent : w.current = some e) (hengine : w.engine? e = some s)
    (hrenewal : s.registration.renewal = none) {clock : Timeline Task}
    (hscheduler : w.scheduler = .timeline clock) {span : Duration}
    (hspan : (clock.now.add? span).isSome) (n : Nat) :
    ∃ (v : World) (t : Thread), v.Begins e s t ∧ v.view = w.view ∧ v.hosts = w.hosts ∧
      World.runUntil isJoined (n + 3) ((w.starting e).clearNotes.beginStep (.advance span)) =
        World.runUntil isJoined n (v.turn t) := by
  obtain ⟨target, htarget⟩ := Option.isSome_iff_exists.mp hspan
  have hidle := h.scheduler
  have hthreads := h.threads
  rw [hscheduler] at hidle hthreads
  obtain ⟨hqueue, hopen⟩ := hidle
  let entry : Timeline.Entry Task := ⟨clock.now, clock.accepted + 1, .work e .start⟩
  let waiting : Timeline Task :=
    { clock with accepted := clock.accepted + 1, queue := [entry], shutDown := false }
  let taken : Timeline Task := { waiting with now := clock.now.later clock.now, queue := [] }
  have hsubmitted : (w.scheduler.submit (.work e .start)).2 = .timeline waiting := by
    simp only [hscheduler, Scheduler.submit, Scheduler.schedule, Timeline.schedule, hopen, hqueue,
      Duration.saturatingAdd_zero]
    rfl
  have hdue : waiting.takeDue? target = some (entry, taken) :=
    if_pos (Duration.le_of_add? htarget)
  let begun : World := { w.clearNotes with scheduler := .timeline waiting }
  let v : World := { begun with scheduler := .timeline taken }
  let behind : List Frame := [.advance target 0, .steps [] []]
  have hbegun : (w.starting e).clearNotes = begun := by
    simp only [starting, hsubmitted]
    rfl
  have hadvance :
      begun.turn ⟨.main, [.steps [.advance span] []]⟩ = begun.led ⟨.main, behind⟩ := by
    have hnow : begun.scheduler.now? = some clock.now := rfl
    have hentered : begun.take (.advance span) = (begun, .enter (.advance target 0)) := by
      simp only [take, hnow, htarget]
    simp only [turn, move, takeStep, hentered]
    rfl
  have hstart : begun.turn ⟨.main, behind⟩ =
      v.led ⟨.main, .program e (Engine.work (v.setup s.settings) .start) :: behind⟩ := by
    have hstarted : v.startTask entry.task = _ := startTask_start hcurrent hengine
    refine turn_start ?_ h.free
    simp only [move, begun, hdue]
    rw [hstarted]
    rfl
  refine ⟨v, ⟨.main, .program e (Engine.work (v.setup s.settings) .start) :: behind⟩,
    ⟨?_, ?_, hthreads, rfl, rfl⟩, rfl, rfl, ?_⟩
  · exact { h.isFresh hquiet hengine hrenewal with }
  · exact ⟨behind, rfl, List.cons_ne_nil _ _,
      List.forall_mem_cons.mpr ⟨trivial, List.forall_mem_singleton.mpr (List.forall_mem_nil _)⟩⟩
  · have hready :
        v.isBlocked ⟨.main, .program e (Engine.work (v.setup s.settings) .start) :: behind⟩ =
          false :=
      isBlocked_start h.free
    rw [hbegun]
    calc World.runUntil isJoined (n + 3) (begun.beginStep (.advance span))
        = World.runUntil isJoined (n + 2) (begun.led ⟨.main, behind⟩) := by
          rw [← hadvance]
          exact runUntil_led rfl rfl _
      _ = World.runUntil isJoined (n + 1)
            (v.led ⟨.main, .program e (Engine.work (v.setup s.settings) .start) :: behind⟩) := by
          rw [← hstart]
          exact runUntil_led rfl rfl _
      _ = World.runUntil isJoined n _ := runUntil_led rfl hready n

/-- A worker takes it up by itself. -/
theorem begins_on_worker (h : w.IsIdle) (hquiet : w.level = none) (hcurrent : w.current = some e)
    (hengine : w.engine? e = some s) (hrenewal : s.registration.renewal = none) {k : Worker Task}
    (hscheduler : w.scheduler = .worker k) (n : Nat) :
    ∃ (v : World) (t : Thread), v.Begins e s t ∧ v.view = w.view ∧ v.hosts = w.hosts ∧
      World.runUntil isSettled (n + 3) (w.starting e) = World.runUntil isSettled n
        (v.turn t) := by
  have hidle := h.scheduler
  have hthreads := h.threads
  rw [hscheduler] at hidle hthreads
  obtain ⟨now, accepted, _, _, cancelled, _, _⟩ := k
  obtain ⟨rfl, rfl, rfl, rfl, hhorizon, hcancelled⟩ := hidle
  let entry : Timeline.Entry Task := ⟨now, accepted + 1, .work e .start⟩
  let accepting : Worker Task :=
    { now, accepted := accepted + 1, commands := [.schedule entry], cancelled }
  let received : Worker Task := { accepting with queue := [entry], commands := [] }
  let taken : Worker Task := { received with queue := [] }
  have hsubmitted : (w.scheduler.submit (.work e .start)).2 = .worker accepting := by
    have hnow : now.add? .zero = some now := dif_pos now.nanos_le
    simp only [hscheduler, Scheduler.submit, Scheduler.schedule, Worker.schedule, Worker.deadline,
      hnow, if_pos hhorizon]
    rfl
  have hreceive : accepting.move? = some (none, received) := rfl
  have htake : received.move? = some (some entry, taken) := by
    have hdue : entry.due ≤ received.now := Duration.le_refl _
    have hnew : entry.number ∉ received.cancelled :=
      fun hmem => Nat.not_succ_le_self _ (hcancelled _ hmem)
    simp only [Worker.move?, received, if_pos hdue, if_neg hnew]
    rfl
  let alone : World := { w with threads := [], scheduler := .worker accepting }
  let ready : World := { alone with scheduler := .worker received }
  let v : World := { alone with scheduler := .worker taken }
  have hbegun : w.starting e = alone.led ⟨.worker, [.serve]⟩ := by
    simp only [starting, hsubmitted, led, alone]
    rw [hthreads]
    rfl
  have hunblocked : ready.isBlocked ⟨.worker, [.serve]⟩ = false := by
    change received.isBlocked = false
    simp only [Worker.isBlocked, htake]
    rfl
  have hreceived : alone.turn ⟨.worker, [.serve]⟩ = ready.led ⟨.worker, [.serve]⟩ := by
    have hmove : alone.move .serve [] = (ready, .goOn [.serve]) := by
      simp only [move, alone, hreceive]
      rfl
    simp only [turn, hmove, putBack, hunblocked]
    rfl
  have hstart : ready.turn ⟨.worker, [.serve]⟩ =
      v.led ⟨.worker, .program e (Engine.work (v.setup s.settings) .start) :: [.serve]⟩ := by
    have hstarted : v.startTask entry.task = _ := startTask_start hcurrent hengine
    refine turn_start ?_ h.free
    simp only [move, ready, htake]
    rw [hstarted]
    rfl
  refine ⟨v, ⟨.worker, .program e (Engine.work (v.setup s.settings) .start) :: [.serve]⟩,
    ⟨?_, ?_, rfl, rfl, h.sent⟩, rfl, rfl, ?_⟩
  · exact { h.isFresh hquiet hengine hrenewal with }
  · exact ⟨_, rfl, List.cons_ne_nil _ _, List.forall_mem_singleton.mpr trivial⟩
  · have hready :
        v.isBlocked ⟨.worker, .program e (Engine.work (v.setup s.settings) .start) :: [.serve]⟩ =
          false :=
      isBlocked_start h.free
    rw [hbegun]
    calc World.runUntil isSettled (n + 3) (alone.led ⟨.worker, [.serve]⟩)
        = World.runUntil isSettled (n + 2) (ready.led ⟨.worker, [.serve]⟩) := by
          rw [← hreceived]
          exact runUntil_led rfl rfl _
      _ = World.runUntil isSettled (n + 1)
            (v.led ⟨.worker,
              .program e (Engine.work (v.setup s.settings) .start) :: [.serve]⟩) := by
          rw [← hstart]
          exact runUntil_led (isSettled_led hunblocked) hunblocked _
      _ = World.runUntil isSettled n _ := runUntil_led (isSettled_led hready) hready n

/-- What is told of an engine that is made and started is what comes of the move in which its work
begins. -/
theorem tellAll_start {found : Servers} (h : w.IsIdle) (hquiet : w.level = none)
    (hfound : w.view.servers? w.hosts = some found) (hone : found.management.length ≤ 1)
    (values : List Setting) {span : Duration}
    (hspan : ∀ now, w.scheduler.now? = some now → (now.add? span).isSome) (spans : List Duration)
    (n : Nat) :
    ∃ (v : World) (t : Thread), v.Begins w.engines.size ⟨Settings.build values, {}⟩ t ∧
      v.view = w.view ∧
      v.hosts = w.hosts ∧ ∀ o, (v.turn t).Opens o →
        ((w.tellAll (n + 3)
          (.makeEngine values :: .start :: .advance span :: spans.map .advance)).2.flatMap
          (·.sent)).head?.map SentRequest.essence = o := by
  let made : World := (w.making (Settings.build values)).clearNotes
  have hmade : made.IsIdle := { h with sent := rfl }
  have hengine : made.engine? w.engines.size = some ⟨Settings.build values, {}⟩ := by
    change (w.engines.push _)[w.engines.size]? = _
    rw [Array.getElem?_push_size]
  have htake : made.take .start = (made.starting w.engines.size, .result .nothing) :=
    take_start rfl hengine
  obtain ⟨hmaking, hsilent⟩ := tell_makeEngine h hquiet hfound hone values (n + 1)
  have hworld : (w.tell (n + 3) (.makeEngine values)).1 = made := hmaking
  obtain ⟨hworld', hsent'⟩ := tell_of_result hmade.isJoined htake rfl h.ended (n + 1)
  rw [tellAll_cons, List.flatMap_cons, hsilent, List.nil_append, hworld, tellAll_cons]
  cases hscheduler : w.scheduler with
  | timeline clock =>
    have hspan' : (clock.now.add? span).isSome := hspan clock.now (by rw [hscheduler]; rfl)
    obtain ⟨v, t, hbegins, hview, hhosts, hrun⟩ :=
      begins_on_timeline hmade hquiet rfl hengine rfl hscheduler hspan' n
    refine ⟨v, t, hbegins, hview, hhosts, fun o hopens => ?_⟩
    have hsettled : (made.starting w.engines.size).isSettled = true := by
      have hnobody : (made.starting w.engines.size).threads = [] :=
        h.threads.trans (by rw [hscheduler]; rfl)
      rw [World.isSettled, hnobody]
      rfl
    rw [runUntil_of_stop hsettled] at hworld' hsent'
    have hnothing : (made.tell (n + 3) .start).2.sent = [] := hsent'.trans rfl
    have hopened : (World.runUntil isJoined (n + 3)
        ((made.starting w.engines.size).clearNotes.beginStep (.advance span))).Opens o :=
      hrun ▸ hopens.runUntil isJoined n
    obtain ⟨hfirst, hvacant⟩ := tell_opens hopened
    rw [List.flatMap_cons, hnothing, List.nil_append, hworld', tellAll_cons]
    exact head?_of_reports hfirst fun hnone => tellAll_vacant (hvacant hnone) rfl (n + 3) spans
  | worker k =>
    obtain ⟨v, t, hbegins, hview, hhosts, hrun⟩ :=
      begins_on_worker hmade hquiet rfl hengine rfl hscheduler n
    refine ⟨v, t, hbegins, hview, hhosts, fun o hopens => ?_⟩
    have hopened := hopens.runUntil isSettled n
    rw [hrun] at hworld' hsent'
    have hfirst : (made.tell (n + 3) .start).2.sent.head?.map SentRequest.essence = o := by
      rw [hsent']
      exact hopened.head?
    have hrest : o = none → ∀ later ∈ ((made.tell (n + 3) .start).1.tellAll (n + 3)
        (.advance span :: spans.map .advance)).2, later.sent = [] := by
      intro hnone
      have hvacant : (made.tell (n + 3) .start).1.IsVacant := by
        rw [hworld']
        exact ⟨(hopened.vacant hnone).live, (hopened.vacant hnone).frames⟩
      exact tellAll_vacant hvacant (by rw [hworld']; rfl) (n + 3) (span :: spans)
    exact head?_of_reports hfirst hrest

end

end World
end Scenario
end Lwm2mClient
