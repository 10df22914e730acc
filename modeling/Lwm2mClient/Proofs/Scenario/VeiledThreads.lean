import Lwm2mClient.Proofs.Scenario.Looks
import Lwm2mClient.Proofs.Scenario.Remainders

/-!
Threads under the veil. A thread whose operations are blind to keys moves under the veil as it
moves without; what it brings about differs in nothing but keys that were asked for. So does what
happens to a world as a whole.
-/
namespace Lwm2mClient.Scenario

open Net

/-- What a move of a thread comes to, without keys. -/
def Next.veil : Next → Next
  | .goOn frames => .goOn (frames.map Frame.veil)
  | .deliver result frames => .deliver result.veil (frames.map Frame.veil)
  | .failed fault frames => .failed fault (frames.map Frame.veil)
  | .spawn work frames => .spawn work.veil (frames.map Frame.veil)

/-- What a move of a thread comes to, without the keys in a result. -/
def Next.censor : Next → Next
  | .deliver result frames => .deliver result.veil frames
  | next => next

/-- A move of which no key in a result is seen. -/
def censored (p : World × Next) : World × Next := (p.1, p.2.censor)

def Happening.veil : Happening → Happening
  | .begin step => .begin step.veil
  | h => h

theorem isBlind_lasts : Lasts Program.IsBlind where
  next _ _ h := h.2
  operation := Engine.operation_isBlind
  work := Engine.work_isBlind

@[simp] theorem Frame.veil_engine? (f : Frame) : f.veil.engine? = f.engine? := by
  cases f <;> rfl

mutual

/-- Nothing more is hidden of a result than is hidden at once. -/
theorem Result.veil_veil (r : Result) : r.veil.veil = r.veil := by
  cases r with
  | list values => exact congrArg Result.list (veilResults_veilResults values)
  | object value => cases value <;> simp [Result.veil]
  | objects values => simp [Result.veil]
  | resource boolean integer string bytes => cases bytes <;> rfl
  | bytes value => cases value <;> rfl
  | _ => rfl

theorem veilResults_veilResults (results : List Result) :
    veilResults (veilResults results) = veilResults results := by
  cases results with
  | nil => rfl
  | cons r rs => rw [veilResults, veilResults, Result.veil_veil r, veilResults_veilResults rs]

end

theorem Next.censor_veil (next : Next) : next.veil.censor = next.veil := by
  cases next with
  | deliver result frames => exact congrArg (Next.deliver · _) result.veil_veil
  | _ => rfl

theorem Result.veil_isFlag (r : Result) :
    (r.veil matches .flag true) = (r matches .flag true) := by
  cases r <;> rfl

namespace World

variable (w : World)

/-! ### What blocks a thread -/

theorem blocks_veil (role : Role) (f : Frame) : w.veil.blocks role f.veil = w.blocks role f := by
  cases f with
  | serve => exact w.scheduler.isBlocked_map Task.veil
  | workerEnd =>
    exact congrArg (fun serving => decide (role ≠ .worker) && serving)
      (w.scheduler.isServing_map Task.veil)
  | program e p =>
    rcases p with value | ⟨c, next⟩
    · rfl
    · cases c <;> rfl
  | _ => rfl

@[simp] theorem isBlocked_veil (t : Thread) : w.veil.isBlocked t.veil = w.isBlocked t := by
  obtain ⟨role, _ | ⟨frame, rest⟩⟩ := t
  · rfl
  · exact blocks_veil w role frame

@[simp] theorem wake?_veil (t : Thread) : w.veil.wake? t.veil = w.wake? t := by
  obtain ⟨role, _ | ⟨frame, rest⟩⟩ := t
  · rfl
  · cases frame with
    | serve => exact w.scheduler.nextDue?_map Task.veil
    | _ => rfl

@[simp] theorem isAlive_veil (e : Nat) : w.veil.isAlive e = w.isAlive e := by
  have hthread : ∀ t : Thread, (t.veil.frames.any fun f => f.engine? = some e) =
      t.frames.any fun f => f.engine? = some e := by
    intro t
    simp only [Thread.veil, List.any_map, Function.comp_def, Frame.veil_engine?]
  simp only [isAlive, veil_current, veil_busy]
  change (_ || (w.threads.map Thread.veil).any _) = _
  simp only [List.any_map, Function.comp_def, hthread]
  rfl

/-! ### Moves -/

theorem takeItem_veil (kind : RequestKind) (scripts : List (RequestKind × List Item)) :
    takeItem kind (veilScripts scripts) =
      ((takeItem kind scripts).1.map Item.veil, veilScripts (takeItem kind scripts).2) := by
  induction scripts with
  | nil => rfl
  | cons script rest ih =>
    obtain ⟨k, items⟩ := script
    change takeItem kind ((k, veilItems items) :: veilScripts rest) = _
    by_cases hkind : k = kind
    · rcases items with _ | ⟨⟨answer, steps, fails, times⟩, more⟩
      · simp only [takeItem, hkind, if_true]
        rfl
      · simp only [takeItem, hkind, if_true, veilItems, Item.veil]
        by_cases hlast : times ≤ 1
        · simp only [hlast, if_true]
          rfl
        · simp only [hlast, if_false]
          rfl
    · simp only [takeItem, hkind, if_false, ih]
      rfl

theorem startTask_veil (task : Task) :
    w.veil.startTask task.veil =
      ((w.startTask task).1.veil, (w.startTask task).2.map Frame.veil) := by
  cases task with
  | body name steps =>
    have hnow : w.veil.scheduler.now? = w.scheduler.now? := w.scheduler.now?_map Task.veil
    simp only [Task.veil, startTask, note, hnow]
    simp only [veil, Array.map_push]
    rfl
  | work e job =>
    simp only [Task.veil, startTask, isAlive_veil, veil_engine?]
    split
    · cases w.engine? e <;> rfl
    · rfl

theorem noteRequest_veil (peer : SocketAddress) (secure : Bool) (request : Request)
    (timeout : Option Duration) :
    w.veil.noteRequest peer secure request timeout =
      veiled (w.noteRequest peer secure request timeout) := by
  simp only [noteRequest, veiled, veil, Array.map_push, Array.size_map]
  rfl

theorem ask_veil (e : Nat) (rest : List Frame) (c : Call) (next : c.Answer → Program Bool) :
    w.veil.ask e (rest.map Frame.veil) c next =
      ((w.ask e rest c next).1.veil, (w.ask e rest c next).2.veil) := by
  cases c with
  | send peer secure request timeout =>
    simp only [ask, noteRequest_veil, veiled, veil_scripts, takeItem_veil]
    have hscripts : (w.noteRequest peer secure request timeout).1.scripts = w.scripts := rfl
    rw [hscripts]
    rcases takeItem (.of request) w.scripts
      with ⟨_ | ⟨answer, steps, fails, times⟩, scripts⟩ <;> rfl
  | awaitFinish timeout =>
    have hframe : ∀ frame, (w.startWait timeout).2 = some frame → frame.veil = frame :=
      fun _ => startWait_frame w
    simp only [ask, startWait_veil]
    generalize w.startWait timeout = started at hframe ⊢
    rcases started with ⟨w', _ | wait⟩
    · rfl
    · simp only [veiled, Next.veil, List.map_cons, hframe wait rfl]
      rfl
  | shutDownTimeline =>
    have hframe : ∀ frame, w.shutDownTimeline.2 = some frame → frame.veil = frame :=
      fun _ => shutDownTimeline_frame w
    simp only [ask, shutDownTimeline_veil]
    generalize w.shutDownTimeline = shut at hframe ⊢
    rcases shut with ⟨w', _ | wait⟩
    · rfl
    · simp only [veiled, Next.veil, List.map_cons, hframe wait rfl]
      rfl
  | _ => rfl

theorem takeStep_veil (s : Step) (after : Frame) (rest : List Frame) :
    censored (w.veil.takeStep s.veil after.veil (rest.map Frame.veil)) =
      ((w.takeStep s after rest).1.veil, (w.takeStep s after rest).2.veil) := by
  obtain ⟨hworld, heffect⟩ := Prod.mk.inj (take_censored w s)
  simp only [takeStep]
  generalize w.veil.take s.veil = taken at hworld heffect ⊢
  generalize w.take s = taken' at hworld heffect ⊢
  obtain ⟨w₁, effect⟩ := taken
  obtain ⟨w₂, effect'⟩ := taken'
  obtain rfl := hworld
  cases effect' with
  | result value' =>
    cases effect with
    | result value =>
      have hvalue : value.veil = value'.veil := Effect.result.inj heffect
      exact congrArg
        (fun r => (w₂.veil, Next.deliver r (after.veil :: rest.map Frame.veil))) hvalue
    | _ => cases heffect
  | enter frame' =>
    cases effect with
    | enter frame =>
      cases heffect
      rfl
    | _ => cases heffect
  | spawn work' =>
    cases effect with
    | spawn work =>
      cases heffect
      rfl
    | _ => cases heffect
  | failed fault' =>
    cases effect with
    | failed fault =>
      cases heffect
      rfl
    | _ => cases heffect

/-- A frame whose operation is blind to keys moves under the veil as it moves without. -/
theorem move_veil {frame : Frame} (hframe : frame.Leaves Program.IsBlind) (rest : List Frame) :
    censored (w.veil.move frame.veil (rest.map Frame.veil)) =
      ((w.move frame rest).1.veil, (w.move frame rest).2.veil) := by
  have hstarts : ∀ (w' : World) (task : Task) (again : Frame),
      ((w'.veil.startTask task.veil).1,
        Next.goOn ((w'.veil.startTask task.veil).2 ++ again.veil :: rest.map Frame.veil)) =
      ((w'.startTask task).1.veil,
        (Next.goOn ((w'.startTask task).2 ++ again :: rest)).veil) := by
    intro w' task again
    rw [startTask_veil]
    simp only [Next.veil, List.map_append, List.map_cons]
  cases frame with
  | program e p =>
    simp only [Frame.veil, move, follow_veil w (some e) hframe]
    rcases follow (some e) p w with ⟨w', value | fault | ⟨c, next⟩⟩
    · rfl
    · rfl
    · dsimp only [veiled]
      rw [ask_veil, censored, Next.censor_veil]
  | reply e outcome next => cases outcome <;> rfl
  | steps remaining results =>
    cases remaining with
    | nil =>
      exact congrArg (fun rs => (w.veil, Next.deliver (.list rs) _))
        (veilResults_veilResults results)
    | cons s ss => exact takeStep_veil w s (.steps ss results) rest
  | body task remaining =>
    cases remaining with
    | nil => rfl
    | cons s ss => exact takeStep_veil w s (.body task ss) rest
  | underway request remaining =>
    cases remaining with
    | nil => rfl
    | cons s ss => exact takeStep_veil w s (.underway request ss) rest
  | advance target started =>
    simp only [Frame.veil, move, veil_scheduler]
    cases w.scheduler with
    | worker k => rfl
    | timeline t =>
      simp only [Scheduler.map, Timeline.takeDue?_map]
      cases t.takeDue? target with
      | none => rfl
      | some due =>
        exact hstarts { w with scheduler := .timeline due.2 } due.1.task (.advance target started)
  | serve =>
    simp only [Frame.veil, move, veil_scheduler]
    cases w.scheduler with
    | timeline t => rfl
    | worker k =>
      simp only [Scheduler.map, Worker.move?_map]
      rcases k.move? with _ | ⟨_ | entry, k'⟩
      · rfl
      · rfl
      · exact hstarts { w with scheduler := .worker k' } entry.task .serve
  | _ => rfl

/-! ### Turns -/

theorem noteStep_veil (request : Nat) (result : Result) :
    w.veil.noteStep request result.veil = (w.noteStep request result).veil := by
  have hmodify : ∀ (sent : Array SentRequest) (i : Nat),
      (sent.map SentRequest.veil).modify i
        (fun x => { x with steps := x.steps ++ [result.veil] }) =
        (sent.modify i fun x => { x with steps := x.steps ++ [result] }).map
          SentRequest.veil := by
    intro sent i
    refine Array.ext_getElem? fun j => ?_
    simp only [Array.getElem?_modify, Array.getElem?_map]
    split
    · cases sent[j]? with
      | none => rfl
      | some x => simp [SentRequest.veil]
    · rfl
  have hsame : (request < w.veil.told) = (request < w.told) := rfl
  unfold noteStep
  by_cases htold : request < w.told
  · rw [if_pos htold, if_pos (hsame.mpr htold)]
  · rw [if_neg htold, if_neg (hsame ▸ htold)]
    exact congrArg (fun sent => { w.veil with sent := sent }) (hmodify w.sent _)

theorem deliver_veil (result : Result) (frames : List Frame) :
    w.veil.deliver result.veil (frames.map Frame.veil) =
      ((w.deliver result frames).1.veil, (w.deliver result frames).2.map Frame.veil) := by
  cases frames with
  | nil => rfl
  | cons frame rest =>
    cases frame with
    | afterWait e next =>
      exact congrArg (fun b => (w.veil, Frame.program e (next b) :: rest.map Frame.veil))
        result.veil_isFlag
    | steps remaining results =>
      simp only [List.map_cons, Frame.veil, deliver, veilResults_eq_map,
        List.map_append, List.map_nil]
    | body task remaining =>
      have hnote :
          w.veil.note (.result task result.veil) = (w.note (.result task result)).veil := by
        simp only [note, veil, Array.map_push]
        rfl
      exact congrArg (·, Frame.body task (veilSteps remaining) :: rest.map Frame.veil) hnote
    | underway request remaining =>
      exact congrArg (·, Frame.underway request (veilSteps remaining) :: rest.map Frame.veil)
        (noteStep_veil w request result)
    | _ => rfl

theorem unwind_veil (frames : List Frame) :
    w.veil.unwind (frames.map Frame.veil) =
      ((w.unwind frames).1.veil, (w.unwind frames).2.map Frame.veil) := by
  induction frames generalizing w with
  | nil => rfl
  | cons frame rest ih =>
    cases frame with
    | advance target started => rfl
    | serve => rfl
    | reply e outcome next => exact ih (w.release e)
    | _ => exact ih w

theorem putBack_veil (t : Thread) : w.veil.putBack t.veil = (w.putBack t).veil := by
  simp only [putBack, isBlocked_veil]
  split
  · simp only [veil, List.map_append]
    rfl
  · rfl

theorem settle_veil (role : Role) (result : Result) :
    w.veil.settle role result.veil = (w.settle role result).veil := rfl

theorem startAtOnce_veil (other t : Thread) :
    w.veil.startAtOnce other.veil t.veil = (w.startAtOnce other t).veil := by
  simp only [startAtOnce, veil, List.map_append]
  rfl

theorem spawn_veil (work : Aside) (t : Thread) :
    w.veil.spawn work.veil t.veil = (w.spawn work t).veil := by
  have hended : ∀ (w' : World) role result,
      (w'.veil.settle role (Result.veil result)).putBack t.veil =
        ((w'.settle role result).putBack t).veil :=
    fun w' role result => putBack_veil (w'.settle role result) t
  let left : World := { w with asides := w.asides + 1 }
  cases work with
  | steps delay steps =>
    simp only [Aside.veil, spawn, veil, List.map_append, List.map_cons]
    rfl
  | shutdown =>
    -- Both worlds have the same engine, which is not looked up in the same term.
    simp only [Aside.veil, spawn]
    split
    · rename_i e s hcurrent hengine
      split
      · rename_i e' s' hcurrent' hengine'
        obtain rfl := Option.some.inj (hcurrent.symm.trans hcurrent')
        obtain rfl := Option.some.inj (hengine.symm.trans hengine')
        exact startAtOnce_veil left
          ⟨.aside w.asides, [.program e (Engine.shutdown (w.setup s.settings))]⟩ t
      · rename_i hnone
        exact absurd hengine (hnone e s hcurrent)
    · rename_i hnone
      split
      · rename_i e s hcurrent hengine
        exact absurd hengine (hnone e s hcurrent)
      · exact hended left (.aside w.asides) .nothing
  | advance span =>
    simp only [Aside.veil, spawn, veil_scheduler, Scheduler.now?_map]
    cases w.scheduler.now? with
    | none => exact hended left (.aside w.asides) .nothing
    | some now =>
      dsimp only
      cases now.add? span with
      | none => exact hended left (.aside w.asides) (.failed .clockOverflow)
      | some target => exact startAtOnce_veil left ⟨.aside w.asides, [.advance target 0]⟩ t

/-- What a thread does after a move. -/
def proceed (role : Role) : World × Next → World
  | (w, .goOn frames) => w.putBack ⟨role, frames⟩
  | (w, .deliver result []) => w.settle role result
  | (w, .deliver result frames) =>
    let (w, frames) := w.deliver result frames
    w.putBack ⟨role, frames⟩
  | (w, .failed fault frames) =>
    match w.unwind frames with
    | (w, []) => w.settle role (.failed fault)
    | (w, frames) => (w.report [.taskFailed]).putBack ⟨role, frames⟩
  | (w, .spawn work frames) =>
    let (w, frames) := w.deliver .nothing frames
    w.spawn work ⟨role, frames⟩

theorem proceed_veil (role : Role) (next : Next) :
    (proceed role (w, next)).veil = proceed role (w.veil, next.veil) := by
  cases next with
  | goOn frames => exact (putBack_veil w ⟨role, frames⟩).symm
  | deliver result frames =>
    cases frames with
    | nil => exact (settle_veil w role result).symm
    | cons behind others =>
      have hdelivered := deliver_veil w result (behind :: others)
      simp only [List.map_cons] at hdelivered
      simp only [proceed, Next.veil, List.map_cons, hdelivered]
      exact (putBack_veil _ ⟨role, _⟩).symm
  | failed fault frames =>
    simp only [proceed, Next.veil, unwind_veil]
    rcases w.unwind frames with ⟨w', _ | ⟨behind, others⟩⟩
    · rfl
    · simp only [List.map_cons, report_veil]
      exact (putBack_veil (w'.report [.taskFailed]) ⟨role, behind :: others⟩).symm
  | spawn work frames =>
    have hdelivered := deliver_veil w .nothing frames
    simp only [proceed, Next.veil]
    change _ = ((w.veil.deliver (Result.veil .nothing) (frames.map Frame.veil)).1.spawn work.veil
      ⟨role, (w.veil.deliver (Result.veil .nothing) (frames.map Frame.veil)).2⟩)
    rw [hdelivered]
    exact (spawn_veil _ work ⟨role, _⟩).symm

/-- A move of a thread of which no key in a result is seen. -/
def censoredTurn (w : World) (t : Thread) : World :=
  match t.frames with
  | [] => w.settle t.role .nothing
  | frame :: rest => proceed t.role (censored (w.move frame rest))

/-- What a thread brings about is, under the veil, what it brings about under the veil. -/
theorem turn_veil {t : Thread} (h : ∀ frame ∈ t.frames, frame.Leaves Program.IsBlind) :
    (w.turn t).veil = w.veil.censoredTurn t.veil := by
  obtain ⟨role, _ | ⟨frame, rest⟩⟩ := t
  · rfl
  · have hmoved := move_veil w (h frame List.mem_cons_self) rest
    change (proceed role (w.move frame rest)).veil =
      proceed role (censored (w.veil.move frame.veil (rest.map Frame.veil)))
    rw [hmoved]
    exact proceed_veil (w.move frame rest).1 role (w.move frame rest).2

/-! ### Happenings -/

theorem takeReady_veil :
    w.veil.takeReady = w.takeReady.map fun ready => (ready.1.veil, ready.2.veil) := by
  have hspan : w.veil.threads.span w.veil.isBlocked =
      ((w.threads.span w.isBlocked).1.map Thread.veil,
        (w.threads.span w.isBlocked).2.map Thread.veil) := by
    change (w.threads.map Thread.veil).span w.veil.isBlocked = _
    simp only [List.span_eq_takeWhile_dropWhile, List.takeWhile_map, List.dropWhile_map,
      Function.comp_def, isBlocked_veil]
  unfold takeReady
  rw [hspan]
  rcases w.threads.span w.isBlocked with ⟨blocked, _ | ⟨t, others⟩⟩
  · rfl
  · simp only [List.map_cons, Option.map_some, veil, List.map_append]

theorem firstWake?_veil : w.veil.firstWake? = w.firstWake? := by
  unfold firstWake?
  change ((w.threads.map Thread.veil).filterMap w.veil.wake?).foldl _ none = _
  rw [List.filterMap_map]
  congr 2
  funext t
  exact wake?_veil w t

theorem passUntil_veil (instant : Duration) :
    w.veil.passUntil instant = (w.passUntil instant).veil := by
  simp only [passUntil, veil_scheduler, Scheduler.passUntil_map]
  rfl

theorem happen_veil {happening : Happening} (h : happening ≠ .tick) :
    (w.happen happening).veil = w.veil.happen happening.veil := by
  cases happening with
  | begin step => rfl
  | tick => exact absurd rfl h
  | join =>
    simp only [Happening.veil, happen, veil, List.filter_map]
    rfl
  | told => simp only [Happening.veil, happen, clearNotes, veil, Array.size_map, Array.map_empty]

variable {w}

/-- In two worlds that differ in nothing but keys, what happens next makes no other difference. -/
theorem tick_alike {w' : World} (h : w.veil = w'.veil) (hw : w.Leaves Program.IsBlind)
    (hw' : w'.Leaves Program.IsBlind) : w.tick.veil = w'.tick.veil := by
  have hready : (w.takeReady.map fun ready => (ready.1.veil, ready.2.veil)) =
      w'.takeReady.map fun ready => (ready.1.veil, ready.2.veil) := by
    rw [← takeReady_veil, ← takeReady_veil, h]
  have hwake : w.firstWake? = w'.firstWake? := by
    rw [← firstWake?_veil w, ← firstWake?_veil w', h]
  unfold tick
  cases hone : w.takeReady with
  | none =>
    rw [hone] at hready
    rw [Option.map_eq_none_iff.mp hready.symm]
    dsimp only
    rw [hwake]
    cases w'.firstWake? with
    | none => exact h
    | some instant =>
      dsimp only
      rw [← passUntil_veil, ← passUntil_veil, h]
  | some ready =>
    rw [hone] at hready
    obtain ⟨ready', hother, hsame⟩ := Option.map_eq_some_iff.mp hready.symm
    rw [hother]
    obtain ⟨hthread, hworld⟩ := Prod.mk.inj hsame
    have hblind := (hw.ready hone).2
    have hblind' := (hw'.ready hother).2
    dsimp only
    rw [turn_veil _ hblind, turn_veil _ hblind', hthread, hworld]

theorem happen_alike {w' : World} {happening happening' : Happening} (h : w.veil = w'.veil)
    (hhappening : happening.veil = happening'.veil) (hw : w.Leaves Program.IsBlind)
    (hw' : w'.Leaves Program.IsBlind) :
    (w.happen happening).veil = (w'.happen happening').veil := by
  by_cases htick : happening = .tick
  · subst htick
    obtain rfl : happening' = .tick := by cases happening' <;> first | rfl | cases hhappening
    exact tick_alike h hw hw'
  · have htick' : happening' ≠ .tick := by
      rintro rfl
      cases happening <;> first | exact htick rfl | cases hhappening
    rw [happen_veil w htick, happen_veil w' htick', h, hhappening]

/-- Two worlds that differ in nothing but keys still do so after the same happenings. -/
theorem after_alike {w' : World} {happenings happenings' : List Happening} (h : w.veil = w'.veil)
    (hhappenings : happenings.map Happening.veil = happenings'.map Happening.veil)
    (hw : w.Leaves Program.IsBlind) (hw' : w'.Leaves Program.IsBlind) :
    (w.after happenings).veil = (w'.after happenings').veil := by
  induction happenings generalizing w w' happenings' with
  | nil =>
    obtain rfl := List.map_eq_nil_iff.mp hhappenings.symm
    exact h
  | cons first rest ih =>
    obtain ⟨first', rest', rfl, hfirst, hrest⟩ := List.map_eq_cons_iff.mp hhappenings.symm
    rw [after_cons, after_cons]
    exact ih (happen_alike h hfirst.symm hw hw') hrest.symm (hw.happen isBlind_lasts first)
      (hw'.happen isBlind_lasts first')

end World
end Lwm2mClient.Scenario
