import Lwm2mClient.Proofs.Scenario.Happenings
import Lwm2mClient.Proofs.Sessions.Visits

/-!
The log is only written. A world whose log shows nothing goes on exactly as any other world
does, in everything but its lines. So two worlds that differ in their lines alone stay like
that, whatever happens in both.
-/
namespace Lwm2mClient.Scenario

open Net

/-- A world whose log shows nothing. -/
def World.silent (w : World) : World := { w with level := none, lines := #[] }

/-- What comes of something, where the log shows nothing. -/
def hush {α : Type} (p : World × α) : World × α := (p.1.silent, p.2)

namespace World

variable (w : World)

@[simp] theorem hush_mk {α : Type} (a : α) : hush (w, a) = (w.silent, a) := rfl

section

@[simp] theorem silent_hosts : w.silent.hosts = w.hosts := rfl

@[simp] theorem silent_store : w.silent.store = w.store := rfl

@[simp] theorem silent_disturbance : w.silent.disturbance = w.disturbance := rfl

@[simp] theorem silent_gate : w.silent.gate = w.gate := rfl

@[simp] theorem silent_scheduler : w.silent.scheduler = w.scheduler := rfl

@[simp] theorem silent_current : w.silent.current = w.current := rfl

@[simp] theorem silent_currentEngine? : w.silent.currentEngine? = w.currentEngine? := rfl

@[simp] theorem silent_busy : w.silent.busy = w.busy := rfl

@[simp] theorem silent_scripts : w.silent.scripts = w.scripts := rfl

@[simp] theorem silent_told : w.silent.told = w.told := rfl

@[simp] theorem silent_handles : w.silent.handles = w.handles := rfl

@[simp] theorem silent_engine? (e : Nat) : w.silent.engine? e = w.engine? e := rfl

@[simp] theorem silent_isAlive (e : Nat) : w.silent.isAlive e = w.isAlive e := rfl

@[simp] theorem silent_isBlocked (t : Thread) : w.silent.isBlocked t = w.isBlocked t := rfl

end

@[simp] theorem report_silent (lines : List Log.Line) : (w.report lines).silent = w.silent := by
  unfold report
  split <;> rfl

@[simp] theorem silent_report (lines : List Log.Line) : w.silent.report lines = w.silent := rfl

theorem hush_report {α : Type} (lines : List Log.Line) (a : α) :
    hush (w.report lines, a) = (w.silent, a) := by
  rw [hush_mk, report_silent]

/-! ### The store -/

theorem readObject_silent (object : NumericId) :
    w.silent.readObject object = hush (w.readObject object) := by
  simp only [readObject, silent_disturbance, silent_store, silent_report, apply_ite hush, hush_mk,
    report_silent]
  rfl

theorem removeInstance_silent (sender : SocketAddress) (object i : NumericId) :
    w.silent.removeInstance sender object i = hush (w.removeInstance sender object i) := by
  simp only [removeInstance, silent_store, apply_ite hush, hush_mk, report_silent]
  rfl

theorem deleteInstance_silent (sender : SocketAddress) (object i : NumericId) :
    w.silent.deleteInstance sender object i = hush (w.deleteInstance sender object i) := by
  simp only [deleteInstance, silent_disturbance, removeInstance_silent, apply_ite hush, hush_mk]
  cases w.disturbance.deny <;> rfl

/-! ### Programs -/

theorem answer?_silent (engine : Option Nat) (c : Call) :
    w.silent.answer? engine c = (w.answer? engine c).map hush := by
  have hclient : ∀ reply : Option (Client.Reply Task c.Answer),
      reply.map (fun reply =>
        ((w.silent.withClient engine reply.client).report reply.lines,
          (.ok reply.answer : Except Fault c.Answer))) =
      (reply.map fun reply =>
        ((w.withClient engine reply.client).report reply.lines,
          (.ok reply.answer : Except Fault c.Answer))).map hush := by
    intro reply
    cases reply with
    | none => rfl
    | some reply =>
      change some _ = some (hush _)
      rw [hush_mk, report_silent]
      rfl
  cases c with
  | objectIds => rfl
  | readObject object => exact congrArg some (readObject_silent w object)
  | deleteInstance sender object i =>
    exact congrArg some (deleteInstance_silent w sender object i)
  | shutDownTimeline => rfl
  | _ => exact hclient ((w.client engine).answer? (fun work => .work (engine.getD 0) work) _)

theorem follow_silent {α : Type} (engine : Option Nat) (p : Program α) :
    follow engine p w.silent = hush (follow engine p w) := by
  induction p generalizing w with
  | done value => rfl
  | call c next ih =>
    by_cases hacquire : c = .acquire
    · subst hacquire
      cases engine with
      | none => exact ih () w
      | some e =>
        simp only [follow, silent_busy, apply_ite hush, hush_mk]
        congr 1
        exact ih () { w with busy := e :: w.busy }
    · by_cases hrelease : c = .release
      · subst hrelease
        cases engine with
        | none => exact ih () w
        | some e => exact ih () (w.release e)
      · rw [follow_call hacquire hrelease, follow_call hacquire hrelease, answer?_silent]
        rcases w.answer? engine c with _ | ⟨w', fault | answer⟩
        · rfl
        · rfl
        · exact ih answer w'

theorem consult_silent {α : Type} (p : Program α) : w.silent.consult p = hush (w.consult p) := by
  unfold consult
  rw [follow_silent]
  rcases follow none p w with ⟨w', value | fault | ⟨c, next⟩⟩ <;> rfl

/-! ### Steps -/

theorem receiveFinish_silent (sender : SocketAddress) :
    w.silent.receiveFinish sender = hush (w.receiveFinish sender) := by
  simp only [receiveFinish, silent_gate]
  exact (hush_report { w with gate := (w.gate.finish sender).gate } _ _).symm

theorem receiveDelete_silent (sender : SocketAddress) (path : String) :
    w.silent.receiveDelete sender path = hush (w.receiveDelete sender path) := by
  simp only [receiveDelete, silent_gate, consult_silent]
  cases w.gate.acceptsDelete sender path with
  | error rejection => rfl
  | ok accepted =>
    rcases w.consult (Purge.purge sender) with ⟨w', fault | value⟩ <;> rfl

theorem openSession_silent (peer : ServerInfo) :
    w.silent.openSession peer = hush (w.openSession peer) := by
  simp only [openSession, silent_gate]
  exact (hush_report { w with gate := (w.gate.tryOpen peer).gate } _ _).symm

theorem closeSession_silent : w.silent.closeSession = w.closeSession.silent := by
  simp only [closeSession, silent_gate]
  rw [report_silent]
  rfl

theorem startWait_silent (timeout : Duration) :
    w.silent.startWait timeout = hush (w.startWait timeout) := by
  simp only [startWait, silent_gate]
  rcases w.gate.claim with ⟨number | number, gate⟩ <;> rfl

theorem conclude_silent {α : Type} (f : α → Result) (p : World × Except Fault α) :
    conclude f (hush p) = hush (conclude f p) := by
  rcases p with ⟨w', fault | value⟩ <;> rfl

theorem enterOr_silent (value : Result) (p : World × Option Frame) :
    enterOr value (hush p) = hush (enterOr value p) := by
  rcases p with ⟨w', frame | frame⟩ <;> rfl

theorem withHandle_silent {f g : TaskHandle → World × Result}
    (h : ∀ handle, g handle = hush (f handle)) (name : String) :
    w.silent.withHandle name g = hush (w.withHandle name f) := by
  unfold withHandle
  rw [silent_handles]
  cases w.handles.lookup name with
  | none => rfl
  | some handle =>
    dsimp only
    rw [h handle]
    rfl

theorem withEngine_silent {f g : Nat → EngineState → World × Effect}
    (h : ∀ e s, g e s = hush (f e s)) : w.silent.withEngine g = hush (w.withEngine f) := by
  unfold withEngine
  rw [silent_current, silent_currentEngine?]
  split
  · exact h _ _
  · rfl

theorem makeEngine_silent (settings : Settings) (servers : Option Servers) :
    w.silent.makeEngine settings servers = hush (w.makeEngine settings servers) := by
  unfold makeEngine
  cases Engine.refusal servers <;> rfl

theorem take_silent (s : Step) : w.silent.take s = hush (w.take s) := by
  cases s with
  | delete sender object i =>
    simp only [take, deleteInstance_silent, conclude_silent]
  | read object => simp only [take, readObject_silent, conclude_silent]
  | dump =>
    simp only [take]
    exact (hush_report w _ _).symm
  | links => simp only [take, consult_silent, conclude_silent]
  | resource object i resource => simp only [take, readObject_silent, conclude_silent]
  | extract => simp only [take, silent_hosts, consult_silent, conclude_silent]
  | theManagement => simp only [take, silent_hosts, consult_silent, conclude_silent]
  | theBootstrap => simp only [take, silent_hosts, consult_silent, conclude_silent]
  | keyOf identity =>
    simp only [take, readObject_silent]
    rcases w.readObject ObjectId.security with ⟨w', fault | securities | securities⟩
    · rfl
    · exact (hush_report w' _ _).symm
    · rfl
  | identityFor peer =>
    simp only [take, readObject_silent]
    rcases w.readObject ObjectId.security with ⟨w', fault | securities | securities⟩
    · rfl
    · exact (hush_report w' _ _).symm
    · exact (hush_report w' _ _).symm
  | openWithKnown index =>
    simp only [take, silent_hosts, consult_silent]
    rcases w.consult (findServers w.hosts) with ⟨w', fault | servers⟩
    · rfl
    · dsimp only [hush_mk]
      cases servers.bind (·.bootstrap[index]?) with
      | none => rfl
      | some server =>
        dsimp only
        rw [openSession_silent]
        rfl
  | openWith peer =>
    simp only [take, openSession_silent]
    rfl
  | await timeout => simp only [take, startWait_silent, enterOr_silent]
  | finishAtGate sender =>
    simp only [take, receiveFinish_silent]
    rfl
  | purgeAtGate sender path => simp only [take, receiveDelete_silent, conclude_silent]
  | finish sender =>
    simp only [take, receiveFinish_silent]
    exact (hush_report _ _ _).symm
  | purge sender path =>
    simp only [take, receiveDelete_silent]
    rcases w.receiveDelete sender path with ⟨w', fault | verdict⟩
    · rfl
    · exact (hush_report w' _ _).symm
  | closeSession => simp only [take, closeSession_silent, hush_mk]
  | cancelTask name =>
    simp only [take]
    refine withHandle_silent w ?_ name
    intro handle
    rfl
  | isCancelled name =>
    simp only [take]
    refine withHandle_silent w ?_ name
    intro handle
    rfl
  | advance span =>
    simp only [take, silent_scheduler]
    cases w.scheduler.now? with
    | none => rfl
    | some now => cases hadd : now.add? span <;> simp only [hadd] <;> rfl
  | shutDownTimeline => exact enterOr_silent .nothing w.shutDownTimeline
  | makeEngine values =>
    simp only [take, silent_hosts, consult_silent]
    rcases w.consult (findServers w.hosts) with ⟨w', fault | servers⟩
    · rfl
    · have hmade := makeEngine_silent w' (Settings.build values) servers
      exact congrArg (fun p : World × Result => (p.1, Effect.result p.2)) hmade
  | start => exact withEngine_silent w fun e s => rfl
  | operate operation => exact withEngine_silent w fun e s => rfl
  | engineSessionActive => exact withEngine_silent w fun e s => rfl
  | _ => rfl

/-! ### Threads -/

theorem startTask_silent (task : Task) :
    w.silent.startTask task = hush (w.startTask task) := by
  cases task with
  | body name steps => rfl
  | work engine work =>
    simp only [startTask, silent_isAlive, silent_engine?, apply_ite hush]
    cases w.engine? engine <;> rfl

theorem ask_silent (e : Nat) (rest : List Frame) (c : Call) (next : c.Answer → Program Bool) :
    w.silent.ask e rest c next = hush (w.ask e rest c next) := by
  cases c with
  | send peer secure request timeout =>
    simp only [ask, noteRequest, silent_scripts]
    rcases takeItem (.of request) w.scripts
      with ⟨_ | ⟨answer, steps, fails, times⟩, scripts⟩ <;> rfl
  | awaitFinish timeout =>
    simp only [ask, startWait_silent]
    rcases w.startWait timeout with ⟨w', wait | wait⟩ <;> rfl
  | shutDownTimeline =>
    have hshut : w.silent.shutDownTimeline = hush w.shutDownTimeline := rfl
    simp only [ask, hshut]
    rcases w.shutDownTimeline with ⟨w', wait | wait⟩ <;> rfl
  | _ => rfl

theorem takeStep_silent (s : Step) (after : Frame) (rest : List Frame) :
    w.silent.takeStep s after rest = hush (w.takeStep s after rest) := by
  simp only [takeStep, take_silent]
  rcases w.take s with ⟨w', value | frame | work | fault⟩ <;> rfl

theorem move_silent (frame : Frame) (rest : List Frame) :
    w.silent.move frame rest = hush (w.move frame rest) := by
  cases frame with
  | program e p =>
    simp only [move, follow_silent]
    rcases follow (some e) p w with ⟨w', value | fault | ⟨c, next⟩⟩
    · rfl
    · rfl
    · exact ask_silent w' e rest c next
  | reply e outcome next => cases outcome <;> rfl
  | steps remaining results =>
    cases remaining with
    | nil => rfl
    | cons s ss => exact takeStep_silent w s _ rest
  | body task remaining =>
    cases remaining with
    | nil => rfl
    | cons s ss => exact takeStep_silent w s _ rest
  | underway request remaining =>
    cases remaining with
    | nil => rfl
    | cons s ss => exact takeStep_silent w s _ rest
  | advance target started =>
    simp only [move, silent_scheduler]
    cases w.scheduler with
    | worker k => rfl
    | timeline t =>
      dsimp only
      cases t.takeDue? target with
      | none => rfl
      | some due =>
        exact congrArg (fun p : World × List Frame =>
          (p.1, Next.goOn (p.2 ++ .advance target started :: rest)))
          (startTask_silent { w with scheduler := .timeline due.2 } due.1.task)
  | serve =>
    simp only [move, silent_scheduler]
    cases w.scheduler with
    | timeline t => rfl
    | worker k =>
      dsimp only
      rcases k.move? with _ | ⟨_ | entry, k'⟩
      · rfl
      · rfl
      · exact congrArg (fun p : World × List Frame => (p.1, Next.goOn (p.2 ++ .serve :: rest)))
          (startTask_silent { w with scheduler := .worker k' } entry.task)
  | _ => rfl

theorem noteStep_silent (request : Nat) (result : Result) :
    w.silent.noteStep request result = (w.noteStep request result).silent := by
  simp only [noteStep, silent_told, apply_ite silent]
  rfl

theorem deliver_silent (result : Result) (frames : List Frame) :
    w.silent.deliver result frames = hush (w.deliver result frames) := by
  cases frames with
  | nil => rfl
  | cons frame rest =>
    cases frame with
    | underway request remaining =>
      exact congrArg (·, Frame.underway request remaining :: rest)
        (noteStep_silent w request result)
    | _ => rfl

theorem unwind_silent (frames : List Frame) :
    w.silent.unwind frames = hush (w.unwind frames) := by
  induction frames generalizing w with
  | nil => rfl
  | cons frame rest ih =>
    cases frame with
    | advance target started => rfl
    | serve => rfl
    | reply e outcome next => exact ih (w.release e)
    | _ => exact ih w

theorem putBack_silent (t : Thread) : w.silent.putBack t = (w.putBack t).silent := by
  simp only [putBack, silent_isBlocked, apply_ite silent]
  rfl

theorem settle_putBack_silent (role : Role) (result : Result) (t : Thread) :
    (w.silent.settle role result).putBack t = ((w.settle role result).putBack t).silent :=
  putBack_silent (w.settle role result) t

theorem spawn_silent (work : Aside) (t : Thread) :
    w.silent.spawn work t = (w.spawn work t).silent := by
  have hended := settle_putBack_silent { w with asides := w.asides + 1 } (.aside w.asides)
  cases work with
  | steps delay steps => rfl
  | shutdown =>
    -- Both worlds have the same engine, which is not looked up in the same term.
    simp only [spawn]
    split
    · rename_i e s hcurrent hengine
      split
      · rename_i e' s' hcurrent' hengine'
        obtain rfl := Option.some.inj (hcurrent.symm.trans hcurrent')
        obtain rfl := Option.some.inj (hengine.symm.trans hengine')
        rfl
      · rename_i hnone
        exact absurd hengine (hnone e s hcurrent)
    · rename_i hnone
      split
      · rename_i e s hcurrent hengine
        exact absurd hengine (hnone e s hcurrent)
      · exact hended .nothing t
  | advance span =>
    simp only [spawn, silent_scheduler]
    cases w.scheduler.now? with
    | none => exact hended .nothing t
    | some now =>
      dsimp only
      cases now.add? span with
      | none => exact hended (.failed .clockOverflow) t
      | some target => rfl

theorem turn_silent (t : Thread) : w.silent.turn t = (w.turn t).silent := by
  obtain ⟨role, frames⟩ := t
  cases frames with
  | nil => rfl
  | cons frame rest =>
    simp only [turn, move_silent]
    rcases w.move frame rest
      with ⟨w', frames | ⟨result, frames⟩ | ⟨fault, frames⟩ | ⟨work, frames⟩⟩
    · exact putBack_silent w' _
    · cases frames with
      | nil => rfl
      | cons behind others =>
        dsimp only [hush_mk]
        rw [deliver_silent]
        exact putBack_silent _ _
    · dsimp only [hush_mk]
      rw [unwind_silent]
      rcases w'.unwind frames with ⟨w'', _ | ⟨behind, others⟩⟩
      · rfl
      · dsimp only [hush_mk]
        rw [← putBack_silent, report_silent]
        rfl
    · dsimp only [hush_mk]
      rw [deliver_silent]
      exact spawn_silent _ work _

theorem takeReady_silent : w.silent.takeReady = w.takeReady.map fun p => (p.1, p.2.silent) := by
  have hspan : w.silent.threads.span w.silent.isBlocked = w.threads.span w.isBlocked := rfl
  unfold takeReady
  rw [hspan]
  rcases w.threads.span w.isBlocked with ⟨blocked, _ | ⟨t, others⟩⟩ <;> rfl

theorem tick_silent : w.silent.tick = w.tick.silent := by
  unfold tick
  rw [takeReady_silent]
  cases w.takeReady with
  | some ready => exact turn_silent ready.2 ready.1
  | none =>
    have hwake : w.silent.firstWake? = w.firstWake? := rfl
    simp only [Option.map_none, hwake]
    cases w.firstWake? <;> rfl

/-- Whatever happens, lines are all that a log adds. -/
theorem happen_silent (h : Happening) : w.silent.happen h = (w.happen h).silent := by
  cases h with
  | tick => exact tick_silent w
  | _ => rfl

end World
end Lwm2mClient.Scenario
