import Lwm2mClient.Proofs.Scenario.Following
import Lwm2mClient.Proofs.Scenario.Remainders
import Lwm2mClient.Proofs.Scenario.Seated

/-!
Worlds that look like an engine in service: the client is the same, and the frames of operations
stand for the threads of the service. What a step does in such a world, the service is brought to
by inputs: the gate of sessions is changed from outside, tasks are handed over and cancelled, the
engine is started, and an operation is asked for.
-/
namespace Lwm2mClient.Scenario

open Net Engine
open Scheduler (Grows)
open Service (Becomes Job)

/-- What is left to do first of what comes of a step. -/
def Effect.frames : Effect → List Frame
  | enter frame => [frame]
  | _ => []

/-- Whether a step leaves the engine, the timeline and the current engine alone. -/
def Step.spares : Step → Bool
  | schedule .. | cancelTask _ | shutDownTimeline | makeEngine _ | dropEngine | start
  | operate _ => false
  | _ => true

namespace World

variable {setup : Setup} {w w' w'' : World} {s s' : Service} {frame : Frame}
  {frames frames' rest : List Frame}

/-- What some threads have to do. -/
def framesOf (threads : List Thread) : Multiset Frame := (threads.flatMap (·.frames) : List Frame)

/-- A service that a world looks like, where some frames have been taken out of it. -/
structure Mirrors (setup : Setup) (frames : List Frame) (w : World) (s : Service) : Prop where
  home : w.IsHome setup
  client : s.client = w.served
  busy : 0 ∈ w.busy ↔ s.current ≠ none
  seated : Seated setup (w.IsMade setup) (frames + framesOf w.threads) s.seats
  numbered : s.client.scheduler.IsNumbered
  /-- Nothing is done for an engine that was not made. -/
  ours : ∀ e ∈ s.client.scheduler.entries, e.task = .other ∨ w.IsMade setup
  handles : ∀ entry ∈ w.handles, ∀ number, entry.2 = .accepted number →
    s.client.scheduler.IsOf (· = .other) number

namespace Mirrors

theorem go (h : Mirrors setup frames w s)
    (hgrows : Grows (fun task => task = .other ∨ w.IsMade setup) s.client.scheduler
      s'.client.scheduler)
    (hstays : w.Stays w') (hclient : s'.client = w'.served)
    (hbusy : 0 ∈ w'.busy ↔ s'.current ≠ none)
    (hseated : Seated setup (w.IsMade setup) (frames' + framesOf w.threads) s'.seats) :
    Mirrors setup frames' w' s' := by
  have hmade : w.IsMade setup → w'.IsMade setup := hstays.isMade
  refine ⟨?_, hclient, hbusy, ?_, h.numbered.grows hgrows, ?_, ?_⟩
  · exact h.home.imp hmade hstays.post.trans
  · rw [hstays.threads]
    exact hseated.imp hmade
  · intro e he
    rcases hgrows.entries e he with hold | ⟨hnew, -⟩
    · exact (h.ours e hold).imp_right hmade
    · exact hnew.imp_right hmade
  · rw [hstays.handles]
    exact fun entry hentry number hnumber => (h.handles entry hentry number hnumber).grows hgrows

/-- The service has done something for a frame that has moved. -/
theorem of_fits {moved : World × Next} (h : Mirrors setup frames w s) (hmade : w.IsMade setup)
    (hbecomes : Becomes setup s s') (hfits : Fits setup w moved (framesOf w.threads) s') :
    Mirrors setup moved.2.frames moved.1 s' :=
  h.go (hbecomes.grows.mono fun _ _ => Or.inr hmade) hfits.stays hfits.client hfits.busy
    (hfits.seated.imp fun _ => hmade)

theorem refit (h : Mirrors setup frames w s)
    (hseated : Seated setup (w.IsMade setup) (frames' + framesOf w.threads) s.seats) :
    Mirrors setup frames' w s :=
  { h with seated := hseated }

/-- A frame has come to its end. -/
theorem tail (h : Mirrors setup (frame :: rest) w s) : Mirrors setup rest w s :=
  h.refit (coe_cons_add frame rest _ ▸ h.seated).tail

theorem add (h : Mirrors setup frames w s) (happart : frame.engine? = none) :
    Mirrors setup (frame :: frames) w s :=
  h.refit (coe_cons_add frame frames _ ▸ h.seated.cons_none (.apart happart))

/-- Another frame apart from operations comes into the place of the first one. -/
theorem replace (h : Mirrors setup (frame :: rest) w s) {frame' : Frame}
    (happart : frame'.engine? = none) : Mirrors setup (frame' :: rest) w s :=
  h.tail.add happart

theorem of_bare (h : Mirrors setup frames w s) (hbare : w'.bare = w.bare) :
    Mirrors setup frames w' s :=
  h.go (.refl _) (.of_bare hbare) (h.client.trans (served_of_bare hbare).symm)
    (busy_of_bare hbare ▸ h.busy) h.seated

theorem engine_eq (h : Mirrors setup (frame :: rest) w s) :
    frame.engine? = none ∨ frame.engine? = some 0 ∧ w.IsMade setup := by
  rcases (coe_cons_add frame rest _ ▸ h.seated).uncons with ⟨hsits, -⟩ | ⟨_, _, hsits, -, -⟩
  · cases hsits with
    | apart happart => exact Or.inl happart
    | asked hmade => exact Or.inr ⟨rfl, hmade⟩
  · cases hsits <;> exact Or.inr ⟨rfl, by assumption⟩

end Mirrors

/-! ### What others do to the gate of sessions -/

/-- Of what an engine goes by, only the gate of sessions has changed. -/
def Spares (w w' : World) : Prop := w'.bare = { w.bare with gate := w'.gate }

theorem Spares.of_bare (h : w'.bare = w.bare) : w.Spares w' := by
  have hgate : w'.gate = w.gate := congrArg (·.gate) h
  rw [Spares, hgate]
  exact h

theorem Spares.refl (w : World) : w.Spares w := rfl

theorem Spares.trans (h : w.Spares w') (h' : w'.Spares w'') : w.Spares w'' :=
  Eq.trans h' (congrArg (fun x : World => { x with gate := w''.gate }) h)

theorem Spares.report (h : w.Spares w') (lines : List Log.Line) : w.Spares (w'.report lines) :=
  h.trans (.of_bare (report_bare w' lines))

theorem Mirrors.spares (h : Mirrors setup frames w s) (hspares : w.Spares w') :
    ∃ s', Becomes setup s s' ∧ Mirrors setup frames w' s' := by
  let opened : World := { w with gate := w'.gate }
  have hopened : w'.bare = opened.bare := hspares
  have hmirrors : Mirrors setup frames opened
      { s with client := { s.client with gate := w'.gate } } :=
    h.go (.refl _) ⟨rfl, rfl, rfl⟩ (by rw [h.client]; rfl) h.busy h.seated
  exact ⟨_, .of_step (.gate w'.gate) rfl, hmirrors.of_bare hopened⟩

theorem consult_bare {α : Type} {p : Program α} {post : α → Prop}
    (hp : p.Asks Call.isOnStore post) (w : World) : (w.consult p).1.bare = w.bare := by
  induction p generalizing w with
  | done value => rfl
  | call c next ih =>
    obtain ⟨hc, hnext⟩ := hp
    have hanswer : ∃ w' reply, w.answer? none c = some (w', reply) ∧ w'.bare = w.bare := by
      cases c with
      | log line => exact ⟨_, _, rfl, report_bare w [line]⟩
      | objectIds => exact ⟨_, _, rfl, rfl⟩
      | readObject object => exact ⟨_, _, rfl, readObject_bare w object⟩
      | deleteInstance sender object i => exact ⟨_, _, rfl, deleteInstance_bare w sender object i⟩
      | _ => exact absurd hc id
    obtain ⟨w', reply, hanswer, hbare⟩ := hanswer
    unfold consult
    rw [follow_of_answer hc hanswer]
    cases reply with
    | ok a => exact (ih a (hnext a) w').trans hbare
    | error fault => exact hbare

theorem consult_reading_bare {α : Type} {p : Program α} {post : α → Prop}
    (hp : p.Asks Call.isReading post) (w : World) : (w.consult p).1.bare = w.bare :=
  consult_bare (hp.mono (fun _ => isOnStore_of_isReading) fun _ => id) w

theorem receiveFinish_spares (w : World) (sender : SocketAddress) :
    w.Spares (w.receiveFinish sender).1 := by
  have hgate : w.Spares { w with gate := (w.gate.finish sender).gate } := rfl
  exact hgate.report _

theorem receiveDelete_spares (w : World) (sender : SocketAddress) (path : String) :
    w.Spares (w.receiveDelete sender path).1 := by
  unfold receiveDelete
  split
  · exact .refl w
  · have hpurged := Spares.of_bare (consult_bare (Purge.purge_asks sender) w)
    generalize w.consult (Purge.purge sender) = purged at hpurged ⊢
    rcases purged with ⟨w', fault | value⟩
    · have hbroken : w'.Spares { w' with gate := w'.gate.breakDown } := rfl
      exact hpurged.trans hbroken
    · exact hpurged

theorem openSession_spares (w : World) (peer : ServerInfo) : w.Spares (w.openSession peer).1 := by
  have hgate : w.Spares { w with gate := (w.gate.tryOpen peer).gate } := rfl
  exact hgate.report _

theorem closeSession_spares (w : World) : w.Spares w.closeSession := by
  have hgate : w.Spares { w with gate := w.gate.close.gate } := rfl
  exact hgate.report _

theorem startWait_spares (w : World) (timeout : Duration) :
    w.Spares (w.startWait timeout).1 := by
  unfold startWait
  split <;> exact rfl

/-! ### Steps that spare the engine -/

/-- A step has spared the engine, and it goes into no operation. -/
structure Spared (w : World) (taken : World × Effect) : Prop where
  world : w.Spares taken.1
  enters : ∀ frame, taken.2 = .enter frame → frame.engine? = none

theorem Spared.result (h : w.Spares w') (value : Result) : w.Spared (w', .result value) :=
  ⟨h, nofun⟩

theorem Spared.failed (h : w.Spares w') (fault : Fault) : w.Spared (w', .failed fault) :=
  ⟨h, nofun⟩

theorem Spared.spawn (h : w.Spares w') (work : Aside) : w.Spared (w', .spawn work) :=
  ⟨h, nofun⟩

theorem Spared.conclude {α : Type} {p : World × Except Fault α} (h : w.Spares p.1)
    (f : α → Result) : w.Spared (conclude f p) := by
  rcases p with ⟨w', fault | value⟩
  · exact .failed h fault
  · exact .result h (f value)

theorem take_spared {step : Step} (hstep : step.spares = true) (w : World) :
    w.Spared (w.take step) := by
  have hread : ∀ object, w.Spares (w.readObject object).1 :=
    fun object => .of_bare (readObject_bare w object)
  have hfound : w.Spares (w.consult (findServers w.hosts)).1 :=
    .of_bare (consult_reading_bare (findServers_reads w.hosts) w)
  cases step with
  | schedule | cancelTask | shutDownTimeline | makeEngine | dropEngine | start | operate =>
    cases hstep
  | delete sender object i => exact .conclude (.of_bare (deleteInstance_bare w sender object i)) _
  | read object => exact .conclude (hread object) _
  | resource object i resource => exact .conclude (hread object) _
  | dump => exact .result ((Spares.refl w).report _) _
  | links => exact .conclude (.of_bare (consult_reading_bare describeObjects_reads w)) _
  | extract | theManagement | theBootstrap => exact .conclude hfound _
  | keyOf identity =>
    have hsecurity := hread ObjectId.security
    simp only [take]
    generalize w.readObject ObjectId.security = read at hsecurity ⊢
    rcases read with ⟨w', fault | _ | securities⟩
    · exact .failed hsecurity _
    · exact .result (hsecurity.report _) _
    · exact .result hsecurity _
  | identityFor peer =>
    have hsecurity := hread ObjectId.security
    simp only [take]
    generalize w.readObject ObjectId.security = read at hsecurity ⊢
    rcases read with ⟨w', fault | _ | securities⟩
    · exact .failed hsecurity _
    · exact .result (hsecurity.report _) _
    · exact .result (hsecurity.report _) _
  | openWithKnown index =>
    simp only [take]
    generalize w.consult (findServers w.hosts) = found at hfound ⊢
    rcases found with ⟨w', fault | servers⟩
    · exact .failed hfound _
    · dsimp only
      split
      · exact .result (hfound.trans (openSession_spares w' _)) _
      · exact .result hfound _
  | openWith peer => exact .result (openSession_spares w peer) _
  | await timeout =>
    refine ⟨?_, fun frame hframe => ?_⟩
    · have hstarted := startWait_spares w timeout
      change w.Spares (enterOr _ (w.startWait timeout)).1
      generalize w.startWait timeout = started at hstarted ⊢
      rcases started with ⟨w', _ | wait⟩ <;> exact hstarted
    · have hentered : (w.startWait timeout).2 = some frame := enterOr_enter hframe
      unfold startWait at hentered
      split at hentered <;> cases hentered
      rfl
  | finishAtGate sender => exact .result (receiveFinish_spares w sender) _
  | finish sender => exact .result ((receiveFinish_spares w sender).report _) _
  | purgeAtGate sender path => exact .conclude (receiveDelete_spares w sender path) _
  | purge sender path =>
    have hreceived := receiveDelete_spares w sender path
    simp only [take]
    generalize w.receiveDelete sender path = received at hreceived ⊢
    rcases received with ⟨w', fault | verdict⟩
    · exact .failed hreceived _
    · exact .result (hreceived.report _) _
  | closeSession => exact .result (closeSession_spares w) _
  | isCancelled name =>
    simp only [take, withHandle]
    split <;> exact .result (.refl w) _
  | advance span =>
    simp only [take]
    split
    · split
      · refine ⟨.refl w, ?_⟩
        rintro _ ⟨⟩
        rfl
      · exact .failed (.refl w) _
    · exact .result (.refl w) _
  | fail => exact .failed (.refl w) _
  | engineSessionActive =>
    simp only [take, withEngine]
    split <;> exact .result (.refl w) _
  | aside work => exact .spawn (.refl w) work
  | asideInSession work =>
    refine ⟨.refl w, fun frame hframe => ?_⟩
    simp only [take] at hframe
    split at hframe <;> cases hframe
  | _ =>
    refine ⟨rfl, ?_⟩
    rintro _ ⟨⟩

/-! ### Steps -/

namespace Mirrors

theorem scheduler_eq (h : Mirrors setup frames w s) :
    s.client.scheduler = w.scheduler.map Task.served :=
  congrArg (·.scheduler) h.client

/-- Both timelines have changed in the same way. -/
theorem withScheduler (h : Mirrors setup frames w s) (scheduler : Scheduler Task)
    (hgrows : Grows (fun task => task = .other ∨ w.IsMade setup) s.client.scheduler
      (scheduler.map Task.served)) :
    Mirrors setup frames { w with scheduler }
      (s.withScheduler (scheduler.map Task.served)) := by
  have hclient : { s.client with scheduler := scheduler.map Task.served } =
      World.served { w with scheduler } := by
    rw [h.client]
    rfl
  exact h.go hgrows ⟨rfl, rfl, rfl⟩ hclient h.busy h.seated

theorem withHandles (h : Mirrors setup frames w s) {handles : List (String × TaskHandle)}
    (hhandles : ∀ entry ∈ handles, ∀ number, entry.2 = .accepted number →
      s.client.scheduler.IsOf (· = .other) number) :
    Mirrors setup frames { w with handles } s :=
  ⟨h.home, h.client, h.busy, h.seated, h.numbered, h.ours, hhandles⟩

theorem scheduleTask (h : Mirrors setup frames w s) (name : String) (delay : Duration)
    (body : List Step) :
    ∃ s', Becomes setup s s' ∧ Mirrors setup frames (w.scheduleTask name delay body).1 s' := by
  have hmap := w.scheduler.schedule_map Task.served delay (.body name body)
  let planned := w.scheduler.schedule delay (.body name body)
  have hservice : s.client.scheduler.schedule delay .other =
      (planned.1, planned.2.map Task.served) := by
    rw [h.scheduler_eq]
    exact hmap
  have hscheduler : planned.2.map Task.served = (s.client.scheduler.schedule delay .other).2 := by
    rw [hservice]
  have hgrows : ∀ kind : Service.Task → Prop, kind .other →
      Grows kind s.client.scheduler (planned.2.map Task.served) := by
    intro kind hkind
    rw [hscheduler]
    exact Scheduler.grows_schedule _ delay hkind
  refine ⟨s.withScheduler (planned.2.map Task.served), .of_step (.schedule delay) ?_, ?_⟩
  · simp only [Service.step, hservice]
  · refine (h.withScheduler _ (hgrows _ (Or.inl rfl))).withHandles ?_
    intro entry hentry number hnumber
    rcases List.mem_cons.mp hentry with rfl | hold
    · have hgiven : (s.client.scheduler.schedule delay .other).1 = .accepted number := by
        rw [hservice]
        exact hnumber
      have hof : (s.client.scheduler.schedule delay .other).2.IsOf (· = .other) number :=
        Scheduler.isOf_schedule h.numbered rfl hgiven
      exact hscheduler ▸ hof
    · exact (h.handles entry (List.mem_filter.mp hold).1 number hnumber).grows
        (hgrows (fun _ => True) trivial)

theorem cancelTask (h : Mirrors setup frames w s) (name : String) {handle : TaskHandle}
    (hhandle : w.handles.lookup name = some handle) :
    ∃ s', Becomes setup s s' ∧
      Mirrors setup frames { w with scheduler := w.scheduler.cancel handle } s' := by
  obtain ⟨before, rest, hhandles, -⟩ := List.lookup_eq_some_iff.mp hhandle
  have hmem : (name, handle) ∈ w.handles := by
    rw [hhandles]
    exact List.mem_append_right before List.mem_cons_self
  have hcancelled : (w.scheduler.cancel handle).map Task.served =
      s.client.scheduler.cancel handle := by
    rw [h.scheduler_eq, Scheduler.cancel_map]
  have hmirrors := h.withScheduler _ (hcancelled ▸ Scheduler.grows_cancel _ handle)
  cases handle with
  | refused =>
    rw [Scheduler.cancel_refused]
    exact ⟨s, .refl s, h⟩
  | accepted number =>
    refine ⟨_, .of_step (.cancel number) ?_, hmirrors⟩
    have hother := (h.handles _ hmem number rfl).kind
    have hall : (s.client.scheduler.entries.all fun e =>
        decide (e.number ≠ number) || decide (e.task = .other)) = true := by
      rw [List.all_eq_true]
      intro e he
      by_cases hnumber : e.number = number
      · simp [hother e he hnumber]
      · simp [hnumber]
    simp only [Service.step]
    rw [if_pos hall, hcancelled]

theorem shutDownTimeline (h : Mirrors setup frames w s) :
    ∃ s', Becomes setup s s' ∧
      Mirrors setup frames { w with scheduler := w.scheduler.shutdown } s' := by
  have hshut : w.scheduler.shutdown.map Task.served = s.client.scheduler.shutdown := by
    rw [h.scheduler_eq, Scheduler.shutdown_map]
  refine ⟨_, .of_step .shutDownTimeline ?_,
    h.withScheduler _ (hshut ▸ Scheduler.grows_shutdown _)⟩
  rw [hshut]
  rfl

theorem start (h : Mirrors setup frames w s) (hmade : w.IsMade setup) :
    ∃ s', Becomes setup s s' ∧
      Mirrors setup frames { w with scheduler := (w.scheduler.submit (.work 0 .start)).2 }
        s' := by
  have hmap := w.scheduler.schedule_map Task.served .zero (.work 0 .start)
  have hsubmitted : (w.scheduler.submit (.work 0 .start)).2.map Task.served =
      (s.client.scheduler.submit (.work .start)).2 := by
    rw [h.scheduler_eq]
    exact (congrArg Prod.snd hmap).symm
  have hgrows : Grows (fun task => task = .other ∨ w.IsMade setup) s.client.scheduler
      (s.client.scheduler.submit (.work .start)).2 :=
    Scheduler.grows_schedule _ .zero (Or.inr hmade)
  refine ⟨_, .of_step .start ?_, h.withScheduler _ (hsubmitted ▸ hgrows)⟩
  rw [hsubmitted]
  rfl

theorem spared {taken : World × Effect} (h : Mirrors setup frames w s)
    (hspared : w.Spared taken) :
    ∃ s', Becomes setup s s' ∧ Mirrors setup (taken.2.frames ++ frames) taken.1 s' := by
  obtain ⟨s', hbecomes, hmirrors⟩ := h.spares hspared.world
  refine ⟨s', hbecomes, ?_⟩
  obtain ⟨w', effect⟩ := taken
  cases effect with
  | enter frame => exact hmirrors.add (hspared.enters frame rfl)
  | _ => exact hmirrors

/-- The engine is made. Nothing was done for it before. -/
theorem make (h : Mirrors setup frames w s) {settings : Settings}
    (hhome : IsHome setup
      { w with current := some w.engines.size, engines := w.engines.push { settings } }) :
    Mirrors setup frames
      { w with current := some w.engines.size, engines := w.engines.push { settings } } s := by
  let grown : World :=
    { w with current := some w.engines.size, engines := w.engines.push { settings } }
  change Mirrors setup frames grown s
  obtain ⟨hfirst, hmade⟩ := IsHome.isMade hhome (rfl : grown.current = some w.engines.size)
  have hempty : w.engines = #[] := Array.eq_empty_of_size_eq_zero hfirst
  have hserved : grown.served = w.served := by
    have hbefore : w.engine? 0 = none := by
      rw [engine?, hempty]
      rfl
    have hafter : grown.engine? 0 = some { settings } := by
      change (w.engines.push { settings })[0]? = _
      rw [hempty]
      rfl
    have hclient : grown.client (some 0) = w.client (some 0) := by
      rw [World.client, World.client, Option.bind_some, Option.bind_some, hbefore, hafter]
      rfl
    rw [served, served, hclient]
  exact ⟨hhome, h.client.trans hserved.symm, h.busy, h.seated.imp fun _ => hmade, h.numbered,
    fun e he => Or.inr hmade, h.handles⟩

theorem makeEngine (h : Mirrors setup frames w s) {settings : Settings}
    {servers : Option Servers} (hhome : (w.makeEngine settings servers).1.IsHome setup) :
    Mirrors setup frames (w.makeEngine settings servers).1 s := by
  unfold World.makeEngine at hhome ⊢
  cases hrefusal : Engine.refusal servers with
  | some e => exact h
  | none =>
    rw [hrefusal] at hhome
    exact h.make hhome

/-- An engine that is dropped is nobody's home any more. -/
theorem dropEngine (h : Mirrors setup frames w s)
    (hhome : IsHome setup { w with current := none }) :
    Mirrors setup frames { w with current := none } s := by
  have hnone : w.current = none := by
    rcases h.home with hmade | hnone
    · rcases hhome with hdropped | hdropped
      · cases IsMade.current_eq hdropped
      · have hempty : w.engines.map (·.settings) = #[] := congrArg (fun post => post.2.2) hdropped
        cases hmade.settings_eq.symm.trans hempty
    · exact congrArg (fun post => post.2.1) hnone
  have hsame : { w with current := none } = w := by
    rw [← hnone]
  rw [hsame]
  exact h

/-- An operation is asked for. -/
theorem operate (h : Mirrors setup frames w s) (hmade : w.IsMade setup) {engine : EngineState}
    (hengine : w.engine? 0 = some engine) (operation : Operation) :
    Mirrors setup (.program 0 (operation.program (w.setup engine.settings)) :: frames) w s := by
  obtain ⟨registration, hsettings⟩ := hmade.engine
  cases hengine.symm.trans hsettings
  rw [h.home.setup_eq]
  exact h.refit (coe_cons_add _ frames _ ▸ h.seated.cons_none (.asked hmade operation))

theorem take (h : Mirrors setup frames w s) (step : Step)
    (hhome : (w.take step).1.IsHome setup) :
    ∃ s', Becomes setup s s' ∧
      Mirrors setup ((w.take step).2.frames ++ frames) (w.take step).1 s' := by
  have hcurrent : ∀ e engine, w.current = some e → w.currentEngine? = some engine →
      e = 0 ∧ w.IsMade setup ∧ w.engine? 0 = some engine := by
    intro e engine hcurrent hengine
    obtain ⟨rfl, hmade⟩ := h.home.isMade hcurrent
    rw [currentEngine?, hcurrent] at hengine
    exact ⟨rfl, hmade, hengine⟩
  cases step with
  | schedule name delay body => exact h.scheduleTask name delay body
  | cancelTask name =>
    simp only [World.take, withHandle]
    cases hhandle : w.handles.lookup name with
    | none => exact ⟨s, .refl s, h⟩
    | some handle => exact h.cancelTask name hhandle
  | shutDownTimeline =>
    obtain ⟨s', hbecomes, hmirrors⟩ := h.shutDownTimeline
    refine ⟨s', hbecomes, ?_⟩
    simp only [World.take, World.shutDownTimeline]
    split
    · exact hmirrors.add rfl
    · exact hmirrors
  | makeEngine values =>
    have hbare := consult_reading_bare (findServers_reads w.hosts) w
    simp only [World.take] at hhome ⊢
    generalize w.consult (findServers w.hosts) = found at hbare hhome ⊢
    rcases found with ⟨w', fault | servers⟩
    · exact ⟨s, .refl s, h.of_bare hbare⟩
    · exact ⟨s, .refl s, (h.of_bare hbare).makeEngine hhome⟩
  | dropEngine => exact ⟨s, .refl s, h.dropEngine hhome⟩
  | start =>
    simp only [World.take, withEngine]
    split
    · rename_i e engine he hengine
      obtain ⟨rfl, hmade, -⟩ := hcurrent e engine he hengine
      exact h.start hmade
    · exact ⟨s, .refl s, h⟩
  | operate operation =>
    simp only [World.take, withEngine]
    split
    · rename_i e engine he hengine
      obtain ⟨rfl, hmade, hfirst⟩ := hcurrent e engine he hengine
      exact ⟨s, .refl s, h.operate hmade hfirst operation⟩
    · exact ⟨s, .refl s, h⟩
  | _ => exact h.spared (take_spared rfl w)

theorem takeStep {after : Frame} (h : Mirrors setup (after :: rest) w s) (step : Step)
    (hhome : (w.takeStep step after rest).1.IsHome setup) :
    ∃ s', Becomes setup s s' ∧
      Mirrors setup (w.takeStep step after rest).2.frames (w.takeStep step after rest).1 s' := by
  have htaken := h.take step
  simp only [World.takeStep] at hhome ⊢
  generalize w.take step = taken at htaken hhome ⊢
  rcases taken with ⟨w', value | frame | work | fault⟩
  · exact htaken hhome
  · exact htaken hhome
  · exact htaken hhome
  · obtain ⟨s', hbecomes, hmirrors⟩ := htaken hhome
    exact ⟨s', hbecomes, hmirrors.tail⟩

end Mirrors
end World
end Lwm2mClient.Scenario
