import Lwm2mClient.Proofs.Scenario.Requests

/-!
What is still to be done of the operations of engines, in a world in which anything may happen. A
property that every operation and all work of an engine has, and that passes from a program to
what is left of it after a call, is a property of whatever a thread has still to do.
-/
namespace Lwm2mClient.Scenario

open Net

/-- Operations and work of engines have a property, and no answer to a call takes it from them. -/
structure Lasts (P : Program Bool → Prop) : Prop where
  next : ∀ (c : Call) (next : c.Answer → Program Bool), P (.call c next) → ∀ a, P (next a)
  operation : ∀ setup (o : Engine.Operation), P (o.program setup)
  work : ∀ setup work, P (Engine.work setup work)

/-- Whatever is still to be done of an operation has a property. -/
def Frame.Leaves (P : Program Bool → Prop) : Frame → Prop
  | program _ rest => P rest
  | reply _ _ next => ∀ answer, P (next answer)
  | afterWait _ next => ∀ finished, P (next finished)
  | _ => True

/-- Whatever threads have still to do of an operation has a property. -/
def World.Leaves (P : Program Bool → Prop) (w : World) : Prop :=
  ∀ t ∈ w.threads, ∀ frame ∈ t.frames, frame.Leaves P

namespace World

variable {P : Program Bool → Prop} {w w' : World} {frames rest : List Frame} {t other : Thread}

/-! ### Steps -/

theorem conclude_ne_enter {α : Type} (f : α → Result) (p : World × Except Fault α)
    (frame : Frame) : (conclude f p).2 ≠ .enter frame := by
  rcases p with ⟨w', fault | value⟩ <;> nofun

theorem enterOr_enter {value : Result} {p : World × Option Frame} {frame : Frame}
    (h : (enterOr value p).2 = .enter frame) : p.2 = some frame := by
  rcases p with ⟨w', _ | frame'⟩
  · cases h
  · cases h
    rfl

theorem withHandle_ne_enter (w : World) (name : String) (f : TaskHandle → World × Result)
    (frame : Frame) : (w.withHandle name f).2 ≠ .enter frame := by
  unfold withHandle
  split <;> nofun

theorem withEngine_enter {f : Nat → EngineState → World × Effect} {frame : Frame}
    (h : (w.withEngine f).2 = .enter frame) : ∃ e s, (f e s).2 = .enter frame := by
  unfold withEngine at h
  split at h
  · exact ⟨_, _, h⟩
  · cases h

theorem startWait_leaves {timeout : Duration} {frame : Frame}
    (h : (w.startWait timeout).2 = some frame) : frame.Leaves P := by
  unfold startWait at h
  split at h
  · cases h
    exact trivial
  · cases h

theorem shutDownTimeline_leaves {frame : Frame}
    (h : w.shutDownTimeline.2 = some frame) : frame.Leaves P := by
  simp only [shutDownTimeline] at h
  split at h
  · cases h
    exact trivial
  · cases h

/-- The only program that a step enters is that of an operation. -/
theorem take_leaves (hP : Lasts P) {s : Step} {frame : Frame} (h : (w.take s).2 = .enter frame) :
    frame.Leaves P := by
  cases s with
  | operate o =>
    obtain ⟨e, s, hentered⟩ := withEngine_enter h
    cases hentered
    exact hP.operation (w.setup s.settings) o
  | await timeout => exact startWait_leaves (enterOr_enter h)
  | shutDownTimeline => exact shutDownTimeline_leaves (enterOr_enter h)
  | advance span =>
    simp only [take] at h
    split at h
    · split at h
      · cases h
        exact trivial
      · cases h
    · cases h
  | delete | read | links | resource | extract | theManagement | theBootstrap | purgeAtGate =>
    exact absurd h (conclude_ne_enter _ _ frame)
  | cancelTask | isCancelled => exact absurd h (withHandle_ne_enter w _ _ frame)
  | start | engineSessionActive =>
    obtain ⟨e, s, hentered⟩ := withEngine_enter h
    cases hentered
  | keyOf | identityFor | purge | makeEngine | asideInSession =>
    simp only [take] at h
    split at h <;> cases h
  | openWithKnown =>
    simp only [take] at h
    split at h
    · split at h <;> cases h
    · cases h
  | _ => cases h

theorem startTask_leaves (hP : Lasts P) (w : World) (task : Task) :
    ∀ frame ∈ (w.startTask task).2, frame.Leaves P := by
  cases task with
  | body name steps => exact List.forall_mem_singleton.mpr trivial
  | work e work =>
    simp only [startTask]
    split
    · split
      · exact List.forall_mem_singleton.mpr (hP.work (w.setup _) work)
      · exact List.forall_mem_singleton.mpr trivial
    · exact List.forall_mem_singleton.mpr trivial

/-! ### Moves -/

theorem follow_leaves (hP : Lasts P) {engine : Option Nat} {p : Program Bool} (hp : P p)
    {c : Call} {next : c.Answer → Program Bool}
    (h : (follow engine p w).2 = .asking c next) : P (.call c next) := by
  induction p generalizing w with
  | done value => cases h
  | call c' next' ih =>
    by_cases hacquire : c' = .acquire
    · subst hacquire
      have hnext := hP.next _ _ hp ()
      cases engine with
      | none => exact ih () hnext h
      | some e =>
        simp only [follow] at h
        split at h
        · cases h
          exact hp
        · exact ih () hnext h
    · by_cases hrelease : c' = .release
      · subst hrelease
        have hnext := hP.next _ _ hp ()
        cases engine with
        | none => exact ih () hnext h
        | some e => exact ih () hnext h
      · rw [follow_call hacquire hrelease] at h
        generalize w.answer? engine c' = reply at h
        rcases reply with _ | ⟨w', fault | answer⟩
        · cases h
          exact hp
        · cases h
        · exact ih answer (hP.next _ _ hp answer) h

theorem ask_leaves (hP : Lasts P) (w : World) (e : Nat) {c : Call}
    {next : c.Answer → Program Bool} (hp : P (.call c next))
    (hrest : ∀ frame ∈ rest, frame.Leaves P) :
    (w.ask e rest c next).1.threads = w.threads ∧ ∀ frame ∈ (w.ask e rest c next).2.frames,
      frame.Leaves P := by
  have hnext := hP.next c next hp
  cases c with
  | send peer secure request timeout =>
    have hreply : ∀ outcome, ∀ frame ∈ Frame.reply e outcome next :: rest, frame.Leaves P :=
      fun _ => List.forall_mem_cons.mpr ⟨hnext, hrest⟩
    simp only [ask]
    split
    · exact ⟨rfl, List.forall_mem_cons.mpr ⟨trivial, hreply _⟩⟩
    · exact ⟨rfl, hreply _⟩
  | awaitFinish timeout =>
    have hquiet := startWait_quiet w timeout
    have hwait : ∀ frame, (w.startWait timeout).2 = some frame → frame.Leaves P :=
      fun _ => startWait_leaves
    simp only [ask]
    generalize w.startWait timeout = started at hquiet hwait ⊢
    rcases started with ⟨w', _ | wait⟩
    · exact ⟨hquiet.threads, List.forall_mem_cons.mpr ⟨hnext false, hrest⟩⟩
    · refine ⟨hquiet.threads, List.forall_mem_cons.mpr ⟨hwait wait rfl, ?_⟩⟩
      exact List.forall_mem_cons.mpr ⟨hnext, hrest⟩
  | shutDownTimeline =>
    have hgoesOn : ∀ frame ∈ Frame.program e (next ()) :: rest, frame.Leaves P :=
      List.forall_mem_cons.mpr ⟨hnext (), hrest⟩
    simp only [ask, World.shutDownTimeline]
    split
    · rename_i hwait
      split at hwait
      · cases hwait
        exact ⟨rfl, List.forall_mem_cons.mpr ⟨trivial, hgoesOn⟩⟩
      · cases hwait
    · rename_i hnone
      split at hnone
      · cases hnone
      · cases hnone
        exact ⟨rfl, hgoesOn⟩
  | _ => exact ⟨rfl, List.forall_mem_cons.mpr ⟨hp, hrest⟩⟩

theorem takeStep_leaves (hP : Lasts P) (w : World) (s : Step) {after : Frame}
    (hafter : after.Leaves P) (hrest : ∀ frame ∈ rest, frame.Leaves P) :
    (w.takeStep s after rest).1.threads = w.threads ∧
      ∀ frame ∈ (w.takeStep s after rest).2.frames, frame.Leaves P := by
  have hbehind : ∀ frame ∈ after :: rest, frame.Leaves P :=
    List.forall_mem_cons.mpr ⟨hafter, hrest⟩
  have hquiet := (take_takes w s).quiet
  have henters : ∀ frame, (w.take s).2 = .enter frame → frame.Leaves P := fun _ => take_leaves hP
  simp only [takeStep]
  generalize w.take s = taken at hquiet henters ⊢
  rcases taken with ⟨w', value | frame | work | fault⟩
  · exact ⟨hquiet.threads, hbehind⟩
  · exact ⟨hquiet.threads, List.forall_mem_cons.mpr ⟨henters frame rfl, hbehind⟩⟩
  · exact ⟨hquiet.threads, hbehind⟩
  · exact ⟨hquiet.threads, hrest⟩

theorem move_leaves (hP : Lasts P) (w : World) {frame : Frame} (hframe : frame.Leaves P)
    (hrest : ∀ frame ∈ rest, frame.Leaves P) :
    (w.move frame rest).1.threads = w.threads ∧ ∀ left ∈ (w.move frame rest).2.frames,
      left.Leaves P := by
  have hstarts : ∀ (w' : World) (task : Task) (again : Frame), w'.threads = w.threads →
      again.Leaves P →
      (w'.startTask task).1.threads = w.threads ∧
        ∀ frame ∈ (w'.startTask task).2 ++ again :: rest, frame.Leaves P := by
    intro w' task again hthreads hagain
    refine ⟨(startTask_quiet w' task).threads.trans hthreads, List.forall_mem_append.mpr ⟨?_, ?_⟩⟩
    · exact startTask_leaves hP w' task
    · exact List.forall_mem_cons.mpr ⟨hagain, hrest⟩
  cases frame with
  | program e p =>
    have hquiet := follow_quiet (some e) p w
    have hasking : ∀ c next, (follow (some e) p w).2 = .asking c next → P (.call c next) :=
      fun _ _ => follow_leaves hP hframe
    simp only [move]
    generalize follow (some e) p w = paused at hquiet hasking ⊢
    rcases paused with ⟨w', value | fault | ⟨c, next⟩⟩
    · exact ⟨hquiet.threads, hrest⟩
    · exact ⟨hquiet.threads, hrest⟩
    · obtain ⟨hthreads, hframes⟩ := ask_leaves hP w' e (hasking c next rfl) hrest
      exact ⟨hthreads.trans hquiet.threads, hframes⟩
  | reply e outcome next =>
    cases outcome with
    | error fault => exact ⟨rfl, hrest⟩
    | ok answer => exact ⟨rfl, List.forall_mem_cons.mpr ⟨hframe answer, hrest⟩⟩
  | afterWait e next => exact ⟨rfl, List.forall_mem_cons.mpr ⟨hframe false, hrest⟩⟩
  | steps remaining results =>
    cases remaining with
    | nil => exact ⟨rfl, hrest⟩
    | cons s ss => exact takeStep_leaves hP w s trivial hrest
  | body task remaining =>
    cases remaining with
    | nil => exact ⟨rfl, hrest⟩
    | cons s ss => exact takeStep_leaves hP w s trivial hrest
  | underway request remaining =>
    cases remaining with
    | nil => exact ⟨rfl, hrest⟩
    | cons s ss => exact takeStep_leaves hP w s trivial hrest
  | advance target started =>
    simp only [move]
    cases w.scheduler with
    | worker k => exact ⟨rfl, hrest⟩
    | timeline t =>
      dsimp only
      cases t.takeDue? target with
      | none => exact ⟨rfl, hrest⟩
      | some due => exact hstarts { w with scheduler := .timeline due.2 } due.1.task _ rfl trivial
  | serve =>
    simp only [move]
    cases w.scheduler with
    | timeline t => exact ⟨rfl, hrest⟩
    | worker k =>
      dsimp only
      rcases k.move? with _ | ⟨_ | entry, k'⟩
      · exact ⟨rfl, hrest⟩
      · exact ⟨rfl, List.forall_mem_cons.mpr ⟨trivial, hrest⟩⟩
      · exact hstarts { w with scheduler := .worker k' } entry.task _ rfl trivial
  | sleep | await | workerEnd => exact ⟨rfl, hrest⟩

theorem deliver_leaves {result : Result} (h : ∀ frame ∈ frames, frame.Leaves P) :
    ∀ frame ∈ (w.deliver result frames).2, frame.Leaves P := by
  cases frames with
  | nil => exact h
  | cons frame rest =>
    obtain ⟨hframe, hrest⟩ := List.forall_mem_cons.mp h
    cases frame with
    | afterWait e next => exact List.forall_mem_cons.mpr ⟨hframe _, hrest⟩
    | steps | body | underway | advance => exact List.forall_mem_cons.mpr ⟨trivial, hrest⟩
    | _ => exact h

theorem unwind_leaves (h : ∀ frame ∈ frames, frame.Leaves P) :
    ∀ frame ∈ (w.unwind frames).2, frame.Leaves P := by
  induction frames generalizing w with
  | nil => exact h
  | cons frame rest ih =>
    obtain ⟨hframe, hrest⟩ := List.forall_mem_cons.mp h
    cases frame with
    | advance => exact List.forall_mem_cons.mpr ⟨trivial, hrest⟩
    | serve => exact h
    | _ => exact ih hrest

/-! ### Turns -/

theorem Leaves.of_eq (h : w.Leaves P) (hthreads : w'.threads = w.threads) : w'.Leaves P := by
  intro t ht
  rw [hthreads] at ht
  exact h t ht

theorem Leaves.putBack (h : w.Leaves P)
    (ht : ∀ frame ∈ t.frames, frame.Leaves P) : (w.putBack t).Leaves P := by
  unfold World.putBack
  split
  · exact List.forall_mem_append.mpr ⟨h, List.forall_mem_singleton.mpr ht⟩
  · exact List.forall_mem_cons.mpr ⟨ht, h⟩

theorem Leaves.startAtOnce (h : w.Leaves P) (hother : ∀ frame ∈ other.frames, frame.Leaves P)
    (ht : ∀ frame ∈ t.frames, frame.Leaves P) : (w.startAtOnce other t).Leaves P :=
  List.forall_mem_append.mpr
    ⟨h, List.forall_mem_cons.mpr ⟨hother, List.forall_mem_singleton.mpr ht⟩⟩

theorem Leaves.spawn (hP : Lasts P) (h : w.Leaves P) (work : Aside)
    (ht : ∀ frame ∈ t.frames, frame.Leaves P) : (w.spawn work t).Leaves P := by
  have hended : ∀ result,
      ((({ w with asides := w.asides + 1 } : World).settle (.aside w.asides) result).putBack
        t).Leaves P :=
    fun result => Leaves.putBack (h.of_eq rfl) ht
  cases work with
  | steps delay steps =>
    refine List.forall_mem_append.mpr ⟨List.forall_mem_cons.mpr ⟨ht, h⟩,
      List.forall_mem_singleton.mpr ?_⟩
    exact List.forall_mem_cons.mpr ⟨trivial, List.forall_mem_singleton.mpr trivial⟩
  | shutdown =>
    simp only [World.spawn]
    split
    · refine Leaves.startAtOnce (h.of_eq rfl) (List.forall_mem_singleton.mpr ?_) ht
      exact hP.operation (w.setup _) .shutdown
    · exact hended .nothing
  | advance span =>
    simp only [World.spawn]
    split
    · split
      · exact Leaves.startAtOnce (h.of_eq rfl) (List.forall_mem_singleton.mpr trivial) ht
      · exact hended _
    · exact hended .nothing

theorem Leaves.turn (hP : Lasts P) (h : w.Leaves P) (ht : ∀ frame ∈ t.frames, frame.Leaves P) :
    (w.turn t).Leaves P := by
  obtain ⟨role, _ | ⟨frame, rest⟩⟩ := t
  · exact h.of_eq rfl
  · obtain ⟨hframe, hrest⟩ := List.forall_mem_cons.mp ht
    obtain ⟨hthreads, hframes⟩ := move_leaves hP w hframe hrest
    simp only [World.turn]
    generalize w.move frame rest = moved at hthreads hframes ⊢
    obtain ⟨w', next⟩ := moved
    have hmoved : w'.Leaves P := h.of_eq hthreads
    cases next with
    | goOn frames => exact hmoved.putBack hframes
    | deliver result frames =>
      cases frames with
      | nil => exact hmoved.of_eq rfl
      | cons behind others =>
        have hdelivered := deliver_quiet w' result (behind :: others)
        exact (hmoved.of_eq hdelivered.threads).putBack (deliver_leaves hframes)
    | failed fault frames =>
      have hunwound := unwind_quiet w' frames
      have hleft : ∀ frame ∈ (w'.unwind frames).2, frame.Leaves P := unwind_leaves hframes
      dsimp only
      generalize w'.unwind frames = unwound at hunwound hleft ⊢
      rcases unwound with ⟨w'', _ | ⟨behind, others⟩⟩
      · exact hmoved.of_eq hunwound.threads
      · exact (hmoved.of_eq (hunwound.report [.taskFailed]).threads).putBack hleft
    | spawn work frames =>
      have hdelivered := deliver_quiet w' .nothing frames
      exact (hmoved.of_eq hdelivered.threads).spawn hP work (deliver_leaves hframes)

theorem Leaves.ready (h : w.Leaves P) (hready : w.takeReady = some (t, w')) :
    w'.Leaves P ∧ ∀ frame ∈ t.frames, frame.Leaves P := by
  obtain ⟨blocked, others, hthreads, rfl⟩ := takeReady_eq_some hready
  have hall : ∀ t' ∈ blocked ++ t :: others, ∀ frame ∈ t'.frames, frame.Leaves P := hthreads ▸ h
  obtain ⟨hblocked, hrest⟩ := List.forall_mem_append.mp hall
  obtain ⟨ht, hothers⟩ := List.forall_mem_cons.mp hrest
  exact ⟨List.forall_mem_append.mpr ⟨hblocked, hothers⟩, ht⟩

theorem Leaves.tick (hP : Lasts P) (h : w.Leaves P) : w.tick.Leaves P := by
  unfold World.tick
  cases hready : w.takeReady with
  | some ready =>
    obtain ⟨hleft, ht⟩ := h.ready hready
    exact hleft.turn hP ht
  | none =>
    dsimp only
    split
    · exact h.of_eq rfl
    · exact h

/-- Whatever happens, the property stays. -/
theorem Leaves.happen (hP : Lasts P) (h : w.Leaves P) (happening : Happening) :
    (w.happen happening).Leaves P := by
  cases happening with
  | begin step => exact List.forall_mem_cons.mpr ⟨List.forall_mem_singleton.mpr trivial, h⟩
  | tick => exact h.tick hP
  | join => exact fun t ht => h t (List.mem_filter.mp ht).1
  | told => exact h.of_eq rfl

theorem Leaves.after (hP : Lasts P) (h : w.Leaves P) (happenings : List Happening) :
    (w.after happenings).Leaves P :=
  after_induction (fun _ happening hw => hw.happen hP happening) h happenings

theorem initial_leaves (P : Program Bool → Prop) (s : Scenario) : s.initial.Leaves P := by
  unfold Leaves Scenario.initial
  dsimp only
  split
  · exact List.forall_mem_singleton.mpr (List.forall_mem_singleton.mpr trivial)
  · exact fun _ ht => by cases ht

end World
end Lwm2mClient.Scenario
