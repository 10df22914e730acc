import Lwm2mClient.Proofs.Scenario.Views
import Mathlib.Data.List.TakeDrop

/-!
The requests of a client in a world where the store may be rewritten at any time. An operation
sends its request at the end of a move, so its request is made of what the store holds at that
moment. Wherever an operation waits, another thread may make another store of it; then nothing is
left of what was read before.
-/
namespace Lwm2mClient.Scenario

open Net Engine

/-- What a thread has still to do after a move. -/
def Next.frames : Next → List Frame
  | goOn frames | deliver _ frames | failed _ frames | spawn _ frames => frames

namespace World

variable {w w' : World} {hosts : Hosts}

/-! ### Threads -/

/-- The requests that are new in a world reflect what is to be seen in it. -/
def Sends (w w' : World) : Prop :=
  ∀ i x, w.sent.size ≤ i → w'.sent[i]? = some x →
    w'.view.Reflects w'.hosts x.peer x.secure x.request

theorem Sends.of_size_le (h : w'.sent.size ≤ w.sent.size) : w.Sends w' := by
  intro i x hi hx
  obtain ⟨hlt, -⟩ := Array.getElem?_eq_some_iff.mp hx
  omega

/-- A move starts no thread by itself and leaves nothing to do that does not reflect the store. A
request is sent at the very end of a move, and reflects the store. -/
structure Moves (w : World) (moved : World × Next) : Prop where
  threads : moved.1.threads = w.threads
  hosts : moved.1.hosts = w.hosts
  frames : ∀ frame ∈ moved.2.frames, frame.IsReflecting w.hosts
  sends : moved.1.sent.size = w.sent.size ∨ ∃ frames, moved.2 = .goOn frames ∧ w.Sends moved.1

theorem Moves.of_quiet {next : Next} (h : w.Quiet w')
    (hframes : ∀ frame ∈ next.frames, frame.IsReflecting w.hosts) : w.Moves (w', next) :=
  ⟨h.threads, h.hosts, hframes, Or.inl h.sent⟩

theorem Moves.after_quiet {moved : World × Next} (h : w.Quiet w') (hmoves : w'.Moves moved) :
    w.Moves moved := by
  refine ⟨hmoves.threads.trans h.threads, hmoves.hosts.trans h.hosts, ?_, ?_⟩
  · rw [← h.hosts]
    exact hmoves.frames
  · rcases hmoves.sends with hsent | ⟨frames, hgoOn, hsends⟩
    · exact Or.inl (hsent.trans h.sent)
    · refine Or.inr ⟨frames, hgoOn, fun i x hi => hsends i x ?_⟩
      rw [h.sent]
      exact hi

theorem noteRequest_sends {peer : SocketAddress} {secure : Bool} {request : Request}
    {timeout : Option Duration} (h : w.view.Reflects w.hosts peer secure request) :
    w.Sends (w.noteRequest peer secure request timeout).1 := by
  intro i x hi hx
  change (w.sent.push _)[i]? = some x at hx
  rw [Array.getElem?_push] at hx
  split at hx
  · cases hx
    exact h
  · obtain ⟨hlt, -⟩ := Array.getElem?_eq_some_iff.mp hx
    omega

/-- An operation that waits goes on after the wait, or at once if there is nothing to wait for. -/
theorem waiting_moves {after atOnce : Frame} {rest : List Frame}
    (hafter : after.IsReflecting w.hosts) (hatOnce : atOnce.IsReflecting w.hosts)
    (hrest : ∀ frame ∈ rest, frame.IsReflecting w.hosts) :
    ∀ started : World × Option Frame, w.Quiet started.1 →
      (∀ wait, started.2 = some wait → wait.IsReflecting w.hosts) →
        w.Moves (match started with
          | (w, some wait) => (w, .goOn (wait :: after :: rest))
          | (w, none) => (w, .goOn (atOnce :: rest))) := by
  rintro ⟨w', _ | wait⟩ hquiet henters
  · exact Moves.of_quiet hquiet (List.forall_mem_cons.mpr ⟨hatOnce, hrest⟩)
  · refine Moves.of_quiet hquiet ?_
    exact List.forall_mem_cons.mpr ⟨henters wait rfl, List.forall_mem_cons.mpr ⟨hafter, hrest⟩⟩

theorem ask_moves {e : Nat} {rest : List Frame} {c : Call} {next : c.Answer → Program Bool}
    (hasked : w.answer? (some e) c = none) (hrelease : c ≠ .release)
    (hkeeps : (Program.call c next).Keeps (reflecting w.hosts) (fun _ _ => True) w.view)
    (hrest : ∀ frame ∈ rest, frame.IsReflecting w.hosts) : w.Moves (w.ask e rest c next) := by
  obtain ⟨hpermits, hnext⟩ := hkeeps
  cases c with
  | send peer secure request timeout =>
    have hreply : ∀ outcome, (Frame.reply e outcome next).IsReflecting w.hosts :=
      fun _ answer v => hnext answer v trivial
    have hsends : w.Sends (w.noteRequest peer secure request timeout).1 :=
      noteRequest_sends hpermits
    simp only [ask]
    split
    · exact ⟨rfl, rfl, List.forall_mem_cons.mpr
        ⟨trivial, List.forall_mem_cons.mpr ⟨hreply _, hrest⟩⟩, Or.inr ⟨_, rfl, hsends⟩⟩
    · exact ⟨rfl, rfl, List.forall_mem_cons.mpr ⟨hreply _, hrest⟩, Or.inr ⟨_, rfl, hsends⟩⟩
  | awaitFinish timeout =>
    have hafter : (Frame.afterWait e next).IsReflecting w.hosts :=
      fun finished v => hnext finished v trivial
    have hatOnce : (Frame.program e (next false)).IsReflecting w.hosts := hafter false
    exact waiting_moves hafter hatOnce hrest _ (startWait_quiet w timeout) fun _ =>
      startWait_enters
  | shutDownTimeline =>
    have hshut : w.Quiet w.shutDownTimeline.1 := ⟨rfl, rfl, rfl⟩
    have hafter : (Frame.program e (next ())).IsReflecting w.hosts := fun v => hnext () v trivial
    exact waiting_moves hafter hafter hrest _ hshut fun _ => shutDownTimeline_enters
  | acquire =>
    refine Moves.of_quiet (Quiet.refl w) (List.forall_mem_cons.mpr ⟨?_, hrest⟩)
    exact fun v => ⟨trivial, fun a v' _ => hnext a v' trivial⟩
  | release => exact absurd rfl hrelease
  | _ => cases hasked

theorem takeStep_moves {s : Step} {after : Frame} {rest : List Frame}
    (hafter : after.IsReflecting w.hosts) (hrest : ∀ frame ∈ rest, frame.IsReflecting w.hosts) :
    w.Moves (w.takeStep s after rest) := by
  have hbehind : ∀ frame ∈ after :: rest, frame.IsReflecting w.hosts :=
    List.forall_mem_cons.mpr ⟨hafter, hrest⟩
  have htakes := take_takes w s
  simp only [takeStep]
  generalize w.take s = taken at htakes ⊢
  rcases taken with ⟨w', value | frame | work | fault⟩
  · exact Moves.of_quiet htakes.quiet hbehind
  · exact Moves.of_quiet htakes.quiet
      (List.forall_mem_cons.mpr ⟨htakes.enters frame rfl, hbehind⟩)
  · exact Moves.of_quiet htakes.quiet hbehind
  · exact Moves.of_quiet htakes.quiet hrest

theorem startTask_moves {frame : Frame} {rest : List Frame} (h : w.Quiet w') (task : Task)
    (hframe : frame.IsReflecting w.hosts) (hrest : ∀ frame ∈ rest, frame.IsReflecting w.hosts) :
    w.Moves ((w'.startTask task).1, .goOn ((w'.startTask task).2 ++ frame :: rest)) := by
  have hstarted := startTask_reflecting w' task
  rw [h.hosts] at hstarted
  refine Moves.of_quiet (h.trans (startTask_quiet w' task)) ?_
  exact List.forall_mem_append.mpr ⟨hstarted, List.forall_mem_cons.mpr ⟨hframe, hrest⟩⟩

theorem move_moves {frame : Frame} {rest : List Frame} (hframe : frame.IsReflecting w.hosts)
    (hrest : ∀ frame ∈ rest, frame.IsReflecting w.hosts) : w.Moves (w.move frame rest) := by
  have hstay : ∀ {next : Next}, next.frames = rest → w.Moves (w, next) :=
    fun hnext => Moves.of_quiet (Quiet.refl w) (hnext ▸ hrest)
  cases frame with
  | program e p =>
    have hquiet := follow_quiet (some e) p w
    have hpaused := follow_paused (some e) (hframe w.view)
    simp only [move]
    generalize follow (some e) p w = paused at hquiet hpaused ⊢
    rcases paused with ⟨w', value | fault | ⟨c, next⟩⟩
    · exact Moves.of_quiet hquiet hrest
    · exact Moves.of_quiet ⟨hquiet.threads, hquiet.hosts, hquiet.sent⟩ hrest
    · obtain ⟨hasked, hrelease, hkeeps⟩ := hpaused
      refine Moves.after_quiet hquiet (ask_moves hasked hrelease ?_ ?_)
      · rw [hquiet.hosts]
        exact hkeeps
      · rw [hquiet.hosts]
        exact hrest
  | reply e outcome next =>
    cases outcome with
    | error fault => exact Moves.of_quiet ⟨rfl, rfl, rfl⟩ hrest
    | ok answer =>
      exact Moves.of_quiet (Quiet.refl w) (List.forall_mem_cons.mpr ⟨hframe answer, hrest⟩)
  | afterWait e next =>
    exact Moves.of_quiet (Quiet.refl w) (List.forall_mem_cons.mpr ⟨hframe false, hrest⟩)
  | steps remaining results =>
    cases remaining with
    | nil => exact hstay rfl
    | cons s ss => exact takeStep_moves trivial hrest
  | body task remaining =>
    cases remaining with
    | nil => exact hstay rfl
    | cons s ss => exact takeStep_moves trivial hrest
  | underway request remaining =>
    cases remaining with
    | nil => exact hstay rfl
    | cons s ss => exact takeStep_moves trivial hrest
  | advance target started =>
    simp only [move]
    cases w.scheduler with
    | worker k => exact hstay rfl
    | timeline t =>
      dsimp only
      cases t.takeDue? target with
      | none => exact Moves.of_quiet ⟨rfl, rfl, rfl⟩ hrest
      | some due =>
        have htaken : w.Quiet { w with scheduler := .timeline due.2 } := ⟨rfl, rfl, rfl⟩
        have hagain : (Frame.advance target started).IsReflecting w.hosts := trivial
        exact startTask_moves htaken due.1.task hagain hrest
  | serve =>
    simp only [move]
    cases w.scheduler with
    | timeline t => exact hstay rfl
    | worker k =>
      dsimp only
      rcases k.move? with _ | ⟨_ | entry, k'⟩
      · exact hstay rfl
      · exact Moves.of_quiet ⟨rfl, rfl, rfl⟩ (List.forall_mem_cons.mpr ⟨trivial, hrest⟩)
      · have htaken : w.Quiet { w with scheduler := .worker k' } := ⟨rfl, rfl, rfl⟩
        have hagain : Frame.serve.IsReflecting w.hosts := trivial
        exact startTask_moves htaken entry.task hagain hrest
  | sleep instant => exact hstay rfl
  | await session deadline => exact Moves.of_quiet ⟨rfl, rfl, rfl⟩ hrest
  | workerEnd => exact hstay rfl

/-! ### Runs -/

/-- Nothing that threads have still to do sends a request that does not reflect the store. -/
structure IsReflecting (hosts : Hosts) (w : World) : Prop where
  hosts_eq : w.hosts = hosts
  frames : ∀ t ∈ w.threads, ∀ frame ∈ t.frames, frame.IsReflecting hosts

theorem deliver_quiet (w : World) (result : Result) (frames : List Frame) :
    w.Quiet (w.deliver result frames).1 := by
  cases frames with
  | nil => exact Quiet.refl w
  | cons frame rest =>
    cases frame with
    | underway request remaining =>
      change w.Quiet (w.noteStep request result)
      unfold noteStep
      split
      · exact Quiet.refl w
      · exact ⟨rfl, rfl, Array.size_modify⟩
    | _ => exact ⟨rfl, rfl, rfl⟩

theorem deliver_reflecting {result : Result} {frames : List Frame}
    (h : ∀ frame ∈ frames, frame.IsReflecting hosts) :
    ∀ frame ∈ (w.deliver result frames).2, frame.IsReflecting hosts := by
  cases frames with
  | nil => exact h
  | cons frame rest =>
    obtain ⟨hframe, hrest⟩ := List.forall_mem_cons.mp h
    cases frame with
    | afterWait e next => exact List.forall_mem_cons.mpr ⟨hframe _, hrest⟩
    | steps | body | underway | advance => exact List.forall_mem_cons.mpr ⟨trivial, hrest⟩
    | _ => exact h

theorem unwind_quiet (w : World) (frames : List Frame) : w.Quiet (w.unwind frames).1 := by
  induction frames generalizing w with
  | nil => exact Quiet.refl w
  | cons frame rest ih =>
    cases frame with
    | advance | serve => exact Quiet.refl w
    | reply e outcome next =>
      have hreleased : w.Quiet (w.release e) := ⟨rfl, rfl, rfl⟩
      exact hreleased.trans (ih (w.release e))
    | _ => exact ih w

theorem unwind_reflecting {frames : List Frame} (h : ∀ frame ∈ frames, frame.IsReflecting hosts) :
    ∀ frame ∈ (w.unwind frames).2, frame.IsReflecting hosts := by
  induction frames generalizing w with
  | nil => exact h
  | cons frame rest ih =>
    obtain ⟨hframe, hrest⟩ := List.forall_mem_cons.mp h
    cases frame with
    | advance => exact List.forall_mem_cons.mpr ⟨trivial, hrest⟩
    | serve => exact h
    | _ => exact ih hrest

section

variable {t other : Thread}

theorem IsReflecting.of_eq (h : w.IsReflecting hosts) (hthreads : w'.threads = w.threads)
    (hhosts : w'.hosts = w.hosts) : w'.IsReflecting hosts :=
  ⟨hhosts.trans h.hosts_eq, hthreads ▸ h.frames⟩

theorem IsReflecting.of_quiet (h : w.IsReflecting hosts)
    (hquiet : w.Quiet w') : w'.IsReflecting hosts :=
  h.of_eq hquiet.threads hquiet.hosts

theorem IsReflecting.putBack (h : w.IsReflecting hosts)
    (ht : ∀ frame ∈ t.frames, frame.IsReflecting hosts) : (w.putBack t).IsReflecting hosts := by
  unfold World.putBack
  split
  · refine ⟨h.hosts_eq, List.forall_mem_append.mpr ⟨h.frames, ?_⟩⟩
    exact List.forall_mem_singleton.mpr ht
  · exact ⟨h.hosts_eq, List.forall_mem_cons.mpr ⟨ht, h.frames⟩⟩

theorem IsReflecting.settle (h : w.IsReflecting hosts) (role : Role) (result : Result) :
    (w.settle role result).IsReflecting hosts := h.of_eq rfl rfl

theorem IsReflecting.startAtOnce (h : w.IsReflecting hosts)
    (hother : ∀ frame ∈ other.frames, frame.IsReflecting hosts)
    (ht : ∀ frame ∈ t.frames, frame.IsReflecting hosts) :
    (w.startAtOnce other t).IsReflecting hosts := by
  refine ⟨h.hosts_eq,
    List.forall_mem_append.mpr ⟨h.frames, List.forall_mem_cons.mpr ⟨hother, ?_⟩⟩⟩
  exact List.forall_mem_singleton.mpr ht

theorem IsReflecting.spawn (h : w.IsReflecting hosts) (work : Aside)
    (ht : ∀ frame ∈ t.frames, frame.IsReflecting hosts) :
    (w.spawn work t).IsReflecting hosts := by
  have hnumbered : ({ w with asides := w.asides + 1 } : World).IsReflecting hosts :=
    h.of_eq rfl rfl
  cases work with
  | steps delay steps =>
    refine ⟨h.hosts_eq, List.forall_mem_append.mpr ⟨List.forall_mem_cons.mpr ⟨ht, h.frames⟩, ?_⟩⟩
    refine List.forall_mem_singleton.mpr (List.forall_mem_cons.mpr ⟨trivial, ?_⟩)
    exact List.forall_mem_singleton.mpr trivial
  | shutdown =>
    simp only [World.spawn]
    split
    · refine hnumbered.startAtOnce (List.forall_mem_singleton.mpr ?_) ht
      exact h.hosts_eq ▸ isReflecting_operation (w.setup _) .shutdown
    · exact (hnumbered.settle _ _).putBack ht
  | advance span =>
    simp only [World.spawn]
    split
    · split
      · exact hnumbered.startAtOnce (List.forall_mem_singleton.mpr trivial) ht
      · exact (hnumbered.settle _ _).putBack ht
    · exact (hnumbered.settle _ _).putBack ht

theorem Sends.putBack (h : w.Sends w') (t : Thread) : w.Sends (w'.putBack t) := by
  unfold World.putBack
  split <;> exact h

@[simp] theorem putBack_sent (w : World) (t : Thread) : (w.putBack t).sent = w.sent := by
  unfold putBack
  split <;> rfl

@[simp] theorem spawn_sent (w : World) (work : Aside) (t : Thread) :
    (w.spawn work t).sent = w.sent := by
  cases work with
  | steps delay steps => rfl
  | shutdown =>
    simp only [spawn]
    split
    · rfl
    · exact putBack_sent _ t
  | advance span =>
    simp only [spawn]
    split
    · split
      · rfl
      · exact putBack_sent _ t
    · exact putBack_sent _ t

/-- A thread that was taken out of a world moves, and the world it comes to is as the one it moved
in, but for what its request adds. -/
theorem turn_reflecting (h : w.IsReflecting hosts)
    (ht : ∀ frame ∈ t.frames, frame.IsReflecting hosts) :
    (w.turn t).IsReflecting hosts ∧ w.Sends (w.turn t) := by
  obtain ⟨role, _ | ⟨frame, rest⟩⟩ := t
  · exact ⟨h.settle role .nothing, Sends.of_size_le (Nat.le_refl _)⟩
  · obtain ⟨hframe, hrest⟩ := List.forall_mem_cons.mp ht
    obtain rfl := h.hosts_eq
    have hmoves := move_moves hframe hrest
    simp only [turn]
    generalize w.move frame rest = moved at hmoves ⊢
    obtain ⟨w', next⟩ := moved
    have hmoved : w'.IsReflecting w.hosts := h.of_eq hmoves.threads hmoves.hosts
    have hquiet : (∀ frames, next ≠ .goOn frames) → w'.sent.size = w.sent.size := by
      intro hnext
      rcases hmoves.sends with hsent | ⟨frames, hgoOn, -⟩
      · exact hsent
      · exact absurd hgoOn (hnext frames)
    cases next with
    | goOn frames =>
      refine ⟨hmoved.putBack hmoves.frames, Sends.putBack ?_ _⟩
      rcases hmoves.sends with hsent | ⟨_, -, hsends⟩
      · exact Sends.of_size_le (Nat.le_of_eq hsent)
      · exact hsends
    | deliver result frames =>
      have hsent := hquiet nofun
      cases frames with
      | nil => exact ⟨hmoved.settle role result, Sends.of_size_le (Nat.le_of_eq hsent)⟩
      | cons behind others =>
        have hdelivered := deliver_quiet w' result (behind :: others)
        refine ⟨(hmoved.of_quiet hdelivered).putBack (deliver_reflecting hmoves.frames), ?_⟩
        exact Sends.putBack (Sends.of_size_le (Nat.le_of_eq (hdelivered.sent.trans hsent))) _
    | failed fault frames =>
      have hsent := hquiet nofun
      have hunwound := unwind_quiet w' frames
      have hframes : ∀ frame ∈ (w'.unwind frames).2, frame.IsReflecting w.hosts :=
        unwind_reflecting hmoves.frames
      dsimp only
      generalize w'.unwind frames = unwound at hunwound hframes ⊢
      rcases unwound with ⟨w'', _ | ⟨behind, others⟩⟩
      · refine ⟨(hmoved.of_quiet hunwound).settle role _, ?_⟩
        exact Sends.of_size_le (Nat.le_of_eq (hunwound.sent.trans hsent))
      · have hreported := hunwound.report [.taskFailed]
        refine ⟨(hmoved.of_quiet hreported).putBack hframes, ?_⟩
        exact Sends.putBack (Sends.of_size_le (Nat.le_of_eq (hreported.sent.trans hsent))) _
    | spawn work frames =>
      have hdelivered := deliver_quiet w' .nothing frames
      refine ⟨(hmoved.of_quiet hdelivered).spawn work (deliver_reflecting hmoves.frames),
        Sends.of_size_le ?_⟩
      rw [spawn_sent]
      exact Nat.le_of_eq (hdelivered.sent.trans (hquiet nofun))

end

theorem takeReady_eq_some {t : Thread} (h : w.takeReady = some (t, w')) :
    ∃ blocked others, w.threads = blocked ++ t :: others ∧
      w' = { w with threads := blocked ++ others } := by
  have hthreads :
      w.threads.takeWhile w.isBlocked ++ w.threads.dropWhile w.isBlocked = w.threads :=
    List.takeWhile_append_dropWhile
  unfold takeReady at h
  rw [List.span_eq_takeWhile_dropWhile] at h
  split at h
  · rename_i blocked t others hsplit
    cases h
    refine ⟨blocked, others, ?_, rfl⟩
    obtain ⟨rfl, hdrop⟩ := Prod.mk.inj hsplit
    rw [hdrop] at hthreads
    exact hthreads.symm
  · cases h

theorem tick_reflecting (h : w.IsReflecting hosts) :
    w.tick.IsReflecting hosts ∧ w.Sends w.tick := by
  unfold tick
  cases hready : w.takeReady with
  | none =>
    dsimp only
    split
    · exact ⟨h.of_eq rfl rfl, Sends.of_size_le (Nat.le_refl _)⟩
    · exact ⟨h, Sends.of_size_le (Nat.le_refl _)⟩
  | some ready =>
    obtain ⟨t, w'⟩ := ready
    obtain ⟨blocked, others, hthreads, rfl⟩ := takeReady_eq_some hready
    obtain ⟨hblocked, hrest⟩ := List.forall_mem_append.mp (hthreads ▸ h.frames)
    obtain ⟨ht, hothers⟩ := List.forall_mem_cons.mp hrest
    have hleft : IsReflecting hosts { w with threads := blocked ++ others } :=
      ⟨h.hosts_eq, List.forall_mem_append.mpr ⟨hblocked, hothers⟩⟩
    exact turn_reflecting hleft ht

theorem happen_reflecting (h : w.IsReflecting hosts) (happening : Happening) :
    (w.happen happening).IsReflecting hosts ∧ w.Sends (w.happen happening) := by
  cases happening with
  | begin step =>
    have hbegun : ∀ frame ∈ [Frame.steps [step] []], frame.IsReflecting hosts :=
      List.forall_mem_singleton.mpr trivial
    exact ⟨⟨h.hosts_eq, List.forall_mem_cons.mpr ⟨hbegun, h.frames⟩⟩,
      Sends.of_size_le (Nat.le_refl _)⟩
  | tick => exact tick_reflecting h
  | join =>
    refine ⟨⟨h.hosts_eq, fun t ht => h.frames t (List.mem_filter.mp ht).1⟩,
      Sends.of_size_le (Nat.le_refl _)⟩
  | told => exact ⟨h.of_eq rfl rfl, Sends.of_size_le (Nat.zero_le _)⟩

theorem initial_reflecting (s : Scenario) : s.initial.IsReflecting s.hosts := by
  refine ⟨rfl, ?_⟩
  unfold Scenario.initial
  split
  · exact List.forall_mem_singleton.mpr (List.forall_mem_singleton.mpr trivial)
  · exact fun _ ht => by cases ht

/-- Whatever happens to a client and its store, each request that is sent is the one that the
store asks for at that moment. -/
theorem reflects_of_initial (s : Scenario) (happenings : List Happening) (h : Happening) {i : Nat}
    {x : SentRequest} (hnew : (s.initial.after happenings).sent.size ≤ i)
    (hx : ((s.initial.after happenings).happen h).sent[i]? = some x) :
    ((s.initial.after happenings).happen h).view.Reflects s.hosts x.peer x.secure x.request := by
  have hstep : ∀ w h, IsReflecting s.hosts w → IsReflecting s.hosts (w.happen h) :=
    fun w h hw => (happen_reflecting hw h).1
  have hreached := after_induction hstep (initial_reflecting s) happenings
  obtain ⟨hreflecting, hsends⟩ := happen_reflecting hreached h
  have hreflects := hsends i x hnew hx
  rw [hreflecting.hosts_eq] at hreflects
  exact hreflects

/-- While the Register request is on its way, the store comes to name another server. -/
def movedScenario : Scenario :=
  { scripts := [(.register,
      [.mk (some ⟨.created, some "/rd/5"⟩)
        [.putSecurity 0 (.plain "coap://10.0.0.2" 1)] false 1])] }

/-- A client is provisioned with a server and registers, and then is about to update its
registration. -/
def updatingMoved : List Happening :=
  [.begin (.putSecurity 0 (.plain "coap://10.0.0.1" 1)), .tick, .tick,
    .begin (.putServer 0 ⟨1, 60, "U"⟩), .tick, .tick, .begin (.makeEngine []), .tick, .tick,
    .begin (.operate .register), .tick, .tick, .tick, .tick, .tick, .tick, .tick,
      .begin (.operate .update), .tick]

theorem reflects_once_moved :
    (movedScenario.initial.after updatingMoved).sent.map (·.peer) =
      #[⟨.v4 #v[10, 0, 0, 1], 5683, 0⟩] ∧
      ∃ x, ((movedScenario.initial.after updatingMoved).happen .tick).sent[1]? = some x ∧
        x.peer = ⟨.v4 #v[10, 0, 0, 2], 5683, 0⟩ ∧ x.request = .update "/rd/5" ∧
        ((movedScenario.initial.after updatingMoved).happen .tick).view.Reflects
          {} x.peer x.secure x.request := by
  have hsize : (movedScenario.initial.after updatingMoved).sent.size ≤ 1 := by decide +kernel
  have hsent : (((movedScenario.initial.after updatingMoved).happen .tick).sent[1]?.map
      fun x => (x.peer, x.request)) = some (⟨.v4 #v[10, 0, 0, 2], 5683, 0⟩, .update "/rd/5") := by
    decide +kernel
  obtain ⟨x, hx, hpeer⟩ := Option.map_eq_some_iff.mp hsent
  obtain ⟨hpeer, hrequest⟩ := Prod.mk.inj hpeer
  exact ⟨by
    decide +kernel, x, hx, hpeer, hrequest,
    reflects_of_initial movedScenario updatingMoved .tick hsize hx⟩

end World
end Lwm2mClient.Scenario
