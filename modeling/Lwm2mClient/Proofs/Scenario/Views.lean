import Lwm2mClient.Proofs.Engine.Views
import Lwm2mClient.Proofs.Scenario.Happenings

/-!
What is to be seen in a world, and what the programs followed in it and the steps taken in it make
of it. An operation goes on by itself as far as it can, so what it has read since it went on last
is what the store still holds where it pauses. No step sends a request by itself, and what it
leaves to be done sends none that does not reflect the store.
-/
namespace Lwm2mClient.Scenario

open Net Engine

/-- What there is to be seen in a world. -/
def World.view (w : World) : View where
  ids := w.store.objectIds
  object o := if o ∈ w.disturbance.hidden then none else w.store.read o
  peer := w.gate.peer

/-- Whatever is still to be done of an operation, it sends no request that does not reflect the
store. -/
def Frame.IsReflecting (hosts : Hosts) : Frame → Prop
  | program _ rest => Engine.IsReflecting hosts rest
  | reply _ _ next => ∀ answer, Engine.IsReflecting hosts (next answer)
  | afterWait _ next => ∀ finished, Engine.IsReflecting hosts (next finished)
  | _ => True

namespace World

variable {w w' w'' : World} {hosts : Hosts}

@[simp] theorem report_view (w : World) (lines : List Log.Line) :
    (w.report lines).view = w.view := by
  unfold report
  split <;> rfl

/-- No thread has come or gone, and no request was sent. -/
structure Quiet (w w' : World) : Prop where
  threads : w'.threads = w.threads
  hosts : w'.hosts = w.hosts
  sent : w'.sent.size = w.sent.size

theorem Quiet.refl (w : World) : w.Quiet w := ⟨rfl, rfl, rfl⟩

theorem Quiet.trans (h : w.Quiet w') (h' : w'.Quiet w'') : w.Quiet w'' :=
  ⟨h'.threads.trans h.threads, h'.hosts.trans h.hosts, h'.sent.trans h.sent⟩

theorem Quiet.report (h : w.Quiet w') (lines : List Log.Line) : w.Quiet (w'.report lines) := by
  unfold World.report
  split
  · exact ⟨h.threads, h.hosts, h.sent⟩
  · exact h

/-! ### Following a program -/

theorem readObject_quiet (w : World) (object : NumericId) : w.Quiet (w.readObject object).1 := by
  unfold readObject
  split
  · exact Quiet.refl w
  · split
    · exact Quiet.refl w
    · exact (Quiet.refl w).report _

theorem readObject_ok {object : NumericId} {value : Option Object}
    (h : w.readObject object = (w', .ok value)) :
    value = w.view.object object ∧ w'.view = w.view := by
  unfold readObject at h
  split at h
  · cases h
  · split at h
    · rename_i hhidden
      cases h
      exact ⟨(if_pos hhidden).symm, rfl⟩
    · rename_i hshown
      cases h
      exact ⟨(if_neg hshown).symm, report_view w _⟩

theorem removeInstance_quiet (w : World) (sender : SocketAddress) (object i : NumericId) :
    w.Quiet (w.removeInstance sender object i).1 := by
  unfold removeInstance
  split
  · have hremoved : w.Quiet { w with store := w.store.remove object i } := ⟨rfl, rfl, rfl⟩
    exact hremoved.report _
  · exact Quiet.refl w

theorem deleteInstance_quiet (w : World) (sender : SocketAddress) (object i : NumericId) :
    w.Quiet (w.deleteInstance sender object i).1 := by
  unfold deleteInstance
  split
  · exact Quiet.refl w
  · cases w.disturbance.deny with
    | some code => exact ⟨rfl, rfl, rfl⟩
    | none =>
      have hremoved := removeInstance_quiet w sender object i
      exact ⟨hremoved.threads, hremoved.hosts, hremoved.sent⟩

theorem withClient_quiet (w : World) (engine : Option Nat) (c : Client Task) :
    w.Quiet (w.withClient engine c) := ⟨rfl, rfl, rfl⟩

theorem answer?_quiet {engine : Option Nat} {c : Call} {reply : Except Fault c.Answer}
    (h : w.answer? engine c = some (w', reply)) : w.Quiet w' := by
  cases c with
  | objectIds =>
    cases h
    exact Quiet.refl w
  | readObject object =>
    have hw : (w.readObject object).1 = w' := congrArg Prod.fst (Option.some.inj h)
    exact hw ▸ readObject_quiet w object
  | deleteInstance sender object i =>
    have hw : (w.deleteInstance sender object i).1 = w' := congrArg Prod.fst (Option.some.inj h)
    exact hw ▸ deleteInstance_quiet w sender object i
  | shutDownTimeline | acquire | release | send | awaitFinish => cases h
  | _ =>
    cases h
    exact (withClient_quiet w engine _).report _

theorem tryOpen_peer (g : Gate) (peer : ServerInfo) :
    (g.tryOpen peer).gate.peer = if (g.tryOpen peer).result then some peer else g.peer := by
  unfold Gate.tryOpen
  cases hsession : g.session <;> simp [Gate.peer, hsession]

/-- An answer tells what is to be seen, and changes what is to be seen as the monitor says. -/
theorem answer?_moves {engine : Option Nat} {c : Call} {a : c.Answer}
    (h : w.answer? engine c = some (w', .ok a)) :
    (reflecting hosts).moves w.view c a w'.view := by
  cases c with
  | objectIds =>
    cases h
    exact ⟨rfl, rfl⟩
  | readObject object => exact readObject_ok (Option.some.inj h)
  | openSession peer =>
    cases h
    refine (report_view _ _).trans ?_
    change { w.view with peer := (w.gate.tryOpen peer).gate.peer } =
      if (w.gate.tryOpen peer).result then { w.view with peer := some peer } else w.view
    rw [tryOpen_peer]
    split <;> rfl
  | deleteInstance | closeSession | acquire | send | awaitFinish | shutDownTimeline =>
    exact trivial
  | release => cases h
  | _ =>
    cases h
    exact report_view _ _

theorem follow_quiet {α : Type} (engine : Option Nat) (p : Program α) (w : World) :
    w.Quiet (follow engine p w).1 := by
  induction p generalizing w with
  | done value => exact Quiet.refl w
  | call c next ih =>
    by_cases hacquire : c = .acquire
    · subst hacquire
      unfold follow
      cases engine with
      | none => exact ih () w
      | some e =>
        dsimp only
        split
        · exact Quiet.refl w
        · have htaken : w.Quiet { w with busy := e :: w.busy } := ⟨rfl, rfl, rfl⟩
          exact htaken.trans (ih () _)
    · by_cases hrelease : c = .release
      · subst hrelease
        cases engine with
        | none => exact ih () w
        | some e =>
          have hreleased : w.Quiet (w.release e) := ⟨rfl, rfl, rfl⟩
          exact hreleased.trans (ih () _)
      · rw [follow_call hacquire hrelease]
        rcases hanswer : w.answer? engine c with _ | ⟨w', fault | answer⟩
        · exact Quiet.refl w
        · exact answer?_quiet hanswer
        · exact (answer?_quiet hanswer).trans (ih answer w')

/-- A program keeps to what is to be seen, wherever it pauses. -/
def Paused {α : Type} (hosts : Hosts) (engine : Option Nat) (post : α → View → Prop) (w : World) :
    Pause α → Prop
  | .finished value => post value w.view
  | .failed _ => True
  | .asking c next => w.answer? engine c = none ∧ c ≠ .release ∧
      (Program.call c next).Keeps (reflecting hosts) post w.view

theorem follow_paused {α : Type} (engine : Option Nat) {p : Program α} {post : α → View → Prop}
    (h : p.Keeps (reflecting hosts) post w.view) :
    (follow engine p w).1.Paused hosts engine post (follow engine p w).2 := by
  induction p generalizing w with
  | done value => exact h
  | call c next ih =>
    by_cases hacquire : c = .acquire
    · subst hacquire
      have hgoesOn : ∀ w' : World, w'.view = w.view →
          (next ()).Keeps (reflecting hosts) post w'.view :=
        fun w' hview => hview ▸ h.2 () w.view trivial
      unfold follow
      cases engine with
      | none => exact ih () (hgoesOn w rfl)
      | some e =>
        dsimp only
        split
        · refine ⟨rfl, ?_, h⟩
          rintro ⟨⟩
        · exact ih () (hgoesOn { w with busy := e :: w.busy } rfl)
    · by_cases hrelease : c = .release
      · subst hrelease
        cases engine with
        | none => exact ih () (h.2 () w.view rfl)
        | some e => exact ih () (h.2 () (w.release e).view rfl)
      · rw [follow_call hacquire hrelease]
        rcases hanswer : w.answer? engine c with _ | ⟨w', fault | answer⟩
        · exact ⟨hanswer, hrelease, h⟩
        · exact trivial
        · exact ih answer (h.2 answer w'.view (answer?_moves hanswer))

theorem consult_quiet {α : Type} (w : World) (p : Program α) : w.Quiet (w.consult p).1 := by
  have hfollow := follow_quiet none p w
  unfold consult
  generalize follow none p w = paused at hfollow ⊢
  rcases paused with ⟨w', value | fault | ⟨c, next⟩⟩ <;> exact hfollow

/-- What is known of a program where it is done is known of what it gives when it is consulted. -/
theorem consult_ok {α : Type} {p : Program α} {value : α} {post : α → View → Prop}
    (hp : p.Keeps (reflecting hosts) post w.view) (h : w.consult p = (w', .ok value)) :
    post value w'.view := by
  have hpaused := follow_paused none hp
  unfold consult at h
  generalize follow none p w = paused at hpaused h
  rcases paused with ⟨w₁, reached | fault | ⟨c, next⟩⟩
  · cases h
    exact hpaused
  · cases h
  · cases h

/-- The servers that a client extracts from its store are those that its requests go to. -/
theorem consult_findServers {found : Option Servers}
    (h : w.consult (findServers hosts) = (w', .ok found)) : found = w'.view.servers? hosts := by
  have hkeeps : (findServers hosts).Keeps (reflecting hosts)
      (fun found v => found = v.servers? hosts) w.view :=
    keeps_findServers rfl
  exact consult_ok hkeeps h

/-- The links by which a client describes its objects are those that it registers with. -/
theorem consult_describeObjects {text : String} (h : w.consult describeObjects = (w', .ok text)) :
    text = w'.view.links := by
  have hkeeps : describeObjects.Keeps (reflecting {}) (fun text v => text = v.links) w.view :=
    keeps_describeObjects rfl
  exact consult_ok hkeeps h

/-! ### Steps -/

/-- A step starts no thread by itself and sends nothing, and what it goes into reflects the
store. -/
structure Takes (w : World) (taken : World × Effect) : Prop where
  quiet : w.Quiet taken.1
  enters : ∀ frame, taken.2 = .enter frame → frame.IsReflecting w.hosts

theorem Takes.result (h : w.Quiet w') (value : Result) : w.Takes (w', .result value) := ⟨h, nofun⟩

theorem Takes.failed (h : w.Quiet w') (fault : Fault) : w.Takes (w', .failed fault) := ⟨h, nofun⟩

theorem Takes.conclude {α : Type} {p : World × Except Fault α} (h : w.Quiet p.1)
    (f : α → Result) : w.Takes (conclude f p) := by
  rcases p with ⟨w', fault | value⟩
  · exact Takes.failed h fault
  · exact Takes.result h (f value)

theorem Takes.enterOr {p : World × Option Frame} (h : w.Quiet p.1)
    (hframe : ∀ frame, p.2 = some frame → frame.IsReflecting w.hosts) (value : Result) :
    w.Takes (enterOr value p) := by
  rcases p with ⟨w', _ | frame⟩
  · exact Takes.result h value
  · refine ⟨h, ?_⟩
    rintro _ ⟨⟩
    exact hframe frame rfl

theorem receiveFinish_quiet (w : World) (sender : SocketAddress) :
    w.Quiet (w.receiveFinish sender).1 := by
  have hgate : w.Quiet { w with gate := (w.gate.finish sender).gate } := ⟨rfl, rfl, rfl⟩
  exact hgate.report _

theorem receiveDelete_quiet (w : World) (sender : SocketAddress) (path : String) :
    w.Quiet (w.receiveDelete sender path).1 := by
  unfold receiveDelete
  split
  · exact Quiet.refl w
  · have hpurged := consult_quiet w (Purge.purge sender)
    generalize w.consult (Purge.purge sender) = purged at hpurged ⊢
    rcases purged with ⟨w', fault | purged⟩
    · exact ⟨hpurged.threads, hpurged.hosts, hpurged.sent⟩
    · exact hpurged

theorem openSession_quiet (w : World) (peer : ServerInfo) : w.Quiet (w.openSession peer).1 := by
  have hgate : w.Quiet { w with gate := (w.gate.tryOpen peer).gate } := ⟨rfl, rfl, rfl⟩
  exact hgate.report _

theorem startWait_quiet (w : World) (timeout : Duration) : w.Quiet (w.startWait timeout).1 := by
  unfold startWait
  split <;> exact ⟨rfl, rfl, rfl⟩

theorem startWait_enters {timeout : Duration} {frame : Frame}
    (h : (w.startWait timeout).2 = some frame) : frame.IsReflecting hosts := by
  unfold startWait at h
  split at h
  · cases h
    exact trivial
  · cases h

theorem shutDownTimeline_enters {frame : Frame} (h : w.shutDownTimeline.2 = some frame) :
    frame.IsReflecting hosts := by
  unfold shutDownTimeline at h
  dsimp only at h
  split at h
  · cases h
    exact trivial
  · cases h

theorem withHandle_takes {f : TaskHandle → World × Result} (h : ∀ handle, w.Quiet (f handle).1)
    (name : String) : w.Takes (w.withHandle name f) := by
  unfold withHandle
  split
  · exact Takes.result (h _) _
  · exact Takes.result (Quiet.refl w) _

theorem withEngine_takes {f : Nat → EngineState → World × Effect} (h : ∀ e s, w.Takes (f e s)) :
    w.Takes (w.withEngine f) := by
  unfold withEngine
  split
  · exact h _ _
  · exact Takes.result (Quiet.refl w) _

theorem makeEngine_quiet (w : World) (settings : Settings) (servers : Option Servers) :
    w.Quiet (w.makeEngine settings servers).1 := by
  unfold makeEngine
  split
  · exact Quiet.refl w
  · exact ⟨rfl, rfl, rfl⟩

theorem take_takes (w : World) (s : Step) : w.Takes (w.take s) := by
  cases s with
  | delete sender object i => exact Takes.conclude (deleteInstance_quiet w sender object i) _
  | read object => exact Takes.conclude (readObject_quiet w object) _
  | dump => exact Takes.result ((Quiet.refl w).report _) _
  | links => exact Takes.conclude (consult_quiet w _) _
  | resource object i resource => exact Takes.conclude (readObject_quiet w object) _
  | extract => exact Takes.conclude (consult_quiet w _) _
  | theManagement => exact Takes.conclude (consult_quiet w _) _
  | theBootstrap => exact Takes.conclude (consult_quiet w _) _
  | keyOf identity =>
    have hread := readObject_quiet w ObjectId.security
    simp only [take]
    generalize w.readObject ObjectId.security = read at hread ⊢
    rcases read with ⟨w', fault | _ | securities⟩
    · exact Takes.failed hread _
    · exact Takes.result (hread.report _) _
    · exact Takes.result hread _
  | identityFor peer =>
    have hread := readObject_quiet w ObjectId.security
    simp only [take]
    generalize w.readObject ObjectId.security = read at hread ⊢
    rcases read with ⟨w', fault | _ | securities⟩
    · exact Takes.failed hread _
    · exact Takes.result (hread.report _) _
    · exact Takes.result (hread.report _) _
  | openWithKnown index =>
    have hfound := consult_quiet w (findServers w.hosts)
    simp only [take]
    generalize w.consult (findServers w.hosts) = found at hfound ⊢
    rcases found with ⟨w', fault | servers⟩
    · exact Takes.failed hfound _
    · dsimp only
      split
      · exact Takes.result (hfound.trans (openSession_quiet w' _)) _
      · exact Takes.result hfound _
  | openWith peer => exact Takes.result (openSession_quiet w peer) _
  | await timeout => exact Takes.enterOr (startWait_quiet w timeout) (fun _ => startWait_enters) _
  | finishAtGate sender => exact Takes.result (receiveFinish_quiet w sender) _
  | purgeAtGate sender path => exact Takes.conclude (receiveDelete_quiet w sender path) _
  | finish sender => exact Takes.result ((receiveFinish_quiet w sender).report _) _
  | purge sender path =>
    have hreceived := receiveDelete_quiet w sender path
    simp only [take]
    generalize w.receiveDelete sender path = received at hreceived ⊢
    rcases received with ⟨w', fault | verdict⟩
    · exact Takes.failed hreceived _
    · exact Takes.result (hreceived.report _) _
  | closeSession =>
    have hgate : w.Quiet { w with gate := w.gate.close.gate } := ⟨rfl, rfl, rfl⟩
    exact Takes.result (hgate.report _) _
  | cancelTask name =>
    simp only [take]
    refine withHandle_takes ?_ name
    intro handle
    exact ⟨rfl, rfl, rfl⟩
  | isCancelled name =>
    simp only [take]
    refine withHandle_takes ?_ name
    intro handle
    exact Quiet.refl w
  | advance span =>
    unfold take
    dsimp only
    split
    · split
      · refine ⟨Quiet.refl w, ?_⟩
        rintro _ ⟨⟩
        exact trivial
      · exact Takes.failed (Quiet.refl w) _
    · exact Takes.result (Quiet.refl w) _
  | shutDownTimeline =>
    have hshut : w.Quiet w.shutDownTimeline.1 := ⟨rfl, rfl, rfl⟩
    exact Takes.enterOr hshut (fun _ => shutDownTimeline_enters) _
  | makeEngine values =>
    have hfound := consult_quiet w (findServers w.hosts)
    simp only [take]
    generalize w.consult (findServers w.hosts) = found at hfound ⊢
    rcases found with ⟨w', fault | servers⟩
    · exact Takes.failed hfound _
    · exact Takes.result (hfound.trans (makeEngine_quiet w' _ servers)) _
  | start => exact withEngine_takes fun _ _ => ⟨⟨rfl, rfl, rfl⟩, nofun⟩
  | operate operation =>
    refine withEngine_takes fun e s => ⟨Quiet.refl w, ?_⟩
    rintro _ ⟨⟩
    exact isReflecting_operation (w.setup s.settings) operation
  | engineSessionActive => exact withEngine_takes fun _ _ => Takes.result (Quiet.refl w) _
  | aside work => exact ⟨Quiet.refl w, nofun⟩
  | asideInSession work =>
    refine ⟨Quiet.refl w, fun frame hframe => ?_⟩
    simp only [take] at hframe
    split at hframe <;> cases hframe
  | fail => exact Takes.failed (Quiet.refl w) _
  | _ => exact ⟨⟨rfl, rfl, rfl⟩, nofun⟩

theorem startTask_quiet (w : World) (task : Task) : w.Quiet (w.startTask task).1 := by
  cases task with
  | body name steps => exact ⟨rfl, rfl, rfl⟩
  | work e work =>
    simp only [startTask]
    split
    · split <;> exact Quiet.refl w
    · exact Quiet.refl w

theorem startTask_reflecting (w : World) (task : Task) :
    ∀ frame ∈ (w.startTask task).2, frame.IsReflecting w.hosts := by
  cases task with
  | body name steps => exact List.forall_mem_singleton.mpr trivial
  | work e work =>
    simp only [startTask]
    split
    · split
      · exact List.forall_mem_singleton.mpr (isReflecting_work (w.setup _) work)
      · exact List.forall_mem_singleton.mpr trivial
    · exact List.forall_mem_singleton.mpr trivial

end World
end Lwm2mClient.Scenario
