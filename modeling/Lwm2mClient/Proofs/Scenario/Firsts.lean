import Lwm2mClient.Proofs.Scenario.Requests

/-!
The requests that are noted. Only an operation that asks to send a request adds one, and what was
noted stays until it is told of, so the first request of a step stays the first.
-/
namespace Lwm2mClient.Scenario

open Net

namespace World

variable {w w' : World}

@[simp] theorem report_sent (w : World) (lines : List Log.Line) :
    (w.report lines).sent = w.sent := by
  unfold report
  split <;> rfl

@[simp] theorem readObject_sent (w : World) (object : NumericId) :
    (w.readObject object).1.sent = w.sent := by
  simp only [readObject, apply_ite Prod.fst, apply_ite World.sent, report_sent, ite_self]

@[simp] theorem deleteInstance_sent (w : World) (sender : SocketAddress) (object i : NumericId) :
    (w.deleteInstance sender object i).1.sent = w.sent := by
  unfold deleteInstance removeInstance
  split
  · rfl
  · cases w.disturbance.deny with
    | some code => rfl
    | none =>
      dsimp only
      split
      · exact report_sent _ _
      · rfl

theorem answer?_sent {engine : Option Nat} {c : Call} {reply : Except Fault c.Answer}
    (h : w.answer? engine c = some (w', reply)) : w'.sent = w.sent := by
  cases c with
  | objectIds =>
    cases h
    rfl
  | readObject object => exact congrArg (·.1.sent) (Option.some.inj h) ▸ readObject_sent w object
  | deleteInstance sender object i =>
    exact congrArg (·.1.sent) (Option.some.inj h) ▸ deleteInstance_sent w sender object i
  | shutDownTimeline | acquire | release | send | awaitFinish => cases h
  | _ =>
    cases h
    exact report_sent _ _

@[simp] theorem follow_sent {α : Type} (engine : Option Nat) (p : Program α) (w : World) :
    (follow engine p w).1.sent = w.sent := by
  induction p generalizing w with
  | done value => rfl
  | call c next ih =>
    by_cases hacquire : c = .acquire
    · subst hacquire
      unfold follow
      cases engine with
      | none => exact ih () w
      | some e =>
        dsimp only
        split
        · rfl
        · exact ih () _
    · by_cases hrelease : c = .release
      · subst hrelease
        cases engine with
        | none => exact ih () w
        | some e => exact ih () _
      · rw [follow_call hacquire hrelease]
        rcases hanswer : w.answer? engine c with _ | ⟨w', fault | answer⟩
        · rfl
        · exact answer?_sent hanswer
        · exact (ih answer w').trans (answer?_sent hanswer)

@[simp] theorem consult_sent {α : Type} (w : World) (p : Program α) :
    (w.consult p).1.sent = w.sent := by
  have hfollow := follow_sent none p w
  unfold consult
  generalize follow none p w = paused at hfollow ⊢
  rcases paused with ⟨w', value | fault | ⟨c, next⟩⟩ <;> exact hfollow

theorem receiveDelete_sent (w : World) (sender : SocketAddress) (path : String) :
    (w.receiveDelete sender path).1.sent = w.sent := by
  have hpurged := consult_sent w (Purge.purge sender)
  unfold receiveDelete
  generalize w.consult (Purge.purge sender) = purged at hpurged ⊢
  cases w.gate.acceptsDelete sender path with
  | error rejection => rfl
  | ok accepted => rcases purged with ⟨w', fault | value⟩ <;> exact hpurged

theorem startWait_sent (w : World) (timeout : Duration) :
    (w.startWait timeout).1.sent = w.sent := by
  unfold startWait
  split <;> rfl

theorem conclude_sent {α : Type} (f : α → Result) (p : World × Except Fault α) :
    (conclude f p).1.sent = p.1.sent := by
  rcases p with ⟨w', fault | value⟩ <;> rfl

theorem enterOr_sent (value : Result) (p : World × Option Frame) :
    (enterOr value p).1.sent = p.1.sent := by
  rcases p with ⟨w', _ | frame⟩ <;> rfl

theorem withHandle_sent {f : TaskHandle → World × Result}
    (h : ∀ handle, (f handle).1.sent = w.sent) (name : String) :
    (w.withHandle name f).1.sent = w.sent := by
  unfold withHandle
  split
  · exact h _
  · rfl

theorem withEngine_sent {f : Nat → EngineState → World × Effect}
    (h : ∀ e s, (f e s).1.sent = w.sent) : (w.withEngine f).1.sent = w.sent := by
  unfold withEngine
  split
  · exact h _ _
  · rfl

theorem makeEngine_sent (w : World) (settings : Settings) (servers : Option Servers) :
    (w.makeEngine settings servers).1.sent = w.sent := by
  unfold makeEngine
  split <;> rfl

/-- No step sends a request by itself. -/
@[simp] theorem take_sent (w : World) (s : Step) : (w.take s).1.sent = w.sent := by
  cases s with
  | delete sender object i =>
    exact (conclude_sent _ _).trans (deleteInstance_sent w sender object i)
  | read object => exact (conclude_sent _ _).trans (readObject_sent w object)
  | dump => exact report_sent w _
  | resource object i resource => exact (conclude_sent _ _).trans (readObject_sent w object)
  | links | extract | theManagement | theBootstrap =>
    exact (conclude_sent _ _).trans (consult_sent w _)
  | keyOf identity =>
    have hread := readObject_sent w ObjectId.security
    simp only [take]
    generalize w.readObject ObjectId.security = read at hread ⊢
    rcases read with ⟨w', fault | _ | securities⟩
    · exact hread
    · exact (report_sent w' _).trans hread
    · exact hread
  | identityFor peer =>
    have hread := readObject_sent w ObjectId.security
    simp only [take]
    generalize w.readObject ObjectId.security = read at hread ⊢
    rcases read with ⟨w', fault | _ | securities⟩
    · exact hread
    · exact (report_sent w' _).trans hread
    · exact (report_sent w' _).trans hread
  | openWithKnown index =>
    have hfound := consult_sent w (findServers w.hosts)
    simp only [take]
    generalize w.consult (findServers w.hosts) = found at hfound ⊢
    rcases found with ⟨w', fault | servers⟩
    · exact hfound
    · dsimp only
      split
      · exact (report_sent _ _).trans hfound
      · exact hfound
  | openWith peer => exact report_sent _ _
  | await timeout => exact (enterOr_sent _ _).trans (startWait_sent w timeout)
  | finishAtGate sender => exact report_sent _ _
  | purgeAtGate sender path => exact (conclude_sent _ _).trans (receiveDelete_sent w sender path)
  | finish sender => exact (report_sent _ _).trans (report_sent _ _)
  | purge sender path =>
    have hreceived := receiveDelete_sent w sender path
    simp only [take]
    generalize w.receiveDelete sender path = received at hreceived ⊢
    rcases received with ⟨w', fault | verdict⟩
    · exact hreceived
    · exact (report_sent w' _).trans hreceived
  | closeSession => exact report_sent _ _
  | cancelTask name | isCancelled name =>
    refine withHandle_sent ?_ name
    intro handle
    rfl
  | advance span =>
    simp only [take]
    split
    · split <;> rfl
    · rfl
  | shutDownTimeline => exact enterOr_sent .nothing w.shutDownTimeline
  | makeEngine values =>
    have hfound := consult_sent w (findServers w.hosts)
    simp only [take]
    generalize w.consult (findServers w.hosts) = found at hfound ⊢
    rcases found with ⟨w', fault | servers⟩
    · exact hfound
    · exact (makeEngine_sent w' _ servers).trans hfound
  | start | operate | engineSessionActive => exact withEngine_sent fun _ _ => rfl
  | _ => rfl

theorem startTask_sent (w : World) (task : Task) : (w.startTask task).1.sent = w.sent := by
  cases task with
  | body name steps => rfl
  | work e work =>
    simp only [startTask]
    split
    · split <;> rfl
    · rfl

/-! ### The first request -/

/-- The first of the requests that are noted, without what happened while it was on its way. -/
def first? (w : World) : Option SentRequest := w.sent[0]?.map fun x => { x with steps := [] }

/-- Once there is a first request, it stays. -/
def KeepsFirst (w w' : World) : Prop := ∀ x, w.first? = some x → w'.first? = some x

theorem KeepsFirst.of_sent (h : w'.sent = w.sent) : w.KeepsFirst w' := by
  intro x hx
  rw [first?, h]
  exact hx

theorem KeepsFirst.trans {w'' : World} (h : w.KeepsFirst w')
    (h' : w'.KeepsFirst w'') : w.KeepsFirst w'' :=
  fun x hx => h' x (h x hx)

theorem KeepsFirst.congr {w'' : World} (h : w.KeepsFirst w')
    (hsent : w''.sent = w'.sent) : w.KeepsFirst w'' :=
  h.trans (.of_sent hsent)

theorem noteRequest_keepsFirst (w : World) (peer : SocketAddress) (secure : Bool)
    (request : Request) (timeout : Option Duration) :
    w.KeepsFirst (w.noteRequest peer secure request timeout).1 := by
  intro x hx
  obtain ⟨y, hy, rfl⟩ := Option.map_eq_some_iff.mp hx
  obtain ⟨hlt, -⟩ := Array.getElem?_eq_some_iff.mp hy
  have hpushed : (w.noteRequest peer secure request timeout).1.sent[0]? = some y :=
    (Array.getElem?_push_lt hlt).trans (by rw [← hy, Array.getElem?_eq_getElem hlt])
  rw [first?, hpushed]
  rfl

theorem noteStep_keepsFirst (w : World) (request : Nat) (result : Result) :
    w.KeepsFirst (w.noteStep request result) := by
  unfold noteStep
  split
  · exact .of_sent rfl
  · intro x hx
    obtain ⟨y, hy, rfl⟩ := Option.map_eq_some_iff.mp hx
    simp only [first?, Array.getElem?_modify, hy]
    split <;> rfl

theorem deliver_keepsFirst (w : World) (result : Result) (frames : List Frame) :
    w.KeepsFirst (w.deliver result frames).1 := by
  cases frames with
  | nil => exact .of_sent rfl
  | cons frame rest =>
    cases frame with
    | underway request remaining => exact noteStep_keepsFirst w request result
    | _ => exact .of_sent rfl

theorem unwind_sent (w : World) (frames : List Frame) : (w.unwind frames).1.sent = w.sent := by
  induction frames generalizing w with
  | nil => rfl
  | cons frame rest ih =>
    cases frame with
    | advance | serve => rfl
    | reply e outcome next => exact ih (w.release e)
    | _ => exact ih w

theorem ask_keepsFirst (w : World) (e : Nat) (rest : List Frame) (c : Call)
    (next : c.Answer → Program Bool) : w.KeepsFirst (w.ask e rest c next).1 := by
  cases c with
  | send peer secure request timeout =>
    have hnoted := noteRequest_keepsFirst w peer secure request timeout
    simp only [ask]
    split <;> exact hnoted.congr rfl
  | awaitFinish timeout =>
    have hstarted := startWait_sent w timeout
    simp only [ask]
    generalize w.startWait timeout = started at hstarted ⊢
    rcases started with ⟨w', _ | wait⟩ <;> exact .of_sent hstarted
  | shutDownTimeline =>
    simp only [ask, shutDownTimeline]
    split <;> rename_i heq <;> exact .of_sent (congrArg (·.1.sent) heq).symm
  | _ => exact .of_sent rfl

theorem takeStep_sent (w : World) (s : Step) (after : Frame) (rest : List Frame) :
    (w.takeStep s after rest).1.sent = w.sent := by
  have htaken := take_sent w s
  simp only [takeStep]
  generalize w.take s = taken at htaken ⊢
  rcases taken with ⟨w', value | frame | work | fault⟩ <;> exact htaken

theorem move_keepsFirst (w : World) (frame : Frame) (rest : List Frame) :
    w.KeepsFirst (w.move frame rest).1 := by
  cases frame with
  | program e p =>
    have hfollowed := follow_sent (some e) p w
    simp only [move]
    generalize follow (some e) p w = paused at hfollowed ⊢
    rcases paused with ⟨w', value | fault | ⟨c, next⟩⟩
    · exact .of_sent hfollowed
    · exact .of_sent hfollowed
    · exact (KeepsFirst.of_sent hfollowed).trans (ask_keepsFirst w' e rest c next)
  | reply e outcome next => cases outcome <;> exact .of_sent rfl
  | steps remaining | body _ remaining | underway _ remaining =>
    cases remaining with
    | nil => exact .of_sent rfl
    | cons s ss => exact .of_sent (takeStep_sent w s _ rest)
  | advance target started =>
    simp only [move]
    split
    · split
      · exact .of_sent (startTask_sent _ _)
      · exact .of_sent rfl
    · exact .of_sent rfl
  | serve =>
    simp only [move]
    split
    · exact .of_sent rfl
    · split
      · exact .of_sent (startTask_sent _ _)
      · exact .of_sent rfl
      · exact .of_sent rfl
  | _ => exact .of_sent rfl

theorem turn_keepsFirst (w : World) (t : Thread) : w.KeepsFirst (w.turn t) := by
  obtain ⟨role, _ | ⟨frame, rest⟩⟩ := t
  · exact .of_sent rfl
  · have hmoved := move_keepsFirst w frame rest
    simp only [turn]
    generalize w.move frame rest = moved at hmoved ⊢
    obtain ⟨w', frames | ⟨result, _ | ⟨behind, others⟩⟩ | ⟨fault, frames⟩ | ⟨work, frames⟩⟩ :=
      moved
    · exact hmoved.congr (putBack_sent w' _)
    · exact hmoved.congr rfl
    · exact (hmoved.trans (deliver_keepsFirst w' result _)).congr (putBack_sent _ _)
    · have hunwound := unwind_sent w' frames
      dsimp only
      generalize w'.unwind frames = unwound at hunwound ⊢
      rcases unwound with ⟨w'', _ | ⟨behind, others⟩⟩
      · exact hmoved.congr hunwound
      · exact hmoved.congr ((putBack_sent _ _).trans ((report_sent w'' _).trans hunwound))
    · exact (hmoved.trans (deliver_keepsFirst w' .nothing frames)).congr (spawn_sent _ work _)

theorem tick_keepsFirst (w : World) : w.KeepsFirst w.tick := by
  unfold tick
  cases hready : w.takeReady with
  | none =>
    dsimp only
    split <;> exact .of_sent rfl
  | some ready =>
    obtain ⟨t, w'⟩ := ready
    obtain ⟨blocked, others, -, rfl⟩ := takeReady_eq_some hready
    have htaken : w.KeepsFirst { w with threads := blocked ++ others } := .of_sent rfl
    exact htaken.trans (turn_keepsFirst _ t)

theorem runUntil_keepsFirst (stop : World → Bool) (moves : Nat) (w : World) :
    w.KeepsFirst (runUntil stop moves w) := by
  induction moves generalizing w with
  | zero => exact .of_sent rfl
  | succ n ih =>
    unfold runUntil
    split
    · exact .of_sent rfl
    · exact (tick_keepsFirst w).trans (ih w.tick)

end World
end Lwm2mClient.Scenario
