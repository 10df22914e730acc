import Lwm2mClient.Proofs.Scenario.Silence
import Lwm2mClient.Proofs.Sessions.Attempts

/-!
Messages of bootstrap servers that are out of place: from a host other than that of the peer of
the open session, or while no session is open, or to delete anything but the root. Wherever such a
message comes in between, even between two calls of an operation, it is refused, and but for the
lines of the log everything goes on as if it had never arrived.
-/
namespace Lwm2mClient.Scenario

open Net

/-- A finish or delete message, as it reaches the gate of sessions or the endpoint before it. -/
inductive Inbound where
  | finish (sender : SocketAddress) (atEndpoint : Bool)
  | delete (sender : SocketAddress) (path : String) (atEndpoint : Bool)

namespace Inbound

def step : Inbound → Step
  | finish sender false => .finishAtGate sender
  | finish sender true => .finish sender
  | delete sender path false => .purgeAtGate sender path
  | delete sender path true => .purge sender path

def sender : Inbound → SocketAddress
  | finish sender _ | delete sender _ _ => sender

/-- What is to be deleted. -/
def path? : Inbound → Option String
  | finish .. => none
  | delete _ path _ => some path

/-- What comes of a message that is refused. -/
def refusal (rejection : Rejection) : Inbound → Result
  | finish _ false | delete _ _ false => .verdict (.error rejection)
  | finish _ true => .code (BootstrapEndpoint.finishCode (.error rejection))
  | delete _ _ true => .code (BootstrapEndpoint.deleteCode (.error rejection))

/-- No session is open, or the message is from another host than that of its peer, or it is to
delete something else than the root. -/
def IsStray (m : Inbound) (g : Gate) : Prop :=
  g.peer = none ∨
    (∃ peer ∈ g.peer, ∀ address ∈ peer.address, address.ip ≠ m.sender.ip) ∨
    ∃ path ∈ m.path?, path ≠ "" ∧ path ≠ "/"

instance (m : Inbound) (g : Gate) : Decidable (m.IsStray g) :=
  inferInstanceAs (Decidable (_ ∨ _ ∨ _))

end Inbound

variable {w w' : World} {g : Gate} {m : Inbound}

/-! ### One message -/

theorem Inbound.IsStray.letIn (h : m.IsStray g) :
    (∃ rejection, g.letIn m.sender = .error rejection) ∨
      ∃ path, m.path? = some path ∧ path ≠ "" ∧ path ≠ "/" := by
  cases hlet : g.letIn m.sender with
  | error rejection => exact Or.inl ⟨rejection, rfl⟩
  | ok number =>
    obtain ⟨peer, address, hsession, haddress, hip⟩ := Gate.letIn_eq_ok.mp hlet
    have hpeer : g.peer = some peer := by simp only [Gate.peer, hsession]
    rcases h with hnone | ⟨peer', hpeer', hforeign⟩ | hpath
    · cases hnone.symm.trans hpeer
    · cases hpeer'.symm.trans hpeer
      exact absurd hip (hforeign address haddress)
    · exact Or.inr hpath

theorem Inbound.IsStray.finish {sender : SocketAddress} {atEndpoint : Bool}
    (h : (Inbound.finish sender atEndpoint).IsStray g) :
    ∃ rejection, g.letIn sender = .error rejection := by
  rcases h.letIn with hrefused | ⟨path, hpath, -⟩
  · exact hrefused
  · cases hpath

theorem Inbound.IsStray.delete {sender : SocketAddress} {path : String} {atEndpoint : Bool}
    (h : (Inbound.delete sender path atEndpoint).IsStray g) :
    ∃ rejection, g.acceptsDelete sender path = .error rejection := by
  unfold Gate.acceptsDelete
  rcases h.letIn with ⟨rejection, hrefused⟩ | ⟨_, ⟨⟩, hempty, hroot⟩
  · change g.letIn sender = .error rejection at hrefused
    exact ⟨rejection, by rw [hrefused]⟩
  · cases g.letIn sender with
    | error rejection => exact ⟨rejection, rfl⟩
    | ok number => exact ⟨.notAllowed path, if_neg (not_or.mpr ⟨hempty, hroot⟩)⟩

namespace World

theorem receiveFinish_refused {sender : SocketAddress} {rejection : Rejection}
    (h : w.gate.letIn sender = .error rejection) :
    w.receiveFinish sender = (w.report [], .error rejection) := by
  simp only [receiveFinish, Gate.finish, h]

theorem receiveDelete_refused {sender : SocketAddress} {path : String} {rejection : Rejection}
    (h : w.gate.acceptsDelete sender path = .error rejection) :
    w.receiveDelete sender path = (w, .ok (.error rejection)) := by
  simp only [receiveDelete, h]

/-- A stray message is refused and changes nothing but the lines of the log. -/
theorem take_stray (h : m.IsStray w.gate) :
    (∃ rejection, (w.take m.step).2 = .result (m.refusal rejection)) ∧
      (w.take m.step).1.silent = w.silent := by
  cases m with
  | finish sender atEndpoint =>
    obtain ⟨rejection, hrefused⟩ := h.finish
    have hreceived := receiveFinish_refused hrefused
    cases atEndpoint <;> simp only [Inbound.step, take, hreceived]
    · exact ⟨⟨rejection, rfl⟩, report_silent w []⟩
    · exact ⟨⟨rejection, rfl⟩, by rw [report_silent, report_silent]⟩
  | delete sender path atEndpoint =>
    obtain ⟨rejection, hrefused⟩ := h.delete
    have hreceived := receiveDelete_refused hrefused
    cases atEndpoint <;> simp only [Inbound.step, take, hreceived]
    · exact ⟨⟨rejection, rfl⟩, rfl⟩
    · exact ⟨⟨rejection, rfl⟩, report_silent w _⟩

/-! ### Operations in small pieces -/

/-- A program of an engine after one more call, if that takes no more than an answer. -/
def callOnce (w : World) (e : Nat) : Program Bool → World × Program Bool
  | .done value => (w, .done value)
  | .call .acquire next =>
    if e ∈ w.busy then (w, .call .acquire next) else ({ w with busy := e :: w.busy }, next ())
  | .call .release next => (w.release e, next ())
  | .call c next =>
    match w.answer? (some e) c with
    | some (w', .ok answer) => (w', next answer)
    | _ => (w, .call c next)

theorem callOnce_call {e : Nat} {c : Call} {next : c.Answer → Program Bool}
    (hacquire : c ≠ .acquire) (hrelease : c ≠ .release) :
    w.callOnce e (.call c next) =
      match w.answer? (some e) c with
      | some (w', .ok answer) => (w', next answer)
      | _ => (w, .call c next) := by
  cases c with
  | acquire => exact absurd rfl hacquire
  | release => exact absurd rfl hrelease
  | _ => rfl

/-- An operation that is interrupted after a call goes on to where it would have come. -/
theorem follow_callOnce (w : World) (e : Nat) (p : Program Bool) :
    follow (some e) (w.callOnce e p).2 (w.callOnce e p).1 = follow (some e) p w := by
  cases p with
  | done value => rfl
  | call c next =>
    by_cases hacquire : c = .acquire
    · subst hacquire
      by_cases hbusy : e ∈ w.busy
      · simp only [callOnce, if_pos hbusy]
      · simp only [callOnce, if_neg hbusy, follow]
    · by_cases hrelease : c = .release
      · subst hrelease
        rfl
      · rw [callOnce_call hacquire hrelease, follow_call hacquire hrelease]
        rcases hanswer : w.answer? (some e) c with _ | ⟨w', fault | answer⟩
        · rw [follow_call hacquire hrelease, hanswer]
        · rw [follow_call hacquire hrelease, hanswer]
        · rfl

theorem callOnce_silent (w : World) (e : Nat) (p : Program Bool) :
    w.silent.callOnce e p = hush (w.callOnce e p) := by
  cases p with
  | done value => rfl
  | call c next =>
    by_cases hacquire : c = .acquire
    · subst hacquire
      simp only [callOnce, silent_busy, apply_ite hush]
      rfl
    · by_cases hrelease : c = .release
      · subst hrelease
        rfl
      · rw [callOnce_call hacquire hrelease, callOnce_call hacquire hrelease, answer?_silent]
        rcases w.answer? (some e) c with _ | ⟨w', fault | answer⟩ <;> rfl

/-- The thread that goes on next makes a single call, if it is in the middle of an operation. -/
def interrupt (w : World) : World :=
  match w.takeReady with
  | some (⟨role, .program e p :: rest⟩, w) =>
    let (w, p) := w.callOnce e p
    w.putBack ⟨role, .program e p :: rest⟩
  | _ => w

theorem interrupt_silent (w : World) : w.silent.interrupt = w.interrupt.silent := by
  unfold interrupt
  rw [takeReady_silent]
  rcases w.takeReady with _ | ⟨⟨role, _ | ⟨frame, rest⟩⟩, w'⟩
  · rfl
  · rfl
  · cases frame with
    | program e p =>
      change (w'.silent.callOnce e p).1.putBack
          ⟨role, .program e (w'.silent.callOnce e p).2 :: rest⟩ = _
      rw [callOnce_silent]
      exact putBack_silent (w'.callOnce e p).1 _
    | _ => rfl

end World

/-! ### Runs -/

/-- What happens in a run with strays. -/
inductive Incident where
  | own (happening : Happening)
  /-- The thread that goes on next is interrupted after a call. -/
  | call
  | stray (message : Inbound)

/-- Whether something happens without strays, too. -/
def Incident.isOwn : Incident → Bool
  | stray _ => false
  | _ => true

namespace World

def meet (w : World) : Incident → World
  | .own happening => w.happen happening
  | .call => w.interrupt
  | .stray message => (w.take message.step).1

/-- The world after some incidents. -/
def through (w : World) (incidents : List Incident) : World := incidents.foldl meet w

/-- Every message that comes in between is a stray where it arrives. -/
def AllStray : World → List Incident → Prop
  | _, [] => True
  | w, .stray m :: rest => m.IsStray w.gate ∧ AllStray (w.meet (.stray m)) rest
  | w, i :: rest => AllStray (w.meet i) rest

instance AllStray.decidable :
    (w : World) → (incidents : List Incident) → Decidable (w.AllStray incidents)
  | _, [] => isTrue trivial
  | w, .stray m :: rest =>
    have := AllStray.decidable (w.meet (.stray m)) rest
    inferInstanceAs (Decidable (m.IsStray w.gate ∧ _))
  | w, .own happening :: rest => AllStray.decidable (w.meet (.own happening)) rest
  | w, .call :: rest => AllStray.decidable (w.meet .call) rest

theorem AllStray.of_append {before rest : List Incident} (h : AllStray w (before ++ rest)) :
    AllStray w before ∧ AllStray (w.through before) rest := by
  induction before generalizing w with
  | nil => exact ⟨trivial, h⟩
  | cons i before ih =>
    cases i with
    | stray m => exact ⟨⟨h.1, (ih h.2).1⟩, (ih h.2).2⟩
    | own happening => exact ih h
    | call => exact ih h

theorem meet_silent {i : Incident} (hi : i.isOwn = true) :
    w.silent.meet i = (w.meet i).silent := by
  cases i with
  | own happening => exact happen_silent w happening
  | call => exact interrupt_silent w
  | stray m => cases hi

/-- Worlds that differ in their lines alone stay so, where strays come to one of them. -/
theorem through_silent {incidents : List Incident} (hsame : w.silent = w'.silent)
    (hstray : w.AllStray incidents) :
    (w.through incidents).silent = (w'.through (incidents.filter (·.isOwn))).silent := by
  induction incidents generalizing w w' with
  | nil => exact hsame
  | cons i rest ih =>
    have hgoesOn : i.isOwn = true → (w.meet i).silent = (w'.meet i).silent := by
      intro hi
      rw [← meet_silent hi, ← meet_silent hi, hsame]
    cases i with
    | stray m => exact ih ((take_stray hstray.1).2.trans hsame) hstray.2
    | own happening => exact ih (hgoesOn rfl) hstray
    | call => exact ih (hgoesOn rfl) hstray

/-- Whatever strays come to a client, at whatever moments of its work, each of them is refused,
and at every moment the client, the results of its work, the requests sent and the deletions are
as they would be without them. -/
theorem unseen_of_stray {incidents : List Incident} (hstray : w.AllStray incidents) :
    (∀ before m rest, incidents = before ++ .stray m :: rest →
      ∃ rejection, ((w.through before).take m.step).2 = .result (m.refusal rejection)) ∧
    ∀ before rest, incidents = before ++ rest →
      (w.through before).silent = (w.through (before.filter (·.isOwn))).silent := by
  constructor
  · rintro before m rest rfl
    exact (take_stray hstray.of_append.2.1).1
  · rintro before rest rfl
    exact through_silent rfl hstray.of_append.1

/-- A client with an engine, whose store names a bootstrap server that accepts every Bootstrap
request. -/
def bootstrapWorld : World :=
  { hosts := {}
    level := some .info
    store :=
      ⟨.ofList [(ObjectId.security, Reception.sampleStore),
        (ObjectId.server, .empty ObjectId.server)]⟩
    scheduler := .timeline {}
    engines := #[{ settings := {} }]
    current := some 0
    scripts := [(.bootstrap, [.mk (some ⟨.changed, none⟩) [] false 1])] }

/-- The client bootstraps. A finish arrives before there is a session, a stranger sends one while
the request is on its way, and what the server deletes during the wait is not the root. -/
def bootstrapWithStrays : List Incident :=
  [.own (.begin (.operate .bootstrap)), .own .tick, .call,
    .stray (.finish Reception.sampleServer true), .own .tick,
    .stray (.finish Reception.sampleStranger false), .own .tick, .own .tick, .own .tick,
    .stray (.delete Reception.sampleServer "/3" true),
    .own (.begin (.finish Reception.sampleServer)), .own .tick]

theorem unseen_once_bootstrapped :
    ∃ incidents, bootstrapWorld.AllStray incidents ∧ (incidents.countP fun i => !i.isOwn) = 3 ∧
      (bootstrapWorld.through incidents).sent.size = 1 ∧
      (bootstrapWorld.through incidents).gate.claimed.any (·.finished) ∧
      (bootstrapWorld.through incidents).silent =
        (bootstrapWorld.through (incidents.filter (·.isOwn))).silent := by
  have hstray : bootstrapWorld.AllStray bootstrapWithStrays := by decide +kernel
  refine ⟨bootstrapWithStrays, hstray, rfl, by decide +kernel, by decide +kernel, ?_⟩
  exact (unseen_of_stray hstray).2 _ [] (List.append_nil _).symm

end World
end Lwm2mClient.Scenario
