import Lwm2mClient.Proofs.Engine.Reads
import Lwm2mClient.Proofs.Service.Bodies
import Lwm2mClient.Proofs.Service.Coherence
import Lwm2mClient.Proofs.Service.Monitored
import Lwm2mClient.Proofs.Sessions.Heralds

/-!
Where the registration id in a request comes from. The history of a service tells which id the
servers have granted last and whether the registration was lost since. An operation may know
better for a moment, between an answer and the change of what the client keeps, but wherever it
asks something of its surroundings, and so wherever it can be abandoned, the client keeps exactly
the id that the history tells.
-/
namespace Lwm2mClient

/-- The id of the registration that a request is about. -/
def Request.registration? : Request → Option String
  | update id | deregister id => some id
  | register .. | bootstrap _ => none

/-- Whether a line tells that the registration is lost: by a registration or an update that
failed, or by a bootstrap that failed in its session. A bootstrap for which no session could
be opened changes nothing. -/
def Log.Line.tellsLoss : Log.Line → Bool
  | registrationFailed _ | updateTimedOut | updateFailed _ | bootstrapTimedOut
  | bootstrapUnfinished _ | bootstrapRefused _ => true
  | _ => false

/-- The id that a server grants with an answer. -/
def Call.granted? : (c : Call) → c.Answer → Option String
  | .send _ _ (.register ..) _, some ⟨.created, some id⟩ => some id
  | _, _ => none

/-- Whether a call is a Bootstrap request. -/
def Call.isBootstrap : Call → Bool
  | .send _ _ (.bootstrap _) _ => true
  | _ => false

/-- Whether a server takes the registration back with an answer, or knows of none. -/
def Call.isTakenBack : (c : Call) → c.Answer → Bool
  | .send _ _ (.deregister _) _, some response => response.code = .deleted ∨
      response.code = .notFound
  | _, _ => false

namespace Service

open Net Engine Program

/-- Whether a job that ends with a result leaves no registration behind. -/
def Job.losesWith : Job → Bool → Bool
  | operation .register, result | operation .update, result => !result
  | operation .deregister, result | operation .stop, result | operation .shutdown, result =>
    result
  | _, _ => false

namespace Event

/-- A Register request was answered Created, with an id. -/
def Grants (e : Event) (id : String) : Prop :=
  ∃ peer secure endpoint lifetime binding links timeout now,
    e = .answered (.send peer secure (.register endpoint lifetime binding links) timeout)
      (some ⟨.created, some id⟩) now

def granted? : Event → Option String
  | answered c a _ => c.granted? a
  | _ => none

/-- Whether an event tells that there is no registration any more. -/
def isLoss : Event → Bool
  | reported line => line.tellsLoss
  | answered c a _ => c.isTakenBack a
  | ended job result => job.losesWith result
  | _ => false

/-- The id that counts after an event. -/
def settle (e : Event) (id : Option String) : Option String :=
  if e.isLoss then none else e.granted?.or id

theorem granted?_eq_some {e : Event} {id : String} : e.granted? = some id ↔ e.Grants id := by
  constructor
  · intro h
    cases e with
    | answered c a now =>
      cases c with
      | send peer secure request timeout =>
        cases request with
        | register endpoint lifetime binding links =>
          cases a with
          | none => cases h
          | some response =>
            obtain ⟨code, registration⟩ := response
            cases code <;> cases registration <;> cases h
            exact ⟨_, _, _, _, _, _, _, _, rfl⟩
        | _ => cases h
      | _ => cases h
    | _ => cases h
  · rintro ⟨peer, secure, endpoint, lifetime, binding, links, timeout, now, rfl⟩
    rfl

theorem granted?_eq_none {e : Event} (h : e.granted? = none) (id : String) : ¬e.Grants id := by
  intro hgrants
  rw [granted?_eq_some.mpr hgrants] at h
  cases h

theorem settle_reported (line : Log.Line) (id : Option String) :
    (reported line).settle id = if line.tellsLoss then none else id := rfl

theorem settle_of_isAside {e : Event} (h : e.isAside = true) (id : Option String) :
    e.settle id = id := by
  unfold isAside at h
  split at h
  · rfl
  · rfl
  · rfl
  · rfl
  · rfl
  · cases h

end Event

/-- The id of the registration that a history tells of. -/
def heldId : List Event → Option String
  | [] => none
  | e :: before => e.settle (heldId before)

/-- The id that a history tells of was granted in it, and was neither lost nor replaced since. -/
theorem heldId_eq_some {history : List Event} {id : String} (h : heldId history = some id) :
    ∃ since e before, history = since ++ e :: before ∧ e.Grants id ∧
      ∀ e' ∈ since, (∀ id', ¬e'.Grants id') ∧ e'.isLoss = false := by
  induction history with
  | nil => cases h
  | cons e before ih =>
    rw [heldId, Event.settle] at h
    split at h
    · cases h
    · rename_i hkept
      cases hgranted : e.granted? with
      | some granted =>
        rw [hgranted] at h
        cases h
        refine ⟨[], e, before, rfl, Event.granted?_eq_some.mp hgranted, ?_⟩
        intro e' he'
        cases he'
      | none =>
        rw [hgranted, Option.none_or] at h
        obtain ⟨since, e₀, earlier, hbefore, hgrants, hsince⟩ := ih h
        refine ⟨e :: since, e₀, earlier, by rw [hbefore]; rfl, hgrants, ?_⟩
        intro e' he'
        rcases List.mem_cons.mp he' with rfl | hlater
        · exact ⟨Event.granted?_eq_none hgranted, Bool.eq_false_iff.mpr hkept⟩
        · exact hsince e' hlater

theorem heldId_of_settled {events before : List Event}
    (h : ∀ e ∈ events, ∀ id, e.settle id = id) : heldId (events ++ before) = heldId before := by
  induction events with
  | nil => rfl
  | cons e rest ih =>
    rw [List.cons_append, heldId, h e List.mem_cons_self]
    exact ih fun e' he' => h e' (List.mem_cons_of_mem e he')

/-! ### The monitor -/

/-- The id that the client keeps, and the one that the history tells of. -/
structure Holding where
  kept : Option String
  told : Option String

def Holding.Agrees (x : Holding) : Prop := x.kept = x.told

/-- Wherever an operation asks something of its surroundings the client keeps the id that the
history tells of, and its requests carry no other id. -/
def provenance : Monitor Holding where
  permits x
    | .send _ _ request _ => x.Agrees ∧ ∀ id, request.registration? = some id → x.told = some id
    | .objectIds | .readObject _ | .deleteInstance .. | .awaitFinish _ => x.Agrees
    | .acquire | .release => False
    | _ => True
  moves x c a x' :=
    match c with
    | .registration => a.id = x.kept ∧ x' = x
    | .setRegistration r => x' = { x with kept := r.id }
    | .log line => x' = { x with told := (Event.reported line).settle x.told }
    | c => x' = { x with told := (Event.answered c a .zero).settle x.told }

section

variable {α : Type} {setup : Setup} {x : Holding}

theorem keeps_reading {p : Program α} {mid : α → Prop} {post : α → Holding → Prop} (hx : x.Agrees)
    (hp : p.Asks Call.isReading mid) (h : ∀ v, post v x) : p.Keeps provenance post x := by
  refine Keeps.of_still hp (fun c hc => ?_) h
  cases c with
  | log line =>
    refine ⟨trivial, ?_⟩
    rintro a x' rfl
    have hline : line.isFinding = true := hc
    cases line <;> first | rfl | cases hline
  | objectIds | readObject =>
    refine ⟨hx, ?_⟩
    rintro a x' rfl
    rfl
  | _ => exact absurd hc id

theorem keeps_line {line : Log.Line} {post : Unit → Holding → Prop}
    (hline : line.tellsLoss = false) (h : post () x) : (log line).Keeps provenance post x := by
  refine Keeps.perform trivial ?_
  rintro ⟨⟩ x' rfl
  rw [Event.settle_reported, hline]
  exact h

theorem keeps_loss {line : Log.Line} {post : Unit → Holding → Prop}
    (hline : line.tellsLoss = true) (h : post () { x with told := none }) :
    (log line).Keeps provenance post x := by
  refine Keeps.perform trivial ?_
  rintro ⟨⟩ x' rfl
  rw [Event.settle_reported, hline]
  exact h

theorem keeps_registration {post : Registration → Holding → Prop}
    (h : ∀ r, r.id = x.kept → post r x) : registration.Keeps provenance post x := by
  refine Keeps.perform trivial ?_
  rintro r x' ⟨hr, rfl⟩
  exact h r hr

theorem keeps_setRegistration {r : Registration} {post : Unit → Holding → Prop}
    (h : post () { x with kept := r.id }) :
    (Program.perform (.setRegistration r)).Keeps provenance post x := by
  refine Keeps.perform trivial ?_
  rintro ⟨⟩ x' rfl
  exact h

theorem keeps_modify {f : Registration → Registration} {id : Option String}
    {post : Unit → Holding → Prop} (hf : ∀ r, r.id = x.kept → (f r).id = id)
    (h : post () { x with kept := id }) : (modify f).Keeps provenance post x := by
  refine Keeps.bind (keeps_registration fun r hr => keeps_setRegistration ?_)
  rw [hf r hr]
  exact h

theorem keeps_fire {event : LifecycleEvent} {post : Unit → Holding → Prop} (h : post () x) :
    (fire event).Keeps provenance post x := by
  refine Keeps.bind (keeps_registration fun r hr => ?_)
  have hset : ∀ next, (Program.perform (.setRegistration { r with lifecycle := next })).Keeps
      provenance post x := by
    intro next
    refine keeps_setRegistration ?_
    rw [show ({ r with lifecycle := next } : Registration).id = x.kept from hr]
    exact h
  split
  · split
    · exact Keeps.bind (keeps_line rfl (hset _))
    · exact hset _
  · exact keeps_line rfl h

theorem keeps_cancelAny {handle : Option TaskHandle} {post : Unit → Holding → Prop}
    (h : post () x) : (cancelAny handle).Keeps provenance post x := by
  cases handle with
  | none => exact h
  | some handle =>
    refine Keeps.perform trivial ?_
    rintro ⟨⟩ x' rfl
    exact h

theorem keeps_cancelRenewal {post : Unit → Holding → Prop} (h : post () x) :
    cancelRenewal.Keeps provenance post x := by
  refine Keeps.bind (keeps_registration fun r hr => Keeps.bind (keeps_setRegistration ?_))
  rw [show ({ r with generation := r.generation + 1, renewal := none } : Registration).id = x.kept
    from hr]
  exact keeps_cancelAny h

theorem keeps_planRenewal {lifetime : UInt64} {post : Unit → Holding → Prop} (h : post () x) :
    (planRenewal setup lifetime).Keeps provenance post x := by
  refine Keeps.bind (keeps_line rfl (Keeps.bind (keeps_modify (fun r hr => hr) (Keeps.bind ?_))))
  refine keeps_registration fun r hr => Keeps.bind (Keeps.perform trivial ?_)
  rintro handle x' rfl
  refine Keeps.bind (keeps_setRegistration ?_)
  rw [show ({ r with renewal := some handle } : Registration).id = x.kept from hr]
  exact keeps_cancelAny h

theorem keeps_forget {post : Unit → Holding → Prop} (h : post () { x with kept := none }) :
    forget.Keeps provenance post x :=
  Keeps.bind (keeps_modify (fun _ _ => rfl) (Keeps.bind (keeps_cancelRenewal (keeps_fire h))))

theorem keeps_ask {server : ManagementServer} {request : Request}
    {post : Except Error Response → Holding → Prop} (hx : x.Agrees)
    (hid : ∀ id, request.registration? = some id → x.told = some id)
    (hunsent : ∀ e, e.isLocal = true → post (.error e) x)
    (hanswer : ∀ address answer, post (answer.elim (.error .timeout) .ok)
      { x with told := (Event.answered (.send address server.info.isSecure request
        setup.settings.requestTimeout) answer .zero).settle x.told }) :
    (ask setup server request).Keeps provenance post x := by
  unfold ask
  split
  · rename_i e he
    exact hunsent e (requireAddress_failsLocally server.info e he)
  · rename_i address _
    refine Keeps.bind (keeps_line rfl (Keeps.bind (Keeps.perform ⟨hx, hid⟩ ?_)))
    rintro answer x' rfl
    have h := hanswer address answer
    cases answer <;> exact h

/-! ### Operations -/

theorem keeps_sendRegister {post : Except Error (String × UInt64) → Holding → Prop}
    (hx : x.Agrees) (herror : ∀ e, post (.error e) x)
    (hgranted : ∀ id lifetime, post (.ok (id, lifetime)) { x with told := some id }) :
    (sendRegister setup).Keeps provenance post x := by
  refine Keeps.bind (keeps_reading hx (requireManagement_reads setup) fun found => ?_)
  cases found with
  | error e => exact herror e
  | ok server =>
    dsimp only
    split
    · exact herror _
    · rename_i lifetime binding _
      refine Keeps.bind (keeps_reading hx describeObjects_reads fun links => Keeps.bind ?_)
      refine keeps_ask hx (by intro id h; cases h) (fun e _ => herror e) fun address answer => ?_
      cases answer with
      | none => exact herror .timeout
      | some response =>
        obtain ⟨code, granted⟩ := response
        refine Keeps.bind ?_
        cases code <;> first | exact herror _ | cases granted
        · exact Keeps.bind (keeps_line rfl (herror _))
        · exact hgranted _ lifetime

theorem keeps_registerNow {post : Bool → Holding → Prop} (hx : x.Agrees)
    (hpost : ∀ result x', x'.Agrees → (result = false → x'.told = none) → post result x') :
    (registerNow setup).Keeps provenance post x := by
  rw [registerNow_eq]
  refine Keeps.bind (keeps_fire (Keeps.bind (keeps_sendRegister hx ?_ ?_)))
  · intro e
    refine Keeps.bind (keeps_loss rfl (Keeps.bind (keeps_forget ?_)))
    exact hpost false _ rfl fun _ => rfl
  · intro id lifetime
    refine Keeps.bind (keeps_line rfl (Keeps.bind (keeps_modify (fun _ _ => rfl) ?_)))
    refine Keeps.bind (keeps_planRenewal (Keeps.bind (keeps_fire ?_)))
    exact hpost true _ rfl (by simp)

theorem keeps_awaitBootstrap {answer : Option Response} {post : Bool → Holding → Prop}
    (hx : x.Agrees) (hfinished : post true x) (hfailed : post false { x with told := none }) :
    (awaitBootstrap setup answer).Keeps provenance post x := by
  refine Keeps.awaitBootstrap (keeps_loss rfl hfailed) (fun _ => keeps_loss rfl hfailed)
    (keeps_line rfl (Keeps.perform hx ?_))
  rintro finished x' rfl
  cases finished with
  | true => exact hfinished
  | false => exact keeps_loss rfl hfailed

/-- A bootstrap that does not reach its goal leaves no registration behind, unless nothing has
changed. -/
theorem keeps_bootstrapNow {post : Bool → Holding → Prop} (hx : x.Agrees)
    (hpost : ∀ result x', x'.Agrees → (result = false → x'.told = none ∨ x' = x) →
      post result x') : (bootstrapNow setup).Keeps provenance post x := by
  have hunchanged : post false x := hpost false x hx fun _ => Or.inr rfl
  refine Keeps.bind (keeps_reading hx (requireBootstrap_reads setup) fun found => ?_)
  cases found with
  | error e => exact Keeps.bind (keeps_line rfl hunchanged)
  | ok found =>
    refine Keeps.bind (Keeps.perform trivial ?_)
    rintro opened x' rfl
    cases opened with
    | false => exact Keeps.bind (keeps_line rfl hunchanged)
    | true =>
      refine Keeps.bind (keeps_fire (Keeps.bind (Keeps.perform ⟨hx, by intro id h; cases h⟩ ?_)))
      rintro answer x' rfl
      refine Keeps.bind (keeps_awaitBootstrap hx ?_ ?_)
      · refine Keeps.bind (Keeps.perform trivial ?_)
        rintro ⟨⟩ x' rfl
        refine Keeps.bind (keeps_line rfl (keeps_registerNow hx fun result x' hx' hlost => ?_))
        exact hpost result x' hx' fun h => Or.inl (hlost h)
      · refine Keeps.bind (Keeps.perform trivial ?_)
        rintro ⟨⟩ x' rfl
        refine Keeps.bind (keeps_forget ?_)
        exact hpost false _ rfl fun _ => Or.inl rfl

/-- Once there is no registration, a bootstrap that does not reach its goal leaves it so. -/
theorem keeps_bootstrapNow_unheld {post : Bool → Holding → Prop} (hx : x.Agrees)
    (hnone : x.told = none)
    (hpost : ∀ result x', x'.Agrees → (result = false → x'.told = none) → post result x') :
    (bootstrapNow setup).Keeps provenance post x := by
  refine keeps_bootstrapNow hx fun result x' hx' hlost => hpost result x' hx' fun h => ?_
  rcases hlost h with hlost | rfl
  · exact hlost
  · exact hnone

/-- A registration, and a bootstrap where it fails. -/
theorem keeps_registerOrBootstrap {post : Bool → Holding → Prop} (hx : x.Agrees)
    (hpost : ∀ result x', x'.Agrees → (result = false → x'.told = none) → post result x') :
    (registerNow setup >>= fun registered =>
      if registered = true then pure true else bootstrapNow setup).Keeps provenance post x := by
  refine Keeps.bind (keeps_registerNow hx fun registered x' hx' hlost => ?_)
  cases registered with
  | true => exact hpost true x' hx' (by simp)
  | false => exact keeps_bootstrapNow_unheld hx' (hlost rfl) hpost

theorem keeps_sendUpdate {id : String} {post : Except Error UInt64 → Holding → Prop}
    (hx : x.Agrees) (hid : x.told = some id) (h : ∀ outcome, post outcome x) :
    (sendUpdate setup id).Keeps provenance post x := by
  refine Keeps.bind (keeps_reading hx (requireManagement_reads setup) fun found => ?_)
  cases found with
  | error e => exact h _
  | ok server =>
    dsimp only
    split
    · exact h _
    · refine Keeps.bind (keeps_ask hx ?_ (fun e _ => h _) fun address answer => ?_)
      · rintro _ ⟨⟩
        exact hid
      · cases answer with
        | none => exact h _
        | some response =>
          dsimp only [Option.elim]
          split <;> exact h _

theorem keeps_updateNow {post : Bool → Holding → Prop} (hx : x.Agrees)
    (hpost : ∀ result x', x'.Agrees → (result = false → x'.told = none) → post result x') :
    (updateNow setup).Keeps provenance post x := by
  refine Keeps.bind (keeps_cancelRenewal (Keeps.bind (keeps_registration fun r hr => ?_)))
  split
  · rename_i hnone
    refine Keeps.bind (keeps_line rfl (hpost false x hx fun _ => ?_))
    rw [← hx, ← hr, hnone]
  · rename_i id hid
    have htold : x.told = some id := by rw [← hx, ← hr, hid]
    refine Keeps.bind (keeps_fire (Keeps.bind (keeps_sendUpdate hx htold fun outcome => ?_)))
    split
    · refine Keeps.bind (keeps_line rfl (Keeps.bind (keeps_planRenewal ?_)))
      exact Keeps.bind (keeps_fire (hpost true x hx (by simp)))
    · refine Keeps.bind (keeps_loss rfl (Keeps.bind (keeps_forget ?_)))
      exact keeps_bootstrapNow_unheld rfl rfl hpost
    · exact Keeps.bind (keeps_line rfl (keeps_registerOrBootstrap hx hpost))
    · refine Keeps.bind (keeps_loss rfl (Keeps.bind (keeps_forget ?_)))
      exact hpost false _ rfl fun _ => rfl

theorem keeps_startNow {post : Bool → Holding → Prop} (hx : x.Agrees)
    (hpost : ∀ result x', x'.Agrees → post result x') :
    (startNow setup).Keeps provenance post x := by
  refine Keeps.bind (keeps_line rfl (Keeps.bind ?_))
  refine keeps_reading hx (knowsManagement_reads setup) fun known => ?_
  split
  · exact keeps_registerOrBootstrap hx fun result x' hx' _ => hpost result x' hx'
  · exact keeps_bootstrapNow hx fun result x' hx' _ => hpost result x' hx'

theorem keeps_renew {generation : Nat} {post : Bool → Holding → Prop} (hx : x.Agrees)
    (hpost : ∀ result x', x'.Agrees → post result x') :
    (renew setup generation).Keeps provenance post x := by
  refine Keeps.bind (keeps_registration fun r _ => ?_)
  split
  · exact Keeps.bind (keeps_line rfl (hpost false x hx))
  · exact keeps_updateNow hx fun result x' hx' _ => hpost result x' hx'

theorem keeps_sendDeregister {server : ManagementServer} {id : String}
    {post : Bool → Holding → Prop} (hx : x.Agrees) (hid : x.told = some id)
    (hpost : ∀ result x', x'.Agrees → (result = true → x'.told = none) → post result x') :
    (sendDeregister setup server id).Keeps provenance post x := by
  have hretained : ∀ line, line.tellsLoss = false →
      (log line >>= fun _ => fire .retained >>= fun _ => pure false).Keeps provenance post x := by
    intro line hline
    exact Keeps.bind (keeps_line hline (Keeps.bind (keeps_fire (hpost false x hx (by simp)))))
  refine Keeps.bind (keeps_ask hx ?_ (fun e _ => hretained _ rfl) fun address answer => ?_)
  · rintro _ ⟨⟩
    exact hid
  · cases answer with
    | none => exact hretained _ rfl
    | some response =>
      dsimp only [Option.elim]
      split
      · rename_i hcode
        refine Keeps.bind
          (keeps_line rfl (Keeps.bind (keeps_forget (hpost true _ ?_ fun _ => ?_)))) <;>
          simp [Holding.Agrees, Event.settle, Event.isLoss, Call.isTakenBack, hcode]
      · rename_i hcode
        have hsettle : (Event.answered (.send address server.info.isSecure (.deregister id)
            setup.settings.requestTimeout) (some response) .zero).settle x.told = x.told := by
          simp [Event.settle, Event.isLoss, Call.isTakenBack, hcode,
            Event.granted?, Call.granted?]
        rw [hsettle]
        exact hretained _ rfl

theorem keeps_deregisterNow {post : Bool → Holding → Prop} (hx : x.Agrees)
    (hpost : ∀ result x', x'.Agrees → (result = true → x'.told = none) → post result x') :
    (deregisterNow setup).Keeps provenance post x := by
  refine Keeps.bind (keeps_registration fun r hr => ?_)
  split
  · rename_i hnone
    exact hpost true x hx fun _ => by rw [← hx, ← hr, hnone]
  · rename_i id hid
    have htold : x.told = some id := by rw [← hx, ← hr, hid]
    refine Keeps.bind (keeps_reading hx (requireManagement_reads setup) fun found => ?_)
    cases found with
    | error e => exact Keeps.bind (keeps_line rfl (hpost false x hx (by simp)))
    | ok server => exact Keeps.bind (keeps_fire (keeps_sendDeregister hx htold hpost))

/-- Where a job ends, the client keeps the id that the history tells of, and none if the job has
lost it. -/
def Resolved (job : Job) (result : Bool) (x : Holding) : Prop :=
  x.Agrees ∧ (job.losesWith result = true → x.told = none)

theorem keeps_body (job : Job) (hx : x.Agrees) :
    (job.body setup).Keeps provenance (Resolved job) x := by
  have hstop : ∀ job : Job, (∀ result, job.losesWith result = result) →
      (deregisterNow setup >>= fun result => cancelRenewal >>= fun _ => pure result).Keeps
        provenance (Resolved job) x := by
    intro job hjob
    refine Keeps.bind (keeps_deregisterNow hx fun result x' hx' hlost => ?_)
    exact Keeps.bind (keeps_cancelRenewal ⟨hx', fun h => hlost (hjob result ▸ h)⟩)
  cases job with
  | task due number work =>
    cases work with
    | start => exact keeps_startNow hx fun result x' hx' => ⟨hx', by simp [Job.losesWith]⟩
    | renewal generation => exact keeps_renew hx fun result x' hx' =>
      ⟨hx', by simp [Job.losesWith]⟩
  | operation o =>
    cases o with
    | register =>
      refine keeps_registerNow hx fun result x' hx' hlost => ⟨hx', fun h => hlost ?_⟩
      simpa [Job.losesWith] using h
    | update =>
      refine keeps_updateNow hx fun result x' hx' hlost => ⟨hx', fun h => hlost ?_⟩
      simpa [Job.losesWith] using h
    | bootstrap => exact keeps_bootstrapNow hx fun result x' hx' _ =>
      ⟨hx', by simp [Job.losesWith]⟩
    | deregister => exact keeps_deregisterNow hx fun result x' hx' hlost => ⟨hx', hlost⟩
    | stop => exact hstop (.operation .stop) fun _ => rfl
    | shutdown => exact hstop (.operation .shutdown) fun _ => rfl

end

/-! ### Runs -/

/-- Where the client and the history are as a state of the monitor says. -/
def Holding.IsAt (x : Holding) (client : Client Task) (history : List Event) : Prop :=
  client.registration.id = x.kept ∧ heldId history = x.told

theorem Holding.isAt_of_lines {x : Holding} {client client' : Client Task} {history : List Event}
    {lines : List Log.Line} (hx : x.IsAt client history)
    (hregistration : client'.registration = client.registration)
    (hlines : ∀ line ∈ lines, line.tellsLoss = false) :
    x.IsAt client' (lines.reverse.map .reported ++ history) := by
  refine ⟨hregistration ▸ hx.1, (heldId_of_settled fun e he id => ?_).trans hx.2⟩
  obtain ⟨line, hline, rfl⟩ := List.mem_map.mp he
  rw [Event.settle_reported, hlines line (List.mem_reverse.mp hline)]
  rfl

theorem provenance_sees : Sees provenance Holding.IsAt where
  ofTurn x c hc := by
    constructor <;> rintro rfl <;> exact hc
  reply x client history c reply hx hc hreply := by
    cases c with
    | log line =>
      cases hreply
      refine ⟨{ x with told := (Event.reported line).settle x.told }, rfl, hx.1, ?_⟩
      rw [← hx.2]
      rfl
    | registration =>
      cases hreply
      exact ⟨x, ⟨hx.1, rfl⟩, hx⟩
    | setRegistration r =>
      cases hreply
      exact ⟨{ x with kept := r.id }, rfl, rfl, hx.2⟩
    | openSession peer =>
      cases hreply
      refine ⟨x, rfl, Holding.isAt_of_lines hx rfl fun line hline => ?_⟩
      simp only [Gate.tryOpen] at hline
      split at hline <;> simp_all [Log.Line.tellsLoss]
    | closeSession =>
      cases hreply
      refine ⟨x, rfl, Holding.isAt_of_lines hx rfl fun line hline => ?_⟩
      simp only [Gate.close] at hline
      split at hline <;> simp_all [Log.Line.tellsLoss]
    | sessionActive | schedule | cancelTask | shutDownTimeline =>
      cases hreply
      exact ⟨x, rfl, hx⟩
    | _ => cases hreply

/-- While no operation is in progress the client has the id that the history tells of. -/
def HasTold (client : Client Task) (history : List Event) : Prop :=
  client.registration.id = heldId history

theorem provenance_serves (setup : Setup) :
    Serves setup provenance Holding.IsAt Resolved HasTold where
  replies := provenance_sees
  begins job client history h :=
  ⟨⟨client.registration.id, heldId history⟩, ⟨rfl, rfl⟩, keeps_body job h⟩
  hears x client history c a clock hx hc hasked := by
    refine ⟨{ x with told := (Event.answered c a clock).settle x.told }, ?_, hx.1, ?_⟩
    · cases c <;> first | rfl | cases hasked
    · rw [← hx.2]
      rfl
  ends job result x client history hx hend := by
    obtain ⟨hagrees, hlost⟩ := hend
    rw [HasTold, hx.1, hagrees, heldId, hx.2]
    by_cases hloses : job.losesWith result = true
    · rw [hlost hloses]
      exact (ite_self none).symm
    · exact (if_neg hloses).symm

/-- What a service keeps in every run. -/
structure Accounted (setup : Setup) (s : Service) : Prop where
  inv : Inv setup s
  monitored : Monitored provenance Holding.IsAt Resolved HasTold s

namespace Accounted

variable {setup : Setup} {s s' : Service}

theorem step {input : Input} (h : Accounted setup s) (hstep : step setup s input = some s') :
    Accounted setup s' := by
  refine ⟨h.inv.step hstep, ?_⟩
  cases input with
  | turn index => exact (provenance_serves setup).turn h.monitored h.inv.waiting hstep
  | answer answer => exact (provenance_serves setup).answer h.monitored hstep
  | fail =>
    -- The call that fails is one to the surroundings, where nothing is held that was not told.
    obtain ⟨job, c, next, hcurrent, hfails, rfl⟩ := step_fail hstep
    obtain ⟨c', next', x, hasked, hrest, hx, hpermits, -⟩ := h.monitored.busy _ hcurrent
    dsimp only at hrest
    cases hrest
    have hagrees : x.Agrees := by
      cases c <;> first | exact hpermits | exact hpermits.1 | cases hasked
    exact ⟨fun _ => hx.1.trans (hagrees.trans hx.2.symm), fun thread hthread => by cases hthread⟩
  | _ =>
    obtain ⟨hcurrent, hregistration, -, events, hevents, haside⟩ := step_aside hstep rfl
    have hheld : heldId s'.history = heldId s.history := by
      rw [hevents]
      exact heldId_of_settled fun e he => Event.settle_of_isAside (haside e he)
    refine h.monitored.aside hcurrent (fun hrests => ?_) fun x hx => ?_
    · rw [HasTold, hregistration, hheld]
      exact hrests
    · exact ⟨hregistration ▸ hx.1, hheld.trans hx.2⟩

theorem of_run {scheduler : Scheduler Task} {inputs : List Input}
    (hfresh : scheduler = .timeline {} ∨ scheduler = .worker {})
    (hrun : run setup (initial scheduler) inputs = some s) : Accounted setup s := by
  refine run_induction (fun s₀ input s₁ h hstep => h.step hstep) ?_ hrun
  exact ⟨Inv.of_initial hfresh, fun _ => rfl, fun thread hthread => by cases hthread⟩

end Accounted

/-- The request of the operation in progress that is on its way. -/
def requested? (s : Service) : Option Request :=
  match s.current with
  | some ⟨_, .call (.send _ _ request _) _⟩ => some request
  | _ => none

theorem requested?_eq_some {s : Service} {request : Request} (h : s.requested? = some request) :
    ∃ job peer secure timeout next,
      s.current = some ⟨job, .call (.send peer secure request timeout) next⟩ := by
  unfold requested? at h
  split at h
  · rename_i job peer secure request' timeout next hcurrent
    cases h
    exact ⟨job, peer, secure, timeout, next, hcurrent⟩
  · cases h

/-- Every Update and every Deregister request carries the id that the latest Register request that
was answered Created with an id was given, and the registration was not lost since, whatever else
has failed or was abandoned. -/
theorem id_of_run {setup : Setup} {scheduler : Scheduler Task} {inputs : List Input} {s : Service}
    {request : Request} {id : String} (hfresh : scheduler = .timeline {} ∨ scheduler = .worker {})
    (hrun : run setup (initial scheduler) inputs = some s)
    (hrequested : s.requested? = some request) (hid : request.registration? = some id) :
    ∃ since e before, s.history = since ++ e :: before ∧ e.Grants id ∧
      ∀ e' ∈ since, (∀ id', ¬e'.Grants id') ∧ e'.isLoss = false := by
  have haccounted : Accounted setup s := Accounted.of_run hfresh hrun
  obtain ⟨job, peer, secure, timeout, next, hcurrent⟩ := requested?_eq_some hrequested
  obtain ⟨c, next', x, -, hrest, hx, hpermits, -⟩ := haccounted.monitored.busy _ hcurrent
  dsimp only at hrest
  cases hrest
  exact heldId_eq_some (hx.2.trans (hpermits.2 id hid))

/-- The engine registers, a call fails when it registers once more, and it goes on to update. -/
def updatingAfterFailure : List Input :=
  failingAgain ++ [.operate .update, .turn 0, .answer (.object (some sampleSecurities)),
    .answer (.object (some (sampleServers 30)))]

theorem id_once_failed :
    ∃ s since e before, run sampleSetup (initial (.timeline {})) updatingAfterFailure = some s ∧
      s.requested? = some (.update "r") ∧ s.history = since ++ e :: before ∧ e.Grants "r" ∧
      ∀ e' ∈ since, (∀ id', ¬e'.Grants id') ∧ e'.isLoss = false := by
  have hpossible : (run sampleSetup (initial (.timeline {})) updatingAfterFailure).any fun s =>
      decide (s.requested? = some (.update "r")) := by
    decide +kernel
  obtain ⟨s, hrun, hcheck⟩ := (Option.any_eq_true _ _).mp hpossible
  have hrequested : s.requested? = some (.update "r") := of_decide_eq_true hcheck
  obtain ⟨since, e, before, h⟩ := id_of_run (Or.inl rfl) hrun hrequested rfl
  exact ⟨s, since, e, before, hrun, hrequested, h⟩

end Service
end Lwm2mClient
