import Lwm2mClient.Proofs.Engine.Reads
import Lwm2mClient.Proofs.Engine.Upkeep
import Lwm2mClient.Proofs.Service.Bodies
import Lwm2mClient.Proofs.Service.Renewal
import Lwm2mClient.Proofs.Service.Surroundings

/-!
What the work of an engine does to its timeline, step by step. In given surroundings nothing
happens aside, so the timeline, the id that is held, the renewal that the registration names and
the requests that were sent are known exactly at every moment of an operation.
-/
namespace Lwm2mClient.Service

open Net Engine Program

theorem Timeline.cancelAny_now (t : Timeline Task) (handle : Option TaskHandle) :
    (cancelAny t handle).now = t.now := by
  rcases handle with - | ⟨number | -⟩ <;> rfl

/-- The request that was answered, and the time of that. -/
def Event.request? : Event → Option (Request × Duration)
  | .answered (.send _ _ request _) _ now => some (request, now)
  | _ => none

/-- The requests that were sent, the latest first. -/
def requestsOf (history : List Event) : List (Request × Duration) :=
  history.filterMap Event.request?

theorem requestsOf_reported (lines : List Log.Line) (history : List Event) :
    requestsOf (lines.reverse.map .reported ++ history) = requestsOf history := by
  have hnone : requestsOf (lines.reverse.map .reported) = [] := by
    rw [requestsOf, List.filterMap_eq_nil_iff]
    intro e he
    obtain ⟨line, -, rfl⟩ := List.mem_map.mp he
    rfl
  rw [requestsOf, List.filterMap_append]
  change requestsOf _ ++ requestsOf history = _
  rw [hnone, List.nil_append]

/-- Where an engine stands as far as its timeline is concerned. -/
structure Position where
  id : Option String
  /-- The renewal that the registration names. -/
  renewal : Option TaskHandle
  generation : Nat
  timeline : Timeline Task
  /-- The requests that were sent, the latest first. -/
  sent : List (Request × Duration)

/-- What the surroundings may answer a call. -/
def Surroundings.Gives (env : Surroundings) (c : Call) (a : c.Answer) : Prop :=
  ∃ client history, env.answer client history c = a

namespace Position

/-- What a registration tells of a position. -/
def Shows (x : Position) (r : Registration) : Prop :=
  r.id = x.id ∧ r.renewal = x.renewal ∧ r.generation = x.generation

/-- A client and its history are at a position. -/
structure IsAt (x : Position) (client : Client Task) (history : List Event) : Prop where
  shows : x.Shows client.registration
  timeline : client.scheduler = .timeline x.timeline
  sent : requestsOf history = x.sent

def register (x : Position) (r : Registration) : Position :=
  { x with id := r.id, renewal := r.renewal, generation := r.generation }

def schedule (x : Position) (delay : Duration) (work : Work) : TaskHandle × Position :=
  let handed := x.timeline.schedule delay (.work work)
  (handed.1, { x with timeline := handed.2 })

def cancelAny (x : Position) (handle : Option TaskHandle) : Position :=
  { x with timeline := Timeline.cancelAny x.timeline handle }

def send (x : Position) (request : Request) : Position :=
  { x with sent := (request, x.timeline.now) :: x.sent }

/-- The renewal was cancelled. -/
def cancelRenewal (x : Position) : Position :=
  { x with generation := x.generation + 1, renewal := none }.cancelAny x.renewal

/-- A renewal was scheduled in place of the one that was pending. -/
def planRenewal (x : Position) (delay : Duration) : Position :=
  let handed := x.timeline.schedule delay (.work (.renewal (x.generation + 1)))
  { x with
    generation := x.generation + 1, renewal := some handed.1, timeline :=
    handed.2 }.cancelAny x.renewal

theorem planRenewal_now (x : Position) (delay : Duration) :
    (x.planRenewal delay).timeline.now = x.timeline.now :=
  (Timeline.cancelAny_now _ _).trans (Timeline.schedule_now _ _ _)

def hold (x : Position) (id : String) : Position := { x with id := some id }

/-- The registration was given up. -/
def forget (x : Position) : Position := { x with id := none }.cancelRenewal

end Position

/-- Follows the position of an engine in given surroundings. -/
def following (env : Surroundings) : Monitor Position where
  permits _
    | .acquire | .release | .shutDownTimeline => False
    | _ => True
  moves x c a x' :=
    match c with
    | .registration => x.Shows a ∧ x' = x
    | .setRegistration r => x' = x.register r
    | .schedule delay work => (a, x') = x.schedule delay work
    | .cancelTask handle => x' = x.cancelAny (some handle)
    | .send peer secure request timeout => env.Gives (.send peer secure request timeout) a ∧
        x' = x.send request
    | .objectIds => env.Gives .objectIds a ∧ x' = x
    | .readObject object => env.Gives (.readObject object) a ∧ x' = x
    | _ => x' = x

variable {env : Surroundings} {setup : Setup} {x : Position} {α : Type}

theorem sees_following (env : Surroundings) : Sees (following env) Position.IsAt where
  ofTurn x c hc := by
    refine ⟨?_, ?_⟩ <;> rintro rfl <;> exact hc
  reply x client history c reply hx hc hreply := by
    cases c with
    | log line =>
      cases hreply
      exact ⟨x, rfl, hx.shows, hx.timeline, hx.sent⟩
    | sessionActive =>
      cases hreply
      exact ⟨x, rfl, hx⟩
    | openSession peer =>
      cases hreply
      exact ⟨x, rfl, hx.shows, hx.timeline, (requestsOf_reported _ _).trans hx.sent⟩
    | closeSession =>
      cases hreply
      exact ⟨x, rfl, hx.shows, hx.timeline, (requestsOf_reported _ _).trans hx.sent⟩
    | registration =>
      cases hreply
      exact ⟨x, ⟨hx.shows, rfl⟩, hx⟩
    | setRegistration r =>
      cases hreply
      exact ⟨x.register r, rfl, ⟨rfl, rfl, rfl⟩, hx.timeline, hx.sent⟩
    | schedule delay work =>
      cases hreply
      refine ⟨(x.schedule delay work).2, ?_, hx.shows, ?_, hx.sent⟩
      · simp only [following, hx.timeline, Position.schedule]
      · simp only [hx.timeline, Position.schedule]
    | cancelTask handle =>
      cases hreply
      refine ⟨x.cancelAny (some handle), rfl, hx.shows, ?_, hx.sent⟩
      simp only [hx.timeline, Scheduler.cancel]
      rfl
    | shutDownTimeline => exact False.elim hc
    | acquire | release | objectIds | readObject | deleteInstance | send | awaitFinish =>
      cases hreply

theorem hears_following (env : Surroundings) : Hears env (following env) Position.IsAt := by
  intro x client history c hx hc hasked
  cases c with
  | objectIds => exact ⟨x, ⟨⟨_, _, rfl⟩, rfl⟩, hx.shows, hx.timeline, hx.sent⟩
  | readObject object => exact ⟨x, ⟨⟨_, _, rfl⟩, rfl⟩, hx.shows, hx.timeline, hx.sent⟩
  | deleteInstance sender object instanceId => exact ⟨x, rfl, hx.shows, hx.timeline, hx.sent⟩
  | awaitFinish timeout => exact ⟨x, rfl, hx.shows, hx.timeline, hx.sent⟩
  | send peer secure request timeout =>
    refine ⟨x.send request, ⟨⟨_, _, rfl⟩, rfl⟩, hx.shows, hx.timeline, ?_⟩
    change (request, client.scheduler.clock) :: requestsOf history =
        (request, x.timeline.now) :: x.sent
    rw [hx.sent, hx.timeline]
    rfl
  | _ => cases hasked

namespace Position

/-! ### Bookkeeping and upkeep -/

theorem keeps_line {line : Log.Line} {post : Unit → Position → Prop} (h : post () x) :
    (log line).Keeps (following env) post x := by
  refine Keeps.perform trivial ?_
  rintro ⟨⟩ x' rfl
  exact h

theorem keeps_lines {lines : List Log.Line} {post : Unit → Position → Prop} (h : post () x) :
    (logAll lines).Keeps (following env) post x := by
  induction lines with
  | nil => exact h
  | cons line rest ih => exact Keeps.bind (keeps_line ih)

theorem keeps_registration {post : Registration → Position → Prop}
    (h : ∀ r, x.Shows r → post r x) : registration.Keeps (following env) post x := by
  refine Keeps.perform trivial ?_
  rintro r x' ⟨hr, rfl⟩
  exact h r hr

theorem keeps_setRegistration {r : Registration} {post : Unit → Position → Prop}
    (h : post () (x.register r)) :
    (Program.perform (.setRegistration r)).Keeps (following env) post x := by
  refine Keeps.perform trivial ?_
  rintro ⟨⟩ x' rfl
  exact h

theorem register_of_shows {r : Registration} (hr : x.Shows r) (lifecycle : Lifecycle) :
    x.register { r with lifecycle } = x := by
  obtain ⟨hid, hrenewal, hgeneration⟩ := hr
  simp only [register, hid, hrenewal, hgeneration]

theorem keeps_fire {event : LifecycleEvent} {post : Unit → Position → Prop} (h : post () x) :
    (fire event).Keeps (following env) post x := by
  refine Keeps.bind (keeps_registration fun r hr => ?_)
  split
  · rename_i next _
    have hset :
        (Program.perform (.setRegistration { r with lifecycle := next })).Keeps (following env)
        post x := keeps_setRegistration ((register_of_shows hr next).symm ▸ h)
    split
    · exact Keeps.bind (keeps_line hset)
    · exact hset
  · exact keeps_line h

theorem keeps_cancelAny {handle : Option TaskHandle} {post : Unit → Position → Prop}
    (h : post () (x.cancelAny handle)) :
    (Engine.cancelAny handle).Keeps (following env) post x := by
  cases handle with
  | none => exact h
  | some handle =>
    refine Keeps.perform trivial ?_
    rintro ⟨⟩ x' rfl
    exact h

theorem keeps_cancelRenewal {post : Unit → Position → Prop} (h : post () x.cancelRenewal) :
    Engine.cancelRenewal.Keeps (following env) post x := by
  refine Keeps.bind (keeps_registration fun r hr => Keeps.bind (keeps_setRegistration ?_))
  apply keeps_cancelAny
  obtain ⟨hid, hrenewal, hgeneration⟩ := hr
  rw [register, hid, hrenewal, hgeneration]
  exact h

theorem keeps_hold {id : Option String} {post : Unit → Position → Prop}
    (h : post () { x with id }) :
    (modify fun r => { r with id }).Keeps (following env) post x := by
  refine Keeps.bind (keeps_registration fun r hr => keeps_setRegistration ?_)
  obtain ⟨hid, hrenewal, hgeneration⟩ := hr
  rw [register, hrenewal, hgeneration]
  exact h

theorem keeps_planRenewal {lifetime : UInt64} {post : Unit → Position → Prop}
    (h : post () (x.planRenewal (renewalDelay setup.settings lifetime))) :
    (Engine.planRenewal setup lifetime).Keeps (following env) post x := by
  refine Keeps.bind (keeps_line (Keeps.bind ?_))
  refine Keeps.bind (keeps_registration fun r hr => keeps_setRegistration ?_)
  refine Keeps.bind (keeps_registration fun r' hr' => Keeps.bind (Keeps.perform trivial ?_))
  rintro handle x' hx'
  refine Keeps.bind (keeps_setRegistration (keeps_cancelAny ?_))
  obtain ⟨hid, hrenewal, hgeneration⟩ := hr
  obtain ⟨hid', hrenewal', hgeneration'⟩ := hr'
  have hnext : r'.generation = x.generation + 1 :=
    hgeneration'.trans (congrArg (· + 1) hgeneration)
  have hold : r'.renewal = x.renewal := hrenewal'.trans hrenewal
  have hheld : r'.id = x.id := hid'.trans hid
  cases hx'
  rw [register, hheld, hold, hnext]
  exact h

theorem keeps_forget {post : Unit → Position → Prop} (h : post () x.forget) :
    Engine.forget.Keeps (following env) post x :=
  Keeps.bind (keeps_hold (Keeps.bind (keeps_cancelRenewal (keeps_fire h))))

/-! ### Reading -/

end Position

/-- What the surroundings may have found when the store is searched for the servers. -/
def Surroundings.Finds (env : Surroundings) (hosts : Hosts) : Option Servers → Prop
  | none => env.Gives (.readObject ObjectId.security) none ∨
      env.Gives (.readObject ObjectId.server) none
  | some servers =>
    ∃ securities object, env.Gives (.readObject ObjectId.security) (some securities) ∧
      env.Gives (.readObject ObjectId.server) (some object) ∧
      servers = Extraction.servers hosts securities object

/-- The device management server among the servers that were found. -/
def managementIn (found : Option Servers) : Except Error ManagementServer :=
  match found with
  | some servers => servers.theManagement
  | none => .error (.unconfigured .objects)

namespace Position

theorem keeps_read {object : NumericId} {post : Option Object → Position → Prop}
    (h : ∀ value, env.Gives (.readObject object) value → post value x) :
    (Program.perform (.readObject object)).Keeps (following env) post x := by
  refine Keeps.perform trivial ?_
  rintro value x' ⟨hvalue, rfl⟩
  exact h value hvalue

/-- Reading leaves the position as it is. -/
theorem keeps_reading {p : Program α} {mid : α → Prop} {post : α → Position → Prop}
    (hp : p.Asks Call.isReading mid) (h : ∀ v, post v x) : p.Keeps (following env) post x := by
  refine Keeps.of_still hp (fun c hc => ?_) h
  cases c with
  | log => exact ⟨trivial, fun _ _ hmove => hmove⟩
  | objectIds | readObject => exact ⟨trivial, fun _ _ hmove => hmove.2⟩
  | _ => exact False.elim hc

theorem keeps_findServers {hosts : Hosts} {post : Option Servers → Position → Prop}
    (h : ∀ found, env.Finds hosts found → post found x) :
    (findServers hosts).Keeps (following env) post x := by
  refine Keeps.bind (keeps_read fun securities hsecurities => ?_)
  cases securities with
  | none => exact h none (Or.inl hsecurities)
  | some securities =>
    refine Keeps.bind (keeps_read fun object hobject => ?_)
    cases object with
    | none => exact h none (Or.inr hobject)
    | some object =>
      exact Keeps.bind (keeps_lines (h _ ⟨securities, object, hsecurities, hobject, rfl⟩))

theorem keeps_requireManagement {post : Except Error ManagementServer → Position → Prop}
    (h : ∀ found, env.Finds setup.hosts found → post (managementIn found) x) :
    (requireManagement setup).Keeps (following env) post x := by
  refine Keeps.bind (Keeps.bind (keeps_findServers fun found hfound => ?_))
  cases found with
  | none => exact h none hfound
  | some servers => exact h (some servers) hfound

/-! ### Requests -/

theorem keeps_send {peer : SocketAddress} {secure : Bool} {request : Request}
    {timeout : Option Duration} {post : Option Response → Position → Prop}
    (h : ∀ answer, env.Gives (.send peer secure request timeout) answer →
      post answer (x.send request)) :
    (Program.perform (.send peer secure request timeout)).Keeps (following env) post x := by
  refine Keeps.perform trivial ?_
  rintro answer x' ⟨hanswer, rfl⟩
  exact h answer hanswer

/-- A request is sent, unless the server has no address. -/
theorem keeps_ask {server : ManagementServer} {request : Request}
    {post : Except Error Response → Position → Prop}
    (hunreachable : ∀ e, server.info.requireAddress = .error e → post (.error e) x)
    (hanswered : ∀ address answer, server.info.requireAddress = .ok address →
      env.Gives
        (.send address server.info.isSecure request setup.settings.requestTimeout) answer →
        post (match answer with | some response => .ok response | none => .error .timeout)
          (x.send request)) : (ask setup server request).Keeps (following env) post x := by
  unfold ask
  split
  · rename_i e haddress
    exact hunreachable e haddress
  · rename_i address haddress
    refine Keeps.bind (keeps_line (Keeps.bind (keeps_send fun answer hanswer => ?_)))
    have hpost := hanswered address answer haddress hanswer
    cases answer <;> exact hpost

theorem keeps_grantedId {response : Response} {post : Except Error String → Position → Prop}
    (h : ∀ granted, post granted x) : (grantedId response).Keeps (following env) post x := by
  unfold grantedId
  split
  · exact h _
  · exact Keeps.bind (keeps_line (h _))
  · exact h _

end Position

/-- The store may name a server that can be reached, with a lifetime. -/
structure Surroundings.Offers (env : Surroundings) (setup : Setup) (server : ManagementServer)
    (lifetime : UInt64) : Prop where
  named : ∃ found, env.Finds setup.hosts found ∧ managementIn found = .ok server
  lifetime : server.lifetime = some lifetime
  reachable : ∃ address, server.info.requireAddress = .ok address

namespace Position

theorem keeps_sendRegister {post : Except Error (String × UInt64) → Position → Prop}
    (hunsent : ∀ e, post (.error e) x) (hrefused : ∀ e request, post (.error e) (x.send request))
    (hgranted : ∀ id server lifetime request, env.Offers setup server lifetime →
      post (.ok (id, lifetime)) (x.send request)) :
    (sendRegister setup).Keeps (following env) post x := by
  refine Keeps.bind (keeps_requireManagement fun found hfound => ?_)
  cases hserver : managementIn found with
  | error e => exact hunsent e
  | ok server =>
    dsimp only
    split
    · exact hunsent _
    · rename_i lifetime binding hparameters
      have hlifetime := lifetime_of_registerParameters hparameters
      refine Keeps.bind (keeps_reading describeObjects_reads fun links =>
        Keeps.bind (keeps_ask ?_ ?_))
      · intro e _
        exact hunsent e
      · intro address answer haddress _
        cases answer with
        | none => exact hrefused _ _
        | some response =>
          refine Keeps.bind (keeps_grantedId fun granted => ?_)
          cases granted with
          | error e => exact hrefused e _
          | ok id =>
            exact hgranted id server lifetime _ ⟨⟨found, hfound, hserver⟩, hlifetime,
              address, haddress⟩

/-- A registration is either granted and its renewal planned, or given up. -/
theorem keeps_registerNow {post : Bool → Position → Prop} (hunsent : post false x.forget)
    (hrefused : ∀ request, post false (x.send request).forget)
    (hgranted : ∀ id server lifetime request, env.Offers setup server lifetime →
      post true (((x.send request).hold id).planRenewal (renewalDelay setup.settings lifetime))) :
    (registerNow setup).Keeps (following env) post x := by
  refine Keeps.bind (keeps_fire (Keeps.bind (keeps_sendRegister ?_ ?_ ?_)))
  · intro e
    exact Keeps.bind (keeps_line (Keeps.bind (keeps_forget hunsent)))
  · intro e request
    exact Keeps.bind (keeps_line (Keeps.bind (keeps_forget (hrefused request))))
  · intro id server lifetime request hoffers
    refine Keeps.bind (keeps_line (Keeps.bind (keeps_hold (Keeps.bind (keeps_planRenewal ?_)))))
    exact Keeps.bind (keeps_fire (hgranted id server lifetime request hoffers))

theorem keeps_sendUpdate {id : String} {post : Except Error UInt64 → Position → Prop}
    (hunsent : ∀ e, post (.error e) x) (hrefused : ∀ e, post (.error e) (x.send (.update id)))
    (haccepted : ∀ server lifetime, env.Offers setup server lifetime →
      post (.ok lifetime) (x.send (.update id))) :
    (sendUpdate setup id).Keeps (following env) post x := by
  refine Keeps.bind (keeps_requireManagement fun found hfound => ?_)
  cases hserver : managementIn found with
  | error e => exact hunsent e
  | ok server =>
    dsimp only
    split
    · exact hunsent _
    · rename_i lifetime hlifetime
      refine Keeps.bind (keeps_ask ?_ ?_)
      · intro e _
        exact hunsent e
      · intro address answer haddress _
        cases answer with
        | none => exact hrefused _
        | some response =>
          dsimp only
          split
          · exact haccepted server lifetime ⟨⟨found, hfound, hserver⟩, hlifetime,
              address, haddress⟩
          · exact hrefused _

theorem keeps_awaitBootstrap {answer : Option Response} {post : Bool → Position → Prop}
    (h : ∀ finished, post finished x) :
    (awaitBootstrap setup answer).Keeps (following env) post x := by
  have hfailed (line : Log.Line) : (log line).Keeps (following env) (fun _ => post false) x :=
    keeps_line (h false)
  refine Keeps.awaitBootstrap (hfailed _) (fun _ => hfailed _)
    (keeps_line (Keeps.perform trivial ?_))
  rintro finished x' rfl
  cases finished with
  | true => exact h true
  | false => exact hfailed _

end Position

/-! ### Tasks -/

/-- An engine has nothing in hand at a position. -/
structure Position.Rests (x : Position) (s : Service) : Prop where
  atRest : AtRest s
  isAt : x.IsAt s.client s.history

/-- Where an engine stands on a timeline. -/
def Position.of (s : Service) (t : Timeline Task) : Position where
  id := s.client.registration.id
  renewal := s.client.registration.renewal
  generation := s.client.registration.generation
  timeline := t
  sent := requestsOf s.history

variable {s : Service} {target : Duration} {e : Timeline.Entry Task}
    {t t' : Timeline Task} {work : Work}

theorem Position.rests_of (hs : AtRest s) (htimeline : s.client.scheduler = .timeline t) :
    (Position.of s t).Rests s :=
  ⟨hs, ⟨rfl, rfl, rfl⟩, htimeline, rfl⟩

theorem step_take (htimeline : s.client.scheduler = .timeline t) :
    step setup s (.take target) =
      (t.takeDue? target).map fun (e, t') =>
        startTask setup (s.withScheduler (.timeline t')) e := by
  simp only [step, htimeline]

theorem step_settle (htimeline : s.client.scheduler = .timeline t) :
    step setup s (.settle target) = some (s.withScheduler (.timeline (t.settle target))) := by
  simp only [step, htimeline]

/-- Where no task is due, the clock is moved at once. -/
theorem Position.Rests.advances (setup : Setup) (env : Surroundings) (h : x.Rests s)
    (hnone : x.timeline.takeDue? target = none) :
    let settled := { x with timeline := x.timeline.settle target }
    ∃ s', Advances setup env target s 0 s' ∧ settled.Rests s' := by
  refine ⟨_, .rest ?_ (step_settle h.isAt.timeline), ⟨h.atRest.idle, h.atRest.alone⟩,
    h.isAt.shows, rfl, h.isAt.sent⟩
  rw [step_take h.isAt.timeline, hnone]
  rfl

/-- A task that is taken out comes to its end. -/
theorem Position.Rests.takes {post : Bool → Position → Prop} (h : x.Rests s)
    (htake : x.timeline.takeDue? target = some (e, t')) (htask : e.task = .work work)
    (hp : ((Job.task e.due e.number work).body setup).Keeps (following env) post
      { x with timeline := t' }) :
    ∃ s₁ s₂ result, ∃ x' : Position, step setup s (.take target) = some s₁ ∧
      ComesToRest setup env s₁ s₂ ∧
      x'.Rests s₂ ∧ post result x' := by
  let job : Job := .task e.due e.number work
  have hjob : job.program setup = job.pending setup := by
    cases work <;> rfl
  obtain ⟨result, x', client, history, hx', hpost, hends⟩ :=
    (sees_following env).comesToRest_of_launch (hears_following env) job
      (s := s.withScheduler (.timeline t'))
      hjob ⟨h.atRest.idle, h.atRest.alone⟩ hp ⟨h.isAt.shows, rfl, h.isAt.sent⟩
  refine ⟨_, _, result, x', ?_, hends, ⟨⟨rfl, rfl⟩, hx'.shows, hx'.timeline, hx'.sent⟩, hpost⟩
  simp only [step_take h.isAt.timeline, htake, Option.map_some, startTask, htask]
  rfl

end Lwm2mClient.Service
