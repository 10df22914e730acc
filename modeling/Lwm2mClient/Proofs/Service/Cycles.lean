import Lwm2mClient.Proofs.Durations
import Lwm2mClient.Proofs.Service.Coherence
import Lwm2mClient.Proofs.Service.Positions

/-!
The cycle of renewals. Where the store names one server for good and every Update request
is accepted, a renewal that is the only task on a timeline is run at its due time, sends
one Update request, and leaves another renewal in its place, which is due once the lifetime
has passed but for the margin.
-/
namespace Lwm2mClient

namespace Service

open Net Engine Program

/-- Whenever the store is asked, it names one server to manage the device and gives it one
lifetime, and every Update request is accepted. -/
structure Surroundings.Steady (env : Surroundings) (setup : Setup) (server : ManagementServer)
    (lifetime : UInt64) : Prop where
  named : ∀ found, env.Finds setup.hosts found → managementIn found = .ok server
  lifetime : server.lifetime = some lifetime
  accepted :
    ∀ peer secure id timeout answer, env.Gives (.send peer secure (.update id) timeout) answer →
    ∃ registration, answer = some ⟨.changed, registration⟩

variable {env : Surroundings} {setup : Setup} {x : Position} {s s' : Service}
    {server : ManagementServer}
  {lifetime : UInt64} {address : SocketAddress} {id : String} {due target : Duration}

namespace Position

/-- The only task on the timeline is the renewal of a registration that is held. -/
structure Expects (x : Position) (id : String) (due : Duration) : Prop where
  held : x.id = some id
  opened : x.timeline.shutDown = false
  queue : ∃ number, x.renewal = some (.accepted number) ∧
    x.timeline.queue = [⟨due, number, .work (.renewal x.generation)⟩]

theorem keeps_sendUpdate_of_steady (henv : env.Steady setup server lifetime)
    (haddress : server.info.requireAddress = .ok address)
    {post : Except Error UInt64 → Position → Prop}
    (h : post (.ok lifetime) (x.send (.update id))) :
    (sendUpdate setup id).Keeps (following env) post x := by
  refine Keeps.bind (keeps_requireManagement fun found hfound => ?_)
  simp only [henv.named found hfound, henv.lifetime]
  refine Keeps.bind (keeps_ask ?_ ?_)
  · intro e hunreachable
    cases haddress.symm.trans hunreachable
  · intro address' answer _ hanswer
    obtain ⟨registration, rfl⟩ := henv.accepted _ _ _ _ _ hanswer
    exact h

theorem keeps_updateNow_of_steady (henv : env.Steady setup server lifetime)
    (haddress : server.info.requireAddress = .ok address) (hheld : x.id = some id)
    {post : Bool → Position → Prop}
    (h : post true
      ((x.cancelRenewal.send (.update id)).planRenewal (renewalDelay setup.settings lifetime))) :
    (updateNow setup).Keeps (following env) post x := by
  refine Keeps.bind (keeps_cancelRenewal (Keeps.bind (keeps_registration fun r hr => ?_)))
  have hid : r.id = some id := hr.1.trans hheld
  simp only [hid]
  refine Keeps.bind (keeps_fire (Keeps.bind (keeps_sendUpdate_of_steady henv haddress ?_)))
  exact Keeps.bind (keeps_line (Keeps.bind (keeps_planRenewal (Keeps.bind (keeps_fire h)))))

theorem keeps_renew_of_steady (henv : env.Steady setup server lifetime)
    (haddress : server.info.requireAddress = .ok address) (hheld : x.id = some id)
    {post : Bool → Position → Prop}
    (h : post true
      ((x.cancelRenewal.send (.update id)).planRenewal (renewalDelay setup.settings lifetime))) :
    (renew setup x.generation).Keeps (following env) post x := by
  refine Keeps.bind (keeps_registration fun r hr => ?_)
  rw [if_neg (fun hother => hother hr.2.2)]
  exact keeps_updateNow_of_steady henv haddress hheld h

/-- A renewal that is planned on an empty timeline is the only task there. -/
theorem expects_planRenewal (hheld : x.id = some id) (hopen : x.timeline.shutDown = false)
    (hqueue : x.timeline.queue = []) (hnone : x.renewal = none) (delay : Duration) :
    (x.planRenewal delay).Expects id (x.timeline.now.saturatingAdd delay) := by
  have hplanned : (x.planRenewal delay).timeline =
      (x.timeline.schedule delay (.work (.renewal (x.generation + 1)))).2 := by
    unfold planRenewal cancelAny
    rw [hnone]
    rfl
  have hnamed : (x.planRenewal delay).renewal =
      some (x.timeline.schedule delay (.work (.renewal (x.generation + 1)))).1 := rfl
  unfold Timeline.schedule at hplanned hnamed
  rw [if_neg (by simp [hopen])] at hplanned hnamed
  refine ⟨hheld, ?_, _, hnamed, ?_⟩
  · rw [hplanned]
    exact hopen
  · rw [hplanned, hqueue]
    rfl

theorem cancelRenewal_queue (hqueue : x.timeline.queue = []) :
    x.cancelRenewal.timeline.queue = [] := by
  apply List.eq_nil_iff_forall_not_mem.mpr
  intro e he
  have hold := (Timeline.mem_cancelAny.mp he).1
  rw [hqueue] at hold
  cases hold

theorem cancelRenewal_now (x : Position) : x.cancelRenewal.timeline.now = x.timeline.now :=
  Timeline.cancelAny_now x.timeline x.renewal

end Position

/-- An engine has nothing to do but to renew its registration, at some time that is not over. -/
structure Expecting (x : Position) (id : String) (due : Duration) (s : Service) : Prop where
  rests : x.Rests s
  expects : x.Expects id due
  ahead : x.timeline.now ≤ due

/-- Whether an engine has nothing to do but to renew its registration at some time. -/
def isExpecting (s : Service) (id : String) (due : Duration) : Bool :=
  match s.client.scheduler with
  | .timeline t =>
    match t.queue with
    | [e] =>
      decide (AtRest s ∧ s.client.registration.id = some id ∧ t.shutDown = false ∧
        t.now ≤ due ∧ e.due = due ∧
        s.client.registration.renewal = some (.accepted e.number) ∧
        e.task = .work (.renewal s.client.registration.generation))
    | _ => false
  | .worker _ => false

theorem expecting_of_isExpecting (h : isExpecting s id due = true) :
    ∃ t, s.client.scheduler = .timeline t ∧ Expecting (Position.of s t) id due s := by
  unfold isExpecting at h
  split at h
  · rename_i t htimeline
    split at h
    · rename_i e hqueue
      obtain ⟨hrest, hheld, hopened, hahead, hdue, hnamed, htask⟩ := of_decide_eq_true h
      refine ⟨t, htimeline, Position.rests_of hrest htimeline,
        ⟨hheld, hopened, e.number, hnamed, ?_⟩, hahead⟩
      change t.queue = _
      rw [hqueue, ← hdue]
      change [e] = [⟨e.due, e.number, .work (.renewal s.client.registration.generation)⟩]
      rw [← htask]
    · cases h
  · cases h

/-- A renewal that is due is run, and another one takes its place. -/
theorem Expecting.cycle (h : Expecting x id due s) (henv : env.Steady setup server lifetime)
    (haddress : server.info.requireAddress = .ok address) (hdue : due ≤ target) :
    ∃ s₁ s₂, ∃ x' : Position, step setup s (.take target) = some s₁ ∧
      ComesToRest setup env s₁ s₂ ∧
      Expecting x' id (due.saturatingAdd (renewalDelay setup.settings lifetime)) s₂ ∧
      x'.timeline.now = due ∧ x'.sent = (.update id, due) :: x.sent := by
  obtain ⟨number, hnamed, hqueue⟩ := h.expects.queue
  let delay := renewalDelay setup.settings lifetime
  let taken : Position := { x with timeline := { x.timeline with now := due, queue := [] } }
  let renewed : Position := (taken.cancelRenewal.send (.update id)).planRenewal delay
  have htake : x.timeline.takeDue? target =
      some (⟨due, number, .work (.renewal x.generation)⟩, taken.timeline) := by
    unfold Timeline.takeDue?
    rw [hqueue]
    dsimp only
    rw [if_pos hdue, Duration.later_of_le h.ahead]
  have hwork : ((Job.task due number (.renewal x.generation)).body setup).Keeps (following env)
      (fun _ x' => x' = renewed) taken :=
    Position.keeps_renew_of_steady (x := taken) henv haddress h.expects.held rfl
  obtain ⟨s₁, s₂, result, x', hstep, hends, hrests, rfl⟩ := h.rests.takes htake rfl hwork
  have hnow : (taken.cancelRenewal.send (.update id)).timeline.now = due :=
    taken.cancelRenewal_now
  have hexpects := Position.expects_planRenewal (x := taken.cancelRenewal.send (.update id))
    h.expects.held ((Timeline.cancelAny_shutDown _ _).trans h.expects.opened)
    (Position.cancelRenewal_queue rfl) rfl delay
  rw [hnow] at hexpects
  have hnow' : renewed.timeline.now = due := (Position.planRenewal_now _ delay).trans hnow
  refine ⟨s₁, s₂, renewed, hstep, hends, ⟨hrests, hexpects, ?_⟩, hnow', ?_⟩
  · rw [hnow']
    exact Duration.le_saturatingAdd due delay
  · change (Request.update id, taken.cancelRenewal.timeline.now) :: x.sent = _
    rw [taken.cancelRenewal_now]

/-- Where each renewal is due no later than a time if the one before it was, the clock never gets
there. -/
theorem Expecting.not_advances {n : Nat} (h : Expecting x id due s)
    (henv : env.Steady setup server lifetime)
    (haddress : server.info.requireAddress = .ok address) (hdue : due ≤ target)
    (hstays : ∀ due, due ≤ target →
      due.saturatingAdd (renewalDelay setup.settings lifetime) ≤ target) :
    ¬Advances setup env target s n s' := by
  intro hadvances
  induction hadvances generalizing x due with
  | rest hnone hsettle =>
    obtain ⟨s₁, s₂, x', hstep, -⟩ := h.cycle henv haddress hdue
    cases hnone.symm.trans hstep
  | task htake hends hrest ih =>
    obtain ⟨s₁, s₂, x', hstep, hends', hexpecting, -⟩ := h.cycle henv haddress hdue
    cases htake.symm.trans hstep
    cases hends.unique hends'
    exact ih hexpecting (hstays due hdue)

/-! ### Surroundings with one server -/

/-- A store that names one device management server, which grants and accepts whatever it is
asked. -/
def sampleSurroundings (lifetime : Int64) : Surroundings where
  answer
    | _, _, .readObject object =>
      if object = ObjectId.security then some sampleSecurities
      else if object = ObjectId.server then some (sampleServers lifetime)
      else none
    | _, _, .send _ _ (.register ..) _ => some ⟨.created, some "r"⟩
    | _, _, .send _ _ (.update _) _ => some ⟨.changed, none⟩
    | _, _, .send .. => none
    | _, _, .objectIds => []
    | _, _, .deleteInstance .. => .notFound
    | _, _, .registration => {}
    | _, _, .schedule .. => .refused
    | _, _, .sessionActive | _, _, .openSession _ | _, _, .awaitFinish _ => false
    | _, _, .log _ | _, _, .acquire | _, _, .release | _, _, .closeSession | _, _,
      .setRegistration _
    | _, _, .cancelTask _ | _, _, .shutDownTimeline => ()
  gate client _ _ := client.gate

/-- What is found in the sample surroundings. -/
def sampleFound (hosts : Hosts) (lifetime : Int64) : Servers :=
  Extraction.servers hosts sampleSecurities (sampleServers lifetime)

theorem finds_sampleSurroundings {hosts : Hosts} {lifetime : Int64} {found : Option Servers}
    (h : (sampleSurroundings lifetime).Finds hosts found) :
    found = some (sampleFound hosts lifetime) := by
  cases found with
  | none =>
    rcases h with ⟨client, history, hanswer⟩ | ⟨client, history, hanswer⟩ <;> cases hanswer
  | some servers =>
    obtain ⟨securities, object, ⟨client, history, hsecurities⟩,
      ⟨client', history', hobject⟩, rfl⟩ := h
    cases hsecurities
    cases hobject
    rfl

theorem steady_sampleSurroundings (setup : Setup) (value : Int64) (lifetime : UInt64)
    (h : (sampleFound setup.hosts value).theManagement.toOption.any fun server =>
      server.info.address.isSome && decide (server.lifetime = some lifetime)) :
    ∃ server address, (sampleSurroundings value).Steady setup server lifetime ∧
      server.info.requireAddress = .ok address := by
  cases hmanagement : (sampleFound setup.hosts value).theManagement with
  | error e =>
    rw [hmanagement] at h
    cases h
  | ok server =>
    rw [hmanagement] at h
    obtain ⟨haddress, hlifetime⟩ := Bool.and_eq_true_iff.mp h
    obtain ⟨address, haddress⟩ := Option.isSome_iff_exists.mp haddress
    refine ⟨server, address, ⟨?_, of_decide_eq_true hlifetime, ?_⟩, ?_⟩
    · intro found hfound
      rw [finds_sampleSurroundings hfound]
      exact hmanagement
    · rintro peer secure id timeout answer ⟨client, history, rfl⟩
      exact ⟨none, rfl⟩
    · rw [ServerInfo.requireAddress, haddress]

end Service
end Lwm2mClient
