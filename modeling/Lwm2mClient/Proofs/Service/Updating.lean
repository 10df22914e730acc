import Lwm2mClient.Proofs.Engine.Upkeep
import Lwm2mClient.Proofs.Service.Moves

/-!
An update from its turn to its request. It gives the renewal up and moves the lifecycle by itself,
then it reads the two objects that name the servers, and where these name one device management
server with a lifetime and an address, it asks for an Update request to be sent there. What
happens aside does not change its course.
-/
namespace Lwm2mClient.Service

open Net Engine Program

variable {setup : Setup} {s s' : Service} {job : Job} {α : Type}

/-! ### What an operation does by itself -/

/-- Whether a client answers a call by itself. -/
def isOwn (c : Call) : Prop :=
  ∀ client : Client Task, ∃ reply, client.answer? .work c = some reply

theorem isOwn_log (line : Log.Line) : isOwn (.log line) := fun _ => ⟨_, rfl⟩

theorem isOwn_of_isUpkeep {c : Call} (h : c.isUpkeep) : isOwn c := by
  intro client
  cases c <;> first | exact ⟨_, rfl⟩ | exact absurd h id

/-- By itself an operation goes on to a state and to a program as `goal` demands. -/
def Comes (goal : Service → Program Bool → Prop) (s : Service) (p : Program Bool) : Prop :=
  ∃ s' p', (∀ job, s.enter true job p = s'.enter true job p') ∧ goal s' p'

namespace Comes

variable {goal : Service → Program Bool → Prop}

theorem here {p : Program Bool} (h : goal s p) : Comes goal s p := ⟨s, p, fun _ => rfl, h⟩

theorem reply {c : Call} {next : c.Answer → Program Bool} {reply : Client.Reply Task c.Answer}
    (hreply : s.client.answer? .work c = some reply)
    (h : Comes goal ({ s with client := reply.client }.report reply.lines) (next reply.answer)) :
    Comes goal s (.call c next) := by
  obtain ⟨s', p', henter, hgoal⟩ := h
  refine ⟨s', p', fun job => ?_, hgoal⟩
  rw [enter_of_reply hreply, henter]

/-- A part that asks for nothing but what the client answers by itself. -/
theorem own {p : Program α} {post : α → Prop} {f : α → Program Bool} (hp : p.Asks isOwn post)
    (h : ∀ v s', post v → Comes goal s' (f v)) : Comes goal s (p >>= f) := by
  induction p generalizing s with
  | done value => exact h value s hp
  | call c next ih =>
    obtain ⟨answered, hreply⟩ := hp.1 s.client
    exact reply hreply (ih answered.answer (hp.2 answered.answer))

theorem upkeep {p : Program Unit} {f : Unit → Program Bool}
    (hp : p.Asks Call.isUpkeep fun _ => True)
    (h : ∀ s', Comes goal s' (f ())) : Comes goal s (p >>= f) :=
  own (hp.mono (fun _ => isOwn_of_isUpkeep) fun _ h => h) fun _ s' _ => h s'

theorem registration {f : Registration → Program Bool}
    (h : Comes goal s (f s.client.registration)) : Comes goal s (Engine.registration >>= f) :=
  reply rfl h

/-- The renewal is given up, and the id is still held. -/
theorem cancelRenewal {f : Unit → Program Bool}
    (h : ∀ s', s'.client.registration.id = s.client.registration.id → Comes goal s' (f ())) :
    Comes goal s (Engine.cancelRenewal >>= f) := by
  refine reply rfl (reply rfl ?_)
  change Comes goal _ (Engine.cancelAny s.client.registration.renewal >>= f)
  cases s.client.registration.renewal with
  | none => exact h _ rfl
  | some handle => exact reply rfl (h _ rfl)

/-- A renewal that is not outdated comes to send an Update request, where an id is held. -/
theorem renew {generation : Nat} {id : String} {f : Bool → Program Bool}
    (hgeneration : s.client.registration.generation = generation)
    (hid : s.client.registration.id = some id)
    (h : ∀ s' rest, Comes goal s' (Engine.sendUpdate setup id >>= rest)) :
    Comes goal s (Engine.renew setup generation >>= f) := by
  unfold Engine.renew
  rw [bind_assoc]
  apply registration
  rw [if_neg fun hne => hne hgeneration]
  unfold Engine.updateNow
  rw [bind_assoc]
  apply cancelRenewal
  intro s₁ hid₁
  rw [bind_assoc]
  apply registration
  rw [hid₁, hid]
  dsimp only
  rw [bind_assoc]
  apply upkeep (Engine.fire_upkeep .update)
  intro s₂
  rw [bind_assoc]
  exact h s₂ _

end Comes

/-- To find the servers, the Security object is read and then the Server object. -/
theorem findServers_reads (hosts : Hosts) (rest : Option Servers → Program Bool) :
    ∃ next : Option Object → Program Bool,
      (findServers hosts >>= rest) = .call (.readObject ObjectId.security) next ∧
        ∀ securities, ∃ next' : Option Object → Program Bool,
          next (some securities) = .call (.readObject ObjectId.server) next' ∧
            ∀ servers, next' (some servers) =
              (logAll (Extraction.lines hosts securities servers) >>= fun _ =>
                rest (some (Extraction.servers hosts securities servers))) := by
  refine ⟨_, rfl, fun securities => ⟨_, rfl, fun servers => ?_⟩⟩
  exact bind_assoc (logAll _)
    (fun _ => pure (some (Extraction.servers hosts securities servers))) rest

/-- Before an Update request is sent, the servers are found. -/
theorem sendUpdate_finds (setup : Setup) (id : String)
    (rest : Except Error UInt64 → Program Bool) :
    ∃ found : Option Servers → Program Bool,
      (Engine.sendUpdate setup id >>= rest) = (findServers setup.hosts >>= found) ∧
        ∀ servers server lifetime address, servers.theManagement = .ok server →
          server.lifetime = some lifetime → server.info.address = some address →
            ∃ next, found (some servers) =
              (log (.requestSent (.update id) address) >>= fun _ =>
                .call (.send address server.info.isSecure
                  (.update id) setup.settings.requestTimeout)
                  next) := by
  unfold Engine.sendUpdate Engine.requireManagement Engine.requireServers
  rw [bind_assoc, bind_assoc, bind_assoc]
  refine ⟨_, rfl, ?_⟩
  intro servers server lifetime address hmanagement hlifetime haddress
  have hfound :
      (Except.ok servers : Except Error Servers).bind Servers.theManagement = .ok server :=
    hmanagement
  have hask : server.info.requireAddress = .ok address := by
    rw [ServerInfo.requireAddress, haddress]
  simp only [pure_eq_done, done_bind, hfound, hlifetime]
  unfold Engine.ask
  rw [hask]
  dsimp only
  rw [bind_assoc, bind_assoc, bind_assoc]
  exact ⟨_, rfl⟩

/-! ### What an operation is told -/

theorem enter_asking {c : Call} (hc : isAsked c = true) (next : c.Answer → Program Bool)
    (s : Service) (job : Job) :
    (s.enter true job (.call c next)).current = some ⟨job, .call c next⟩ := by
  rw [enter_of_isAsked hc]

/-- What happens aside leaves the operation in progress alone. -/
theorem run_aside {inputs : List Input} (hrun : run setup s inputs = some s')
    (hinputs : inputs.filter (!·.isAside) = []) : s'.current = s.current := by
  induction inputs generalizing s with
  | nil =>
    cases hrun
    rfl
  | cons input rest ih =>
    obtain ⟨mid, hmid, hrest⟩ := Option.bind_eq_some_iff.mp hrun
    rw [List.filter_eq_nil_iff] at hinputs
    have haside : input.isAside = true := by
      simpa using hinputs input List.mem_cons_self
    have hcurrent := ih hrest
      (List.filter_eq_nil_iff.mpr fun x hx => hinputs x (List.mem_cons_of_mem input hx))
    exact hcurrent.trans (step_aside hmid haside).current

/-- The operation in progress waits until it is answered, whatever happens aside in the
meantime. -/
theorem run_answer {inputs rest : List Input} {answer : Answer} {c : Call}
    {next : c.Answer → Program Bool} (hcurrent : s.current = some ⟨job, .call c next⟩)
    (hrun : run setup s inputs = some s')
    (hinputs : inputs.filter (!·.isAside) = .answer answer :: rest) :
    ∃ (a : c.Answer) (mid : Service) (later : List Input), answer.to? c = some a ∧
      run setup (mid.enter true job (next a)) later = some s' ∧
      later.filter (!·.isAside) = rest := by
  induction inputs generalizing s with
  | nil => cases hinputs
  | cons input more ih =>
    obtain ⟨mid, hmid, hrest⟩ := Option.bind_eq_some_iff.mp hrun
    by_cases haside : input.isAside = true
    · have hcurrent' := (step_aside hmid haside).current.trans hcurrent
      refine ih hcurrent' hrest ?_
      rw [← hinputs, List.filter_cons_of_neg (by simp [haside])]
    · rw [List.filter_cons_of_pos (by simp [haside])] at hinputs
      cases hinputs
      obtain ⟨job', c', next', a, hcurrent', ha, rfl⟩ := step_answer hmid
      cases hcurrent.symm.trans hcurrent'
      exact ⟨a, _, more, ha, hrest, rfl⟩

/-- The operation in progress asks something of its surroundings. -/
def Asking (s : Service) (job : Job) (c : Call) : Prop :=
  ∃ next, s.current = some ⟨job, .call c next⟩

theorem step_object (setup : Setup) {object : NumericId} {next : Option Object → Program Bool}
    (hcurrent : s.current = some ⟨job, .call (.readObject object) next⟩) (value : Option Object) :
    ∃ mid : Service, step setup s (.answer (.object value)) =
      some (mid.enter true job (next value)) := by
  simp only [step, hcurrent]
  exact ⟨_, rfl⟩

/-- A renewal goes on to its Update request: it asks for the two objects, and wherever it is
told them and they name one device management server with a lifetime and an address, it asks to
have the request sent there. -/
structure Refreshes (setup : Setup) (job : Job) (id : String) (s : Service) : Prop where
  asks : Asking s job (.readObject ObjectId.security)
  hears : ∀ securities servers, ∃ s', run setup s
    [.answer (.object (some securities)), .answer (.object (some servers))] = some s'
  sends : ∀ inputs s' securities servers server lifetime address, run setup s inputs = some s' →
    inputs.filter (!·.isAside) =
      [.answer (.object (some securities)), .answer (.object (some servers))] →
    (Extraction.servers setup.hosts securities servers).theManagement = .ok server →
    server.lifetime = some lifetime → server.info.address = some address →
    Asking s' job
      (.send address server.info.isSecure (.update id) setup.settings.requestTimeout)

/-- A renewal that is not outdated when it has its turn goes on to its Update request. -/
theorem refreshes_of_present {generation : Nat} {id : String}
    (hgeneration : s.client.registration.generation = generation)
    (hid : s.client.registration.id = some id) (f : Bool → Program Bool) :
    Refreshes setup job id (s.enter true job (Engine.renew setup generation >>= f)) := by
  obtain ⟨s₁, p, henter, rest, rfl⟩ :
      Comes (fun _ p => ∃ rest, p = (Engine.sendUpdate setup id >>= rest)) s
        (Engine.renew setup generation >>= f) :=
    Comes.renew hgeneration hid fun s' rest => Comes.here ⟨rest, rfl⟩
  obtain ⟨found, hfinds, hsends⟩ := sendUpdate_finds setup id rest
  obtain ⟨next, hnext, hreads⟩ := findServers_reads setup.hosts found
  rw [henter, hfinds, hnext]
  have hasked := enter_asking (c := .readObject ObjectId.security) rfl next s₁ job
  refine ⟨⟨next, hasked⟩, ?_, ?_⟩
  · intro securities servers
    obtain ⟨next', hnext', -⟩ := hreads securities
    obtain ⟨s₂, hstep₂⟩ := step_object setup hasked (some securities)
    rw [hnext'] at hstep₂
    have hasked' := enter_asking (c := .readObject ObjectId.server) rfl next' s₂ job
    obtain ⟨s₃, hstep₃⟩ := step_object setup hasked' (some servers)
    refine ⟨s₃.enter true job (next' (some servers)), ?_⟩
    rw [run, hstep₂, Option.bind_some, run, hstep₃]
    rfl
  · intro inputs s' securities servers server lifetime address hrun hinputs hmanagement
      hlifetime haddress
    obtain ⟨a, s₂, later, ha, hrun₂, hlater⟩ := run_answer hasked hrun hinputs
    cases ha
    obtain ⟨next', hnext', hreads'⟩ := hreads securities
    rw [hnext'] at hrun₂
    obtain ⟨a, s₃, last, ha, hrun₃, hlast⟩ :=
      run_answer (enter_asking (c := .readObject ObjectId.server) rfl next' s₂ job) hrun₂ hlater
    cases ha
    obtain ⟨next'', hnext''⟩ := hsends _ server lifetime address hmanagement hlifetime haddress
    rw [hreads' servers, hnext''] at hrun₃
    obtain ⟨s₄, p, henter₄, rfl⟩ :
        Comes (fun _ p => p = .call (.send address server.info.isSecure (.update id)
          setup.settings.requestTimeout) next'') s₃ _ :=
      Comes.own (Asks.logAll fun line _ => isOwn_log line) fun _ _ _ =>
        Comes.own (Asks.log (isOwn_log _)) fun _ _ _ => Comes.here rfl
    rw [henter₄] at hrun₃
    exact ⟨next'', (run_aside hrun₃ hlast).trans (enter_asking (by rfl) next'' s₄ job)⟩

end Lwm2mClient.Service
