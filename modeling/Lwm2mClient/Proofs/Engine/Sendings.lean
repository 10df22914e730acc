import Lwm2mClient.Proofs.Engine.Views

/-!
When an attempt sends its request. While the store shows the same to every reading, there is
no way around the request that the shown servers call for: a registration where the only
device management server has an address, a lifetime and a binding, an update where it has an
address and a lifetime, and a bootstrap where the first bootstrap server has an address,
unless a session is in progress. This holds also of the attempts that an operation goes on
to when the first has failed.
-/
namespace Lwm2mClient

open Net Program

/-- Whether an answer is what a view shows, where it tells of the store. -/
def View.Answers (v : View) : (c : Call) → c.Answer → Prop
  | .objectIds, ids => ids = v.ids
  | .readObject object, value => value = v.object object
  | _, _ => True

/-- The store shows the same to every reading, whatever else is answered. -/
def showing (v : View) : Monitor Unit where
  permits _ _ := True
  moves _ c a _ := v.Answers c a

namespace Engine

variable {α β : Type} {setup : Setup} {v : View} {server : ManagementServer} {first : ServerInfo}
  {servers : Servers} {address : SocketAddress} {goal : Call → Prop}

/-- A server is usable where its parameters and its address are known. -/
theorem isUsable_iff :
    server.isUsable = true ↔
      (∃ parameters, registerParameters server = .ok parameters) ∧
        ∃ address, server.info.address = some address := by
  obtain ⟨⟨uri, _ | address, shortId⟩, _ | lifetime, _ | binding⟩ := server <;>
    simp [ManagementServer.isUsable, registerParameters]

/-- A Register request with the parameters of a server and the links that a view shows. -/
def AsksRegister (setup : Setup) (v : View) (server : ManagementServer) (c : Call) : Prop :=
  ∃ address lifetime binding, server.info.address = some address ∧
    registerParameters server = .ok (lifetime, binding) ∧
    c = .send address server.info.isSecure
      (.register setup.settings.endpoint lifetime binding.text v.links)
        setup.settings.requestTimeout

def AsksUpdate (setup : Setup) (server : ManagementServer) (c : Call) : Prop :=
  ∃ address id, server.info.address = some address ∧
    c = .send address server.info.isSecure (.update id) setup.settings.requestTimeout

def AsksBootstrap (setup : Setup) (server : ServerInfo) (c : Call) : Prop :=
  ∃ address, server.address = some address ∧
    c = .send address server.isSecure (.bootstrap setup.settings.endpoint)
      setup.settings.requestTimeout

/-- An attempt to bootstrap is made, or refused because a session is in progress. -/
def TriesBootstrap (setup : Setup) (server : ServerInfo) (c : Call) : Prop :=
  c = .log .bootstrapInProgress ∨ AsksBootstrap setup server c

/-- A registration is granted, or an attempt to bootstrap follows. -/
def RegistersOrBootstraps (setup : Setup) (server : ServerInfo) (c : Call) : Prop :=
  (∃ id, c = .log (.registeredAs id)) ∨ TriesBootstrap setup server c

/-- An update is skipped, granted or given up for what is missing in the configuration, or a new
registration is granted, or an attempt to bootstrap follows. -/
def UpdatesOrEscalates (setup : Setup) (server : ServerInfo) (c : Call) : Prop :=
  c = .log .updateSkipped ∨ c = .log .updated ∨ (∃ e, c = .log (.updateFailed e)) ∨
    RegistersOrBootstraps setup server c

/-! ### Looking for the server -/

/-- Whatever a program does, it can be passed over. -/
theorem reaches_after (p : Program α) {f : α → Program β} {post : β → Unit → Prop}
    (h : ∀ value, (f value).Reaches (showing v) goal post ()) :
    (p >>= f).Reaches (showing v) goal post () := by
  induction p with
  | done value => exact h value
  | call c next ih => exact Or.inr fun a _ _ => ih a

/-- A search gives what it gives to a reader of the view. -/
theorem reaches_reading (hosts : Hosts) {p : Program α} {f : α → Program β} {mid : α → Prop}
    {post : β → Unit → Prop} (hp : p.Asks Call.isReading mid)
    (hkeeps : p.Keeps (reflecting hosts)
      (fun value _ => (f value).Reaches (showing v) goal post ()) v) :
    (p >>= f).Reaches (showing v) goal post () := by
  induction p with
  | done value => exact hkeeps
  | call c next ih =>
    refine Or.inr fun a _ hanswer => ih a (hp.2 a) ?_
    cases c with
    | objectIds | readObject => exact hkeeps.2 a v ⟨hanswer, rfl⟩
    | log line => exact hkeeps.2 a v rfl
    | _ => exact absurd hp.1 id

theorem reaches_requireManagement {f : Except Error ManagementServer → Program β}
    {post : β → Unit → Prop} (hnamed : v.Names setup.hosts server)
    (h : (f (.ok server)).Reaches (showing v) goal post ()) :
    (requireManagement setup >>= f).Reaches (showing v) goal post () := by
  obtain ⟨servers, hservers, honly⟩ := hnamed
  refine reaches_reading setup.hosts (requireManagement_reads setup) (Keeps.bind (Keeps.bind ?_))
  refine keeps_findServers ?_
  rw [hservers]
  change (f servers.theManagement).Reaches (showing v) goal post ()
  rw [Servers.theManagement, honly]
  exact h

theorem reaches_requireBootstrap {f : Except Error (ServerInfo × SocketAddress) → Program β}
    {post : β → Unit → Prop} (hservers : v.servers? setup.hosts = some servers)
    (hfirst : servers.bootstrap.head? = some first) (haddress : first.address = some address)
    (h : (f (.ok (first, address))).Reaches (showing v) goal post ()) :
    (requireBootstrap setup >>= f).Reaches (showing v) goal post () := by
  refine reaches_reading setup.hosts (requireBootstrap_reads setup) (Keeps.bind (Keeps.bind ?_))
  refine keeps_findServers ?_
  have htheBootstrap : servers.theBootstrap = some first := hfirst
  simp only [hservers, Program.pure_eq_done, Keeps, htheBootstrap, ServerInfo.requireAddress,
    haddress]
  exact h

theorem reaches_knowsManagement {f : Bool → Program β} {post : β → Unit → Prop}
    (hservers : v.servers? setup.hosts = some servers)
    (h : (f !servers.management.isEmpty).Reaches (showing v) goal post ()) :
    (knowsManagement setup >>= f).Reaches (showing v) goal post () := by
  refine reaches_reading setup.hosts (knowsManagement_reads setup)
    (Keeps.bind (keeps_findServers ?_))
  rw [hservers]
  exact h

/-! ### Requests -/

theorem ask_reaches {request : Request} {post : Except Error Response → Unit → Prop}
    (haddress : server.info.address = some address)
    (hgoal : goal (.send address server.info.isSecure request setup.settings.requestTimeout)) :
    (ask setup server request).Reaches (showing v) goal post () := by
  unfold ask
  rw [ServerInfo.requireAddress, haddress]
  exact reaches_after (log _) fun _ => Reaches.bind (Reaches.perform hgoal)

theorem sendRegister_reaches {post : Except Error (String × UInt64) → Unit → Prop}
    (hnamed : v.Names setup.hosts server) (husable : server.isUsable = true) :
    (sendRegister setup).Reaches (showing v) (AsksRegister setup v server) post () := by
  obtain ⟨⟨⟨lifetime, binding⟩, hparameters⟩, address, haddress⟩ := isUsable_iff.mp husable
  refine reaches_requireManagement hnamed ?_
  simp only [hparameters]
  refine reaches_reading setup.hosts describeObjects_reads (keeps_describeObjects ?_)
  exact Reaches.bind
    (ask_reaches haddress ⟨address, lifetime, binding, haddress, hparameters, rfl⟩)

theorem sendUpdate_reaches (id : String) (hnamed : v.Names setup.hosts server)
    (haddress : server.info.address = some address) (hlifetime : server.lifetime.isSome = true) :
    (sendUpdate setup id).Reaches (showing v) (AsksUpdate setup server)
      (fun _ _ => False) () := by
  obtain ⟨lifetime, hlifetime⟩ := Option.isSome_iff_exists.mp hlifetime
  refine reaches_requireManagement hnamed ?_
  simp only [hlifetime]
  exact Reaches.bind (ask_reaches haddress ⟨address, id, haddress, rfl⟩)

/-! ### Attempts -/

theorem registerNow_reaches (hnamed : v.Names setup.hosts server)
    (husable : server.isUsable = true) :
    (registerNow setup).Reaches (showing v) (AsksRegister setup v server) (fun _ _ => False) () :=
  reaches_after (fire _) fun _ => Reaches.bind (sendRegister_reaches hnamed husable)

/-- An update sends its request, unless there is no registration to update. -/
theorem updateNow_reaches (hnamed : v.Names setup.hosts server)
    (haddress : server.info.address = some address) (hlifetime : server.lifetime.isSome = true) :
    (updateNow setup).Reaches (showing v)
      (fun c => c = .log .updateSkipped ∨ AsksUpdate setup server c) (fun _ _ => False) () := by
  refine reaches_after cancelRenewal fun _ => reaches_after registration fun r => ?_
  split
  · exact Reaches.bind (Reaches.perform (Or.inl rfl))
  · rename_i id _
    refine reaches_after (fire _) fun _ => Reaches.bind ?_
    exact (sendUpdate_reaches id hnamed haddress hlifetime).surely fun _ => Or.inr

section

variable (hservers : v.servers? setup.hosts = some servers)
  (hfirst : servers.bootstrap.head? = some first) (haddress : first.address = some address)

include hservers hfirst haddress

theorem bootstrapNow_reaches :
    (bootstrapNow setup).Reaches (showing v) (TriesBootstrap setup first)
      (fun _ _ => False) () := by
  refine reaches_requireBootstrap hservers hfirst haddress ?_
  refine reaches_after (Program.perform (.openSession first)) fun opened => ?_
  cases opened with
  | false => exact Reaches.bind (Reaches.perform (Or.inl rfl))
  | true =>
    refine reaches_after (fire _) fun _ => Reaches.bind (Reaches.perform (Or.inr ?_))
    exact ⟨address, haddress, rfl⟩

theorem registerOrBootstrap_reaches :
    (registerNow setup >>= fun registered =>
      if registered = true then pure true else bootstrapNow setup).Reaches (showing v)
        (RegistersOrBootstraps setup first) (fun _ _ => False) () := by
  have htries : (bootstrapNow setup).Reaches (showing v) (RegistersOrBootstraps setup first)
      (fun _ _ => False) () :=
    (bootstrapNow_reaches hservers hfirst haddress).surely fun _ => Or.inr
  refine Reaches.bind (reaches_after (fire _) fun _ => reaches_after (sendRegister setup) ?_)
  intro granted
  cases granted with
  | error e => exact reaches_after (log _) fun _ => reaches_after forget fun _ => htries
  | ok granted => exact Reaches.bind (Reaches.perform (Or.inl ⟨granted.1, rfl⟩))

/-- An update that fails with the server comes to a registration or to an attempt to bootstrap. -/
theorem updateNow_escalates :
    (updateNow setup).Reaches (showing v) (UpdatesOrEscalates setup first)
      (fun _ _ => False) () := by
  refine reaches_after cancelRenewal fun _ => reaches_after registration fun r => ?_
  split
  · exact Reaches.bind (Reaches.perform (Or.inl rfl))
  · refine reaches_after (fire _) fun _ => reaches_after (sendUpdate setup _) fun outcome => ?_
    split
    · exact Reaches.bind (Reaches.perform (Or.inr (Or.inl rfl)))
    · refine reaches_after (log _) fun _ => reaches_after forget fun _ => ?_
      exact (bootstrapNow_reaches hservers hfirst haddress).surely fun _ h =>
        Or.inr (Or.inr (Or.inr (Or.inr h)))
    · refine reaches_after (log _) fun _ => ?_
      exact (registerOrBootstrap_reaches hservers hfirst haddress).surely fun _ h =>
        Or.inr (Or.inr (Or.inr h))
    · exact Reaches.bind (Reaches.perform (Or.inr (Or.inr (Or.inl ⟨_, rfl⟩))))

/-- A start comes to a registration or to an attempt to bootstrap. -/
theorem startNow_escalates :
    (startNow setup).Reaches (showing v) (RegistersOrBootstraps setup first)
      (fun _ _ => False) () := by
  refine reaches_after (log _) fun _ => reaches_after (knowsManagement setup) fun known => ?_
  split
  · exact registerOrBootstrap_reaches hservers hfirst haddress
  · exact (bootstrapNow_reaches hservers hfirst haddress).surely fun _ => Or.inr

end

/-- A start asks for a registration where a usable server is named. -/
theorem startNow_reaches (hnamed : v.Names setup.hosts server)
    (husable : server.isUsable = true) :
    (startNow setup).Reaches (showing v) (AsksRegister setup v server) (fun _ _ => False) () := by
  obtain ⟨servers, hservers, honly⟩ := hnamed
  refine reaches_after (log _) fun _ => reaches_knowsManagement hservers ?_
  rw [honly]
  exact Reaches.bind ((registerNow_reaches ⟨servers, hservers, honly⟩ husable).surely fun _ => id)

end Engine
end Lwm2mClient
