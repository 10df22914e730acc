import Lwm2mClient.Proofs.Engine.Parts
import Lwm2mClient.Proofs.Monitors

/-!
What lifecycle work sees of the store, and what it makes of it. Between two calls that let others
go on, all that is read is read from the same store. A request is sent in the same stretch in
which the server was looked up for it, so it goes to the server that the store names at that
moment, whatever was found there earlier.
-/
namespace Lwm2mClient

open Net Program

/-- What there is to be seen at a moment. -/
structure View where
  ids : List NumericId
  /-- What reading an object gives. -/
  object : NumericId → Option Object
  /-- The peer of the open session. -/
  peer : Option ServerInfo

namespace View

/-- The servers that the store names. -/
def servers? (v : View) (hosts : Hosts) : Option Servers :=
  match v.object ObjectId.security, v.object ObjectId.server with
  | some securities, some servers => some (Extraction.servers hosts securities servers)
  | _, _ => none

/-- The links of some objects. -/
def linksOf (v : View) (objects : List NumericId) : List Links.Link :=
  objects.flatMap fun object => Links.ofObject object (v.object object)

/-- The text that describes the objects in a registration. -/
def links (v : View) : String := Links.text (v.linksOf (Links.described v.ids))

/-- The store names one device management server and no other. -/
def Names (v : View) (hosts : Hosts) (server : ManagementServer) : Prop :=
  ∃ servers, v.servers? hosts = some servers ∧ servers.management = [server]

/-- A request is the one that the store asks for: it goes to the address of the only device
management server, in the way of its scheme, and a registration has the parameters of that server
and describes the objects; a bootstrap goes to the first bootstrap server, with which a session is
open. So no request reflects a store that names no such server, or one whose host has no address,
and none but a bootstrap one that names several to manage the device. -/
def Reflects (v : View) (hosts : Hosts) (peer : SocketAddress) (secure : Bool) : Request → Prop
  | .register _ lifetime binding links => ∃ server, v.Names hosts server ∧
      server.info.address = some peer ∧ server.info.isSecure = secure ∧
        server.lifetime = some lifetime ∧
        server.binding.map BindingMode.text = some binding ∧ v.links = links
  | .update _ | .deregister _ => ∃ server, v.Names hosts server ∧
      server.info.address = some peer ∧ server.info.isSecure = secure
  | .bootstrap _ => ∃ servers server, v.servers? hosts = some servers ∧
      servers.bootstrap.head? = some server ∧ server.address = some peer ∧
        server.isSecure = secure ∧
        v.peer = some server

end View

/-- Requests reflect what is to be seen when they are sent. Calls that let others go on leave
nothing certain of what was seen before. -/
def reflecting (hosts : Hosts) : Monitor View where
  permits v
    | .send peer secure request _ => v.Reflects hosts peer secure request
    | _ => True
  moves v c a v' :=
    match c with
    | .objectIds => a = v.ids ∧ v' = v
    | .readObject object => a = v.object object ∧ v' = v
    | .openSession peer => v' = if a then { v with peer := some peer } else v
    | .log _ | .release | .sessionActive | .registration | .setRegistration _ | .schedule ..
    | .cancelTask _ => v' = v
    | _ => True

namespace Engine

variable {α β : Type} {hosts : Hosts} {setup : Setup} {v : View}

/-! ### What is read -/

theorem keeps_line {line : Log.Line} {post : Unit → View → Prop} (h : post () v) :
    (log line).Keeps (reflecting hosts) post v := by
  refine Keeps.perform trivial ?_
  rintro ⟨⟩ v' rfl
  exact h

theorem keeps_lines {lines : List Log.Line} {post : Unit → View → Prop} (h : post () v) :
    (logAll lines).Keeps (reflecting hosts) post v := by
  induction lines with
  | nil => exact h
  | cons line rest ih => exact Keeps.bind (keeps_line ih)

theorem keeps_read {object : NumericId} {post : Option Object → View → Prop}
    (h : post (v.object object) v) :
    (Program.perform (.readObject object)).Keeps (reflecting hosts) post v := by
  refine Keeps.perform trivial ?_
  rintro a v' ⟨rfl, rfl⟩
  exact h

theorem keeps_findServers {post : Option Servers → View → Prop} (h : post (v.servers? hosts) v) :
    (findServers hosts).Keeps (reflecting hosts) post v := by
  unfold View.servers? at h
  refine Keeps.bind (keeps_read ?_)
  cases hsecurities : v.object ObjectId.security with
  | none =>
    rw [hsecurities] at h
    exact h
  | some securities =>
    refine Keeps.bind (keeps_read ?_)
    rw [hsecurities] at h
    cases hservers : v.object ObjectId.server with
    | none =>
      rw [hservers] at h
      exact h
    | some servers =>
      rw [hservers] at h
      exact Keeps.bind (keeps_lines h)

theorem keeps_readLinks {objects : List NumericId} {post : List Links.Link → View → Prop}
    (h : post (v.linksOf objects) v) :
    (readLinks objects).Keeps (reflecting hosts) post v := by
  induction objects generalizing post with
  | nil => exact h
  | cons object rest ih => exact Keeps.bind (keeps_read (Keeps.bind (ih h)))

theorem keeps_describeObjects {post : String → View → Prop} (h : post v.links v) :
    describeObjects.Keeps (reflecting hosts) post v := by
  refine Keeps.bind (Keeps.perform trivial ?_)
  rintro ids v' ⟨rfl, rfl⟩
  exact Keeps.bind (keeps_readLinks h)

theorem theManagement_eq_ok {servers : Servers} {server : ManagementServer}
    (h : servers.theManagement = .ok server) : servers.management = [server] := by
  unfold Servers.theManagement at h
  split at h
  · cases h
  · rename_i only honly
    cases h
    exact honly
  · cases h

theorem keeps_requireServers {post : Except Error Servers → View → Prop}
    (herror : ∀ e, post (.error e) v)
    (hfound : ∀ servers, v.servers? setup.hosts = some servers → post (.ok servers) v) :
    (requireServers setup).Keeps (reflecting setup.hosts) post v := by
  refine Keeps.bind (keeps_findServers ?_)
  cases hservers : v.servers? setup.hosts with
  | none => exact herror _
  | some servers => exact hfound servers hservers

theorem keeps_requireManagement {post : Except Error ManagementServer → View → Prop}
    (herror : ∀ e, post (.error e) v)
    (hfound : ∀ server, v.Names setup.hosts server → post (.ok server) v) :
    (requireManagement setup).Keeps (reflecting setup.hosts) post v := by
  refine Keeps.bind (keeps_requireServers (fun e => herror e) fun servers hservers => ?_)
  change post servers.theManagement v
  cases hmanagement : servers.theManagement with
  | error e => exact herror e
  | ok server => exact hfound server ⟨servers, hservers, theManagement_eq_ok hmanagement⟩

theorem keeps_requireBootstrap {post : Except Error (ServerInfo × SocketAddress) → View → Prop}
    (herror : ∀ e, post (.error e) v)
    (hfound : ∀ servers server address, v.servers? setup.hosts = some servers →
      servers.bootstrap.head? = some server → server.address = some address →
        post (.ok (server, address)) v) :
    (requireBootstrap setup).Keeps (reflecting setup.hosts) post v := by
  refine Keeps.bind (keeps_requireServers (fun e => herror e) fun servers hservers => ?_)
  dsimp only
  split
  · exact herror _
  · rename_i server hserver
    unfold ServerInfo.requireAddress
    cases haddress : server.address with
    | none => exact herror _
    | some address => exact hfound servers server address hservers hserver haddress

/-! ### What is sent -/

/-- Work on the registration and its renewal changes nothing of what is to be seen. -/
theorem keeps_upkeep {p : Program α} {mid : α → Prop} {post : α → View → Prop}
    (hp : p.Asks Call.isUpkeep mid) (h : ∀ a, post a v) : p.Keeps (reflecting hosts) post v := by
  refine Keeps.of_still hp (fun c hc => ?_) h
  cases c with
  | log | registration | setRegistration | schedule | cancelTask =>
    exact ⟨trivial, fun _ _ hmove => hmove⟩
  | _ => exact absurd hc id

/-- A program sends nothing but what reflects the store, whatever is to be seen where it
begins. -/
def IsReflecting {α : Type} (hosts : Hosts) (p : Program α) : Prop :=
  ∀ v, p.Keeps (reflecting hosts) (fun _ _ => True) v

theorem reflecting_sequential (hosts : Hosts) : Sequential fun p => IsReflecting hosts p where
  done _ _ := trivial
  bind hp hf v := Keeps.bind ((hp v).mono fun value v' _ => hf value v')
  line _ _ := keeps_line trivial
  upkeep hp _ := keeps_upkeep hp fun _ => trivial

/-- After a request nothing is certain of what is to be seen. -/
theorem keeps_ask {server : ManagementServer} {request : Request}
    (hreflects : ∀ address, server.info.address = some address →
      v.Reflects setup.hosts address server.info.isSecure request) :
    (ask setup server request).Keeps (reflecting setup.hosts) (fun _ _ => True) v := by
  unfold ask ServerInfo.requireAddress
  cases haddress : server.info.address with
  | none => exact trivial
  | some address =>
    refine Keeps.bind (keeps_line (Keeps.bind (Keeps.perform (hreflects address haddress) ?_)))
    intro answer v' _
    cases answer <;> exact trivial

theorem keeps_asking {server : ManagementServer} {request : Request}
    {f : Except Error Response → Program α}
    (hreflects : ∀ address, server.info.address = some address →
      v.Reflects setup.hosts address server.info.isSecure request)
    (hf : ∀ outcome, IsReflecting setup.hosts (f outcome)) :
    (ask setup server request >>= f).Keeps (reflecting setup.hosts) (fun _ _ => True) v :=
  Keeps.bind ((keeps_ask hreflects).mono fun outcome v' _ => hf outcome v')

theorem isReflecting_sendRegister (setup : Setup) :
    IsReflecting setup.hosts (sendRegister setup) := by
  refine fun v => Keeps.bind (keeps_requireManagement (fun e => trivial) fun server hserver => ?_)
  dsimp only
  unfold registerParameters
  cases hlifetime : server.lifetime with
  | none => exact trivial
  | some lifetime =>
    cases hbinding : server.binding with
    | none => exact trivial
    | some binding =>
      have h := reflecting_sequential setup.hosts
      refine Keeps.bind (keeps_describeObjects (keeps_asking ?_ fun outcome => ?_))
      · intro address haddress
        exact ⟨server, hserver, haddress, rfl, hlifetime, by rw [hbinding]; rfl, rfl⟩
      · cases outcome with
        | error e => exact h.done _
        | ok response => exact h.bind (h.grantedId response) fun _ => h.done _

theorem isReflecting_registerNow (setup : Setup) :
    IsReflecting setup.hosts (registerNow setup) :=
  (reflecting_sequential setup.hosts).registerNow (isReflecting_sendRegister setup)

theorem isReflecting_sendUpdate (setup : Setup) (id : String) :
    IsReflecting setup.hosts (sendUpdate setup id) := by
  refine fun v => Keeps.bind (keeps_requireManagement (fun e => trivial) fun server hserver => ?_)
  dsimp only
  split
  · exact trivial
  · refine keeps_asking (fun address haddress => ⟨server, hserver, haddress, rfl⟩) fun outcome =>
      ?_
    cases outcome with
    | error e => exact (reflecting_sequential setup.hosts).done _
    | ok response =>
      dsimp only
      split <;> exact (reflecting_sequential setup.hosts).done _

theorem isReflecting_deregisterNow (setup : Setup) :
    IsReflecting setup.hosts (deregisterNow setup) := by
  have h := reflecting_sequential setup.hosts
  have hretained : ∀ line, IsReflecting setup.hosts
      (log line >>= fun _ => fire .retained >>= fun _ => .done false) :=
    fun line => h.bind (h.line line) fun _ => h.bind (h.fire .retained) fun _ => h.done _
  refine h.bind h.registration fun r => ?_
  split
  · exact h.done _
  · refine fun v => Keeps.bind (keeps_requireManagement ?_ fun server hserver => ?_)
    · exact fun e => h.bind (h.line _) (fun _ => h.done _) v
    · refine Keeps.bind (keeps_upkeep (fire_upkeep .deregister) fun _ => ?_)
      refine keeps_asking
        (fun address haddress => ⟨server, hserver, haddress, rfl⟩) fun outcome => ?_
      cases outcome with
      | error e => exact hretained _
      | ok response =>
        dsimp only
        split
        · exact h.bind (h.line _) fun _ => h.bind h.forget fun _ => h.done _
        · exact hretained _

/-- A call that is permitted whatever is to be seen. -/
theorem isReflecting_perform {c : Call} (hc : ∀ v, (reflecting hosts).permits v c) :
    IsReflecting hosts (Program.perform c) :=
  fun v => Keeps.perform (hc v) fun _ _ _ => trivial

theorem isReflecting_bootstrapNow (setup : Setup) :
    IsReflecting setup.hosts (bootstrapNow setup) := by
  have h := reflecting_sequential setup.hosts
  have hline : ∀ line, IsReflecting setup.hosts (log line >>= fun _ => .done false) :=
    fun line => h.bind (h.line line) fun _ => h.done _
  refine fun v => Keeps.bind (keeps_requireBootstrap (fun e => hline _ v) ?_)
  intro servers server address hservers hserver haddress
  refine Keeps.bind (Keeps.perform trivial ?_)
  rintro opened v' rfl
  cases opened with
  | false => exact hline _ _
  | true =>
    refine Keeps.bind (keeps_upkeep (fire_upkeep .bootstrap) fun _ =>
      Keeps.bind (Keeps.perform ?_ ?_))
    · exact ⟨servers, server, hservers, hserver, haddress, rfl, rfl⟩
    · intro answer v' _
      have hclose : IsReflecting setup.hosts (Program.perform .closeSession) :=
        isReflecting_perform fun _ => trivial
      refine h.bind (h.awaitBootstrap (isReflecting_perform fun _ => trivial) answer)
        (fun finished => h.bind hclose fun _ => ?_) v'
      split
      · exact h.bind (h.line _) fun _ => isReflecting_registerNow setup
      · exact h.bind h.forget fun _ => h.done _

/-! ### Whole operations -/

theorem reflecting_combines (setup : Setup) :
    Combines setup (fun p => IsReflecting setup.hosts p) fun p => IsReflecting setup.hosts p where
  toSequential := reflecting_sequential setup.hosts
  knowsManagement _ := Keeps.bind (keeps_findServers (by split <;> exact trivial))
  sendRegister := isReflecting_sendRegister setup
  sendUpdate := isReflecting_sendUpdate setup
  deregisterNow := isReflecting_deregisterNow setup
  ofPart := id
  andThen := (reflecting_sequential setup.hosts).bind
  bootstrapNow := isReflecting_bootstrapNow setup

theorem permits_of_isOfTurn {c : Call} (hc : c.isOfTurn) (v : View) :
    (reflecting hosts).permits v c := by
  cases c <;> first | exact trivial | exact absurd hc id

theorem permits_of_isOfGate {c : Call} (hc : c.isOfGate) (v : View) :
    (reflecting hosts).permits v c := by
  cases c <;> first | exact trivial | exact absurd hc id

theorem isReflecting_operation (setup : Setup) (o : Operation) :
    IsReflecting setup.hosts (o.program setup) :=
  (reflecting_combines setup).operation
    (fun _ hc => isReflecting_perform (permits_of_isOfTurn hc))
    (fun _ hc => isReflecting_perform (permits_of_isOfGate hc)) o

theorem isReflecting_work (setup : Setup) (work : Work) :
    IsReflecting setup.hosts (Engine.work setup work) :=
  (reflecting_combines setup).work
    (fun _ hc => isReflecting_perform (permits_of_isOfTurn hc)) work

end Engine
end Lwm2mClient
