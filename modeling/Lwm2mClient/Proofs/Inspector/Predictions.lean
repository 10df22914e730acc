import Lwm2mClient.Proofs.Inspector.Provisioning
import Lwm2mClient.Proofs.Inspector.Verdicts
import Lwm2mClient.Proofs.Scenario.Starts

/-!
What the inspector foretells. It decides from what it finds in the store, before anything is
tried, and an engine finds the same out by trying: registering fails where the server is not
usable, and so does a bootstrap where there is no address. Both come to the same first request.
-/
namespace Lwm2mClient

open Net Scenario

namespace Inspector

/-- What a decision says of the first request of an engine for an endpoint. -/
def Decision.Predicts (endpoint : String)
    (o : Option (SocketAddress × Bool × Request)) : Decision → Prop
  | .register server => ∃ address lifetime binding links, server.address = some address ∧
      o = some (address, server.isSecure, .register endpoint lifetime binding links)
  | .bootstrap server => ∃ address, server.address = some address ∧
      o = some (address, server.isSecure, .bootstrap endpoint)
  | .nothing => o = none
  | .unsupported _ => False

theorem Decision.ofServers_of_unusable {found : Servers} (hone : found.management.length ≤ 1)
    (hunusable : ∀ server, found.theManagement = .ok server → server.isUsable = false) :
    Decision.ofServers found = Decision.ofBootstrap found := by
  unfold Decision.ofServers
  rcases hmanagement : found.management with _ | ⟨server, _ | ⟨other, more⟩⟩
  · simp only [Servers.theManagement, hmanagement]
  · have hserver : found.theManagement = .ok server := by
      simp only [Servers.theManagement, hmanagement]
    simp only [hserver, hunusable server hserver, Bool.false_eq_true, if_false]
  · rw [hmanagement] at hone
    exact absurd hone (by simp)

/-- The move in which an engine begins its work turns out as decided. -/
theorem Decision.predicts_of_begins {w : World} {e : Nat} {s : EngineState} {t : Thread}
    {found : Servers} (h : w.Begins e s t) (hfound : w.view.servers? w.hosts = some found)
    (hone : found.management.length ≤ 1) :
    ∃ o, (w.turn t).Opens o ∧ (Decision.ofServers found).Predicts s.settings.endpoint o := by
  obtain ⟨husable, hunusable⟩ := h.opens hfound
  by_cases hreach : ∃ server, found.theManagement = .ok server ∧ server.isUsable = true
  · obtain ⟨server, hserver, hreach⟩ := hreach
    obtain ⟨address, lifetime, binding, links, haddress, hopens⟩ := husable server hserver hreach
    refine ⟨_, hopens, ?_⟩
    simp only [Decision.ofServers, hserver, hreach, if_true]
    exact ⟨address, lifetime, binding, links, haddress, rfl⟩
  · have hnot : ∀ server, found.theManagement = .ok server → server.isUsable = false :=
      fun server hserver =>
      Bool.eq_false_iff.mpr fun hreach' => hreach ⟨server, hserver, hreach'⟩
    obtain ⟨hbootstrap, hnothing⟩ := hunusable hnot
    rw [Decision.ofServers_of_unusable hone hnot]
    cases hserver : found.theBootstrap with
    | none =>
      refine ⟨none, hnothing (by rw [hserver]; nofun), ?_⟩
      simp only [Decision.ofBootstrap, hserver]
      rfl
    | some server =>
      cases haddress : server.address with
      | none =>
        refine ⟨none, hnothing ?_, ?_⟩
        · rw [hserver]
          rintro _ ⟨⟩
          exact haddress
        · simp only [Decision.ofBootstrap, hserver, haddress]
          rfl
      | some address =>
        refine ⟨_, hbootstrap server address hserver haddress, ?_⟩
        simp only [Decision.ofBootstrap, hserver, haddress, Option.isSome_some, if_true]
        exact ⟨address, haddress, rfl⟩

end Inspector

theorem Scenario.SentRequest.essence_eq_some {first : Option SentRequest} {peer : SocketAddress}
    {secure : Bool} {request : Request}
    (h : first.map SentRequest.essence = some (peer, secure, request)) :
    ∃ x, first = some x ∧ x.peer = peer ∧ x.secure = secure ∧ x.request = request := by
  obtain ⟨x, hx, hessence⟩ := Option.map_eq_some_iff.mp h
  cases hessence
  exact ⟨x, hx, rfl, rfl, rfl⟩

namespace Scenario.World

/-- The first request that is told of where an engine is made and started and the clock is then
moved. -/
def firstTold (w : World) (moves : Nat) (values : List Setting)
    (spans : List Duration) : Option SentRequest :=
  ((w.tellAll moves (.makeEngine values :: .start :: spans.map .advance)).2.flatMap
    (·.sent)).head?

theorem IsIdle.silent {w : World} (h : w.IsIdle) : w.silent.IsIdle := { h with }

theorem firstTold_silent (w : World) (moves : Nat) (values : List Setting)
    (spans : List Duration) :
    w.silent.firstTold moves values spans = w.firstTold moves values spans := by
  simp only [firstTold, List.flatMap_def, tellAll_silent]

end Scenario.World

namespace Inspector

/-- What is decided by the servers of a store comes true. -/
theorem Decision.predicts_of_idle {w : World} {found : Servers} (h : w.IsIdle)
    (hfound : w.view.servers? w.hosts = some found) (hone : found.management.length ≤ 1)
    (values : List Setting) {span : Duration}
    (hspan : ∀ now, w.scheduler.now? = some now → (now.add? span).isSome) (spans : List Duration)
    {moves : Nat} (hmoves : 3 ≤ moves) :
    (Decision.ofServers found).Predicts (Settings.build values).endpoint
      ((w.firstTold moves values (span :: spans)).map SentRequest.essence) := by
  obtain ⟨n, rfl⟩ := Nat.exists_eq_add_of_le' hmoves
  obtain ⟨v, t, hbegins, hview, hhosts, htold⟩ :=
    World.tellAll_start h.silent rfl hfound hone values hspan spans n
  have hfound' : v.view.servers? v.hosts = some found := by
    rw [hview, hhosts]
    exact hfound
  obtain ⟨o, hopens, hpredicts⟩ := Decision.predicts_of_begins hbegins hfound' hone
  have hfirst : (w.silent.firstTold (n + 3) values (span :: spans)).map SentRequest.essence = o :=
    htold o hopens
  rw [World.firstTold_silent] at hfirst
  rw [hfirst]
  exact hpredicts

/-- The server that a decision is for. -/
def Decision.server? : Decision → Option ServerInfo
  | .register server | .bootstrap server => some server
  | .nothing | .unsupported _ => none

/-- Whoever is decided for is one of the servers found. -/
theorem Decision.mem_of_server? {found : Servers} {server : ServerInfo}
    (h : (Decision.ofServers found).server? = some server) :
    server ∈ found.bootstrap ∨ ∃ m ∈ found.management, m.info = server := by
  have hbootstrap : (Decision.ofBootstrap found).server? = some server →
      server ∈ found.bootstrap := by
    unfold Decision.ofBootstrap
    split
    · rename_i first hfirst
      split
      · rintro ⟨⟩
        exact List.mem_of_head? hfirst
      · nofun
    · nofun
  unfold Decision.ofServers at h
  split at h
  · rename_i m hm
    split at h
    · cases h
      refine Or.inr ⟨m, ?_, rfl⟩
      rw [Engine.theManagement_eq_ok hm]
      exact List.mem_singleton_self m
    · exact Or.inl (hbootstrap h)
  · exact Or.inl (hbootstrap h)
  · cases h

/-- Whoever is decided for is reached where the host table has it. -/
theorem Decision.resolve_of_server? {hosts : Hosts} {securities servers : Object}
    {server : ServerInfo} {address : SocketAddress}
    (h : (Decision.ofServers (Extraction.servers hosts securities servers)).server? = some server)
    (haddress : server.address = some address) :
    Extraction.resolve hosts server.uri = .ok address := by
  have hresolved :=
    Extraction.address_of_mem hosts securities servers server (Decision.mem_of_server? h)
  rw [haddress] at hresolved
  cases hresolve : Extraction.resolve hosts server.uri with
  | error e =>
    rw [hresolve] at hresolved
    cases hresolved
  | ok address' =>
    rw [hresolve] at hresolved
    cases hresolved
    rfl

/-- The kind of the first request that a decision is for. -/
def Decision.kind? : Decision → Option RequestKind
  | .register _ => some .register
  | .bootstrap _ => some .bootstrap
  | .nothing | .unsupported _ => none

theorem Decision.kind?_eq_register_iff {d : Decision} :
    d.kind? = some .register ↔ d.exitCode = 0 ∧ ∃ server, (Decision.register server).Alike d := by
  cases d with
  | register server => exact iff_of_true rfl ⟨rfl, server, rfl⟩
  | bootstrap server => exact iff_of_false nofun fun ⟨_, _, hother⟩ => hother
  | nothing | unsupported => exact iff_of_false nofun nofun

theorem Decision.kind?_eq_bootstrap_iff {d : Decision} :
    d.kind? = some .bootstrap ↔
      d.exitCode = 0 ∧ ∃ server, (Decision.bootstrap server).Alike d := by
  cases d with
  | register server => exact iff_of_false nofun fun ⟨_, _, hother⟩ => hother
  | bootstrap server => exact iff_of_true rfl ⟨rfl, server, rfl⟩
  | nothing | unsupported => exact iff_of_false nofun nofun

theorem Decision.kind?_eq_none_iff {d : Decision} : d.kind? = none ↔ d.exitCode = 1 := by
  cases d with
  | register | bootstrap => exact iff_of_false nofun nofun
  | nothing | unsupported => exact iff_of_true rfl rfl

section

variable {endpoint : String} {d : Decision} {first : Option SentRequest} {x : SentRequest}

/-- Where a decision comes true, the first request is of the kind that it is for. -/
theorem Decision.Predicts.kind (h : d.Predicts endpoint (first.map SentRequest.essence)) :
    first.map (RequestKind.of ·.request) = d.kind? := by
  cases d with
  | register server =>
    obtain ⟨_, _, _, _, -, hfirst⟩ := h
    obtain ⟨x, rfl, -, -, hrequest⟩ := SentRequest.essence_eq_some hfirst
    exact congrArg (some ∘ RequestKind.of) hrequest
  | bootstrap server =>
    obtain ⟨_, -, hfirst⟩ := h
    obtain ⟨x, rfl, -, -, hrequest⟩ := SentRequest.essence_eq_some hfirst
    exact congrArg (some ∘ RequestKind.of) hrequest
  | nothing => rw [Option.map_eq_none_iff.mp h]; rfl
  | unsupported error => exact absurd h id

/-- A first request goes to the server that was decided for, and nobody else is named. -/
theorem Decision.Predicts.served (h : d.Predicts endpoint (first.map SentRequest.essence))
    (hx : first = some x) :
    ∃ server, d.server? = some server ∧ server.address = some x.peer ∧
      x.secure = server.isSecure ∧
      ∀ other, (Decision.register other).Alike d ∨ (Decision.bootstrap other).Alike d →
        other.uri.text = server.uri.text := by
  cases d with
  | register server =>
    obtain ⟨_, _, _, _, haddress, hfirst⟩ := h
    obtain ⟨x, rfl, rfl, hsecure, -⟩ := SentRequest.essence_eq_some hfirst
    cases hx
    exact ⟨server, rfl, haddress, hsecure, fun other hother => hother.resolve_right id⟩
  | bootstrap server =>
    obtain ⟨_, haddress, hfirst⟩ := h
    obtain ⟨x, rfl, rfl, hsecure, -⟩ := SentRequest.essence_eq_some hfirst
    cases hx
    exact ⟨server, rfl, haddress, hsecure, fun other hother => hother.resolve_left id⟩
  | nothing =>
    rw [Option.map_eq_none_iff.mp h] at hx
    cases hx
  | unsupported error => exact absurd h id

end

/-- The inspector foretells the engine, whatever its arguments are and wherever they come from.
Over the store that it provisions, an engine that is started where nothing waits on the timeline
and no session was opened first asks for a registration iff the inspector says that it would
register, for a bootstrap iff it says that it would bootstrap, and for nothing iff the inspector
exits with a failure. The request goes to the address of the server that is named. -/
theorem first_request_of_report {a : Arguments} {w : World} {o : Outcome} (ho : o.IsFor w.hosts a)
    (hstore : provision a = .ok w.store) (hidle : w.IsIdle) (values : List Setting)
    {span : Duration} (hspan : ∀ now, w.scheduler.now? = some now → (now.add? span).isSome)
    (spans : List Duration) {moves : Nat} (hmoves : 3 ≤ moves) :
    let first := w.firstTold moves values (span :: spans)
    ((o.exitCode = 0 ∧ ∃ server, o.Says a.endpoint (.register server)) ↔
        first.map (RequestKind.of ·.request) = some .register) ∧
      ((o.exitCode = 0 ∧ ∃ server, o.Says a.endpoint (.bootstrap server)) ↔
        first.map (RequestKind.of ·.request) = some .bootstrap) ∧
      (o.exitCode = 1 ↔ first = none) ∧
      ∀ x, first = some x → ∃ uri : ServerUri, Extraction.resolve w.hosts uri = .ok x.peer ∧
        x.secure = decide (uri.scheme = .coaps) ∧
        ∀ server, o.Says a.endpoint (.register server) ∨ o.Says a.endpoint (.bootstrap server) →
          server.uri.text = uri.text := by
  obtain ⟨securities, servers, hsecurities, hservers, hone⟩ := servers_of_provision hstore
  have hfound :
      w.view.servers? w.hosts = some (Extraction.servers w.hosts securities servers) := by
    rw [World.servers?_of_plain hidle.plain, hsecurities, hservers]
  obtain ⟨hcode, htelling⟩ := report_says_iff w.hosts hstore hsecurities hservers
  have hexit := ho.exitCode_eq.trans hcode
  have hregister := fun server => (ho.says_iff rfl).trans (htelling (.register server) rfl)
  have hbootstrap := fun server => (ho.says_iff rfl).trans (htelling (.bootstrap server) rfl)
  have hpredicts :=
    Decision.predicts_of_idle hidle hfound (hone w.hosts) values hspan spans hmoves
  simp only [hexit, hregister, hbootstrap]
  have hkind := hpredicts.kind
  refine ⟨?_, ?_, ?_, fun x hx => ?_⟩
  · rw [hkind, Decision.kind?_eq_register_iff]
  · rw [hkind, Decision.kind?_eq_bootstrap_iff]
  · rw [← Decision.kind?_eq_none_iff, ← hkind, Option.map_eq_none_iff]
  obtain ⟨server, hserver, haddress, hsecure, hnamed⟩ := hpredicts.served hx
  exact ⟨server.uri, Decision.resolve_of_server? hserver haddress, hsecure, hnamed⟩

/-- A device with a store, and nothing else so far. -/
def newDevice (store : Store) : World :=
  { hosts := {}, level := none, store := store, scheduler := .timeline {}, scripts := [] }

theorem newDevice_isIdle (store : Store) : (newDevice store).IsIdle :=
  ⟨rfl, rfl, rfl, rfl, rfl, ⟨rfl, rfl⟩, rfl⟩

/-- A device management server without an address, and a bootstrap server that has one. -/
def sampleArguments : List String :=
  ["--dm-uri=coap://nowhere", "--bs-uri=coaps://10.0.0.2", "-l=60"]

theorem bootstrap_first_of_sample :
    ∃ store x, (newDevice store).firstTold 3 [] [.zero] = some x ∧
      RequestKind.of x.request = .bootstrap ∧
      x.peer = ⟨.v4 #v[10, 0, 0, 2], 5684, 0⟩ ∧ (inspect {} sampleArguments).exitCode = 0 ∧
      ∃ server, (inspect {} sampleArguments).Says "lwm2m-client" (.bootstrap server) := by
  let a : Arguments :=
    ⟨0, [(.managementUri, "coap://nowhere"), (.bootstrapUri, "coaps://10.0.0.2"),
      (.lifetime, "60")]⟩
  let store := (provision a).toOption.getD {}
  have hargs : CommandLine.ofArguments sampleArguments = .report a := by rfl
  have haccepted : (provision a).toOption.isSome = true := by decide +kernel
  have hstore : provision a = .ok (newDevice store).store := by
    change provision a = .ok ((provision a).toOption.getD {})
    cases hprovision : provision a with
    | error misuse =>
      rw [hprovision] at haccepted
      cases haccepted
    | ok found => rfl
  have hspan : ∀ now, (newDevice store).scheduler.now? = some now → (now.add? .zero).isSome := by
    rintro _ ⟨⟩
    rfl
  have hsent : ((newDevice store).firstTold 3 [] [.zero]).map
      (fun x => (RequestKind.of x.request, x.peer)) =
      some (.bootstrap, ⟨.v4 #v[10, 0, 0, 2], 5684, 0⟩) := by decide +kernel
  obtain ⟨x, hx, hkind⟩ := Option.map_eq_some_iff.mp hsent
  obtain ⟨hkind, hpeer⟩ := Prod.mk.inj hkind
  obtain ⟨-, hbootstrap, -, -⟩ :=
    first_request_of_report (.inspect hargs) hstore (newDevice_isIdle store) [] hspan
      [] (Nat.le_refl 3)
  obtain ⟨hcode, htelling⟩ := hbootstrap.mpr (by rw [hx]; exact congrArg some hkind)
  exact ⟨store, x, hx, hkind, hpeer, hcode, htelling⟩

end Inspector
end Lwm2mClient
