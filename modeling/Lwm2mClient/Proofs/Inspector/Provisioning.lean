import Lwm2mClient.Inspector.Report
import Lwm2mClient.Proofs.Store.Purging
import Mathlib.Data.List.Basic

/-!
The stores that the inspector provisions, and the servers that are found there. Whatever the
arguments are, the device knows one bootstrap server and one device management server at most, and
each is reached where the host table has it.
-/
namespace Lwm2mClient

open Net

/-- No more device management servers are found than there are instances of other than bootstrap
servers. -/
theorem Extraction.management_length_le (hosts : Hosts) (securities servers : Object) :
    (Extraction.servers hosts securities servers).management.length ≤
      (securities.instances.values.filter fun i => !isBootstrap i).length := by
  have hothers : (Extraction.servers hosts securities servers).management =
      (securities.instances.values.filter fun i => !isBootstrap i).filterMap fun i =>
        (entryOf hosts servers i).toOption.bind Entry.management? := by
    simp only [Extraction.servers, serversOf, List.filterMap_filterMap, List.filterMap_filter]
    congr 1
    funext i
    by_cases hbootstrap : isBootstrap i = true
    · rw [management?_entryOf_of_isBootstrap hbootstrap, hbootstrap]
      rfl
    · rw [Bool.not_eq_true] at hbootstrap
      simp only [hbootstrap, Bool.not_false, if_true]
  rw [hothers]
  exact List.length_filterMap_le _ _

/-- Every server that is found has the address of its host. -/
theorem Extraction.address_of_mem (hosts : Hosts) (securities servers : Object)
    (server : ServerInfo) (h : server ∈ (Extraction.servers hosts securities servers).bootstrap ∨
      ∃ m ∈ (Extraction.servers hosts securities servers).management, m.info = server) :
    server.address = (resolve hosts server.uri).toOption := by
  have hentry : ∀ i entry, (entryOf hosts servers i).toOption = some entry →
      (entry.bootstrap? = some server ∨ entry.management?.map (·.info) = some server) →
        server.address = (resolve hosts server.uri).toOption := by
    intro i entry hentry hserver
    unfold entryOf at hentry
    cases huri : uriOf i with
    | error e =>
      rw [huri] at hentry
      cases hentry
    | ok uri =>
      rw [huri] at hentry
      cases hentry
      split at hserver <;> rcases hserver with hserver | hserver <;> cases hserver <;> rfl
  rcases h with h | ⟨m, h, rfl⟩
  · obtain ⟨entry, hmem, hserver⟩ := List.mem_filterMap.mp h
    obtain ⟨i, -, hi⟩ := List.mem_filterMap.mp hmem
    exact hentry i entry hi (Or.inl hserver)
  · obtain ⟨entry, hmem, hserver⟩ := List.mem_filterMap.mp h
    obtain ⟨i, -, hi⟩ := List.mem_filterMap.mp hmem
    exact hentry i entry hi (Or.inr (by rw [hserver]; rfl))

@[simp] theorem Security.toInstance_id (s : Security)
    (n : NumericId) : (s.toInstance n).id = n := by
  unfold toInstance
  split <;> rfl

@[simp] theorem Security.isBootstrap_toInstance (s : Security) (n : NumericId) :
    Extraction.isBootstrap (s.toInstance n) = s.bootstrapServer := by
  have hflag : (s.toInstance n).boolean SecurityResource.bootstrap = some s.bootstrapServer := by
    unfold toInstance
    split <;> rfl
  rw [Extraction.isBootstrap, hflag]
  cases s.bootstrapServer <;> rfl

namespace Inspector

/-- A store with a bootstrap server and a device management server, each if it is given. -/
def provisioned (endpoint : String) (bootstrap : Option String)
    (management : Option (Security × Server)) : Store :=
  let first := bootstrap.elim (blankStore endpoint) fun uri =>
    (blankStore endpoint).putSecurity 0 (.plainBootstrap uri)
  management.elim first fun m => (first.putSecurity 1 m.1).putServer 0 m.2

theorem provision_eq_ok {a : Arguments} {store : Store} (h : provision a = .ok store) :
    ∃ management, store = provisioned a.endpoint (a.value? .bootstrapUri) management := by
  unfold provision at h
  cases hnumbers : numbers a with
  | error misuse => simp [hnumbers, bind, Except.bind] at h
  | ok values =>
    obtain ⟨shortId, lifetime⟩ := values
    simp only [hnumbers, bind, Except.bind] at h
    cases huri : a.value? .managementUri with
    | none =>
      rw [huri] at h
      cases h
      refine ⟨none, ?_⟩
      cases a.value? .bootstrapUri <;> rfl
    | some uri =>
      simp only [huri] at h
      cases hsecurity : managementSecurity a uri shortId with
      | error misuse => simp [hsecurity] at h
      | ok security =>
        simp only [hsecurity] at h
        cases h
        refine ⟨some (security, ⟨shortId, lifetime, a.binding⟩), ?_⟩
        cases a.value? .bootstrapUri <;> rfl

/-- The Security instances of a provisioned device: at most one of a bootstrap
server and one of another. -/
theorem read_provisioned (endpoint : String) (bootstrap : Option String)
    (management : Option (Security × Server)) :
    ∃ securities servers, (provisioned endpoint bootstrap management).read ObjectId.security =
      some securities ∧
      (provisioned endpoint bootstrap management).read ObjectId.server = some servers ∧
      securities.instances.values =
        (bootstrap.map fun uri => (Security.plainBootstrap uri).toInstance 0).toList ++
        (management.map fun m => m.1.toInstance 1).toList := by
  cases bootstrap <;> cases management <;>
    simp only [provisioned, Option.elim, Store.putSecurity, Store.putServer, Store.put,
      Security.toInstance_id] <;>
    exact ⟨_, _, rfl, rfl, rfl⟩

/-- A device that is provisioned knows its servers, and no more than one of them manages it. -/
theorem servers_of_provision {a : Arguments} {store : Store} (h : provision a = .ok store) :
    ∃ securities servers, store.read ObjectId.security = some securities ∧
      store.read ObjectId.server = some servers ∧ ∀ hosts,
        (Extraction.servers hosts securities servers).management.length ≤ 1 := by
  obtain ⟨management, rfl⟩ := provision_eq_ok h
  obtain ⟨securities, servers, hsecurities, hservers, hvalues⟩ :=
    read_provisioned a.endpoint (a.value? .bootstrapUri) management
  refine ⟨securities, servers, hsecurities, hservers, fun hosts => ?_⟩
  refine Nat.le_trans (Extraction.management_length_le hosts securities servers) ?_
  have hbootstrap : ((a.value? .bootstrapUri).map fun uri =>
      (Security.plainBootstrap uri).toInstance 0).toList.filter (fun i =>
        !Extraction.isBootstrap i) = [] := by
    cases a.value? .bootstrapUri <;> simp [Security.plainBootstrap]
  rw [hvalues, List.filter_append, hbootstrap, List.nil_append]
  refine Nat.le_trans (List.length_filter_le _ _) ?_
  cases management <;> simp

end Inspector
end Lwm2mClient
