import Lwm2mClient.Engine.Operations
import Lwm2mClient.Proofs.Programs

/-!
The parts of lifecycle work that only read the object store. They report what they find
there, they send nothing, and they leave the state of the client alone; what they miss is
missing in the configuration.
-/
namespace Lwm2mClient

open Net Program

/-- Whether a line tells of what was found in the Security and Server objects. -/
def Log.Line.isFinding : Log.Line → Bool
  | securitySkipped .. | hostUnresolved .. | bindingUnknown .. | serverInstanceMissing ..
  | serversFound _ => true
  | _ => false

/-- The calls that read the store and report what was found. -/
def Call.isReading : Call → Prop
  | .objectIds | .readObject _ => True
  | .log line => line.isFinding
  | _ => False

/-- Whether the cause of an error lies with the client, not with a server that was asked
something. -/
def Error.isLocal : Error → Bool
  | timeout | rejected _ => false
  | _ => true

namespace Extraction

theorem isFinding_of_mem_parameterLines {servers : Object} {info : ServerInfo} {line : Log.Line}
    (h : line ∈ parameterLines servers info) : line.isFinding = true := by
  unfold parameterLines bindingLines at h
  split at h
  · split at h
    · split at h
      · cases h
      · rw [List.mem_singleton.mp h]
        rfl
    · cases h
  · rw [List.mem_singleton.mp h]
    rfl

theorem isFinding_of_mem_entryLines {hosts : Hosts} {servers : Object} {security : ObjectInstance}
    {line : Log.Line} (h : line ∈ entryLines hosts servers security) : line.isFinding = true := by
  unfold entryLines at h
  split at h
  · rw [List.mem_singleton.mp h]
    rfl
  · rcases List.mem_append.mp h with haddress | hparameters
    · unfold addressLines at haddress
      split at haddress
      · cases haddress
      · rw [List.mem_singleton.mp haddress]
        rfl
    · split at hparameters
      · cases hparameters
      · exact isFinding_of_mem_parameterLines hparameters

theorem isFinding_of_mem_lines {hosts : Hosts} {securities servers : Object} {line : Log.Line}
    (h : line ∈ lines hosts securities servers) : line.isFinding = true := by
  rcases List.mem_append.mp h with hentries | hfound
  · obtain ⟨security, -, hentry⟩ := List.mem_flatMap.mp hentries
    exact isFinding_of_mem_entryLines hentry
  · rw [List.mem_singleton.mp hfound]
    rfl

end Extraction

theorem findServers_reads (hosts : Hosts) :
    (findServers hosts).Asks Call.isReading fun _ => True := by
  refine (Asks.perform trivial).bind fun securities _ => ?_
  cases securities with
  | none => exact trivial
  | some securities =>
    refine (Asks.perform trivial).bind fun servers _ => ?_
    cases servers with
    | none => exact trivial
    | some servers =>
      exact (Asks.logAll fun _ h => Extraction.isFinding_of_mem_lines h).bind fun _ _ => trivial

theorem readLinks_reads (objects : List NumericId) :
    (readLinks objects).Asks Call.isReading fun _ => True := by
  induction objects with
  | nil => exact trivial
  | cons object rest ih =>
    exact (Asks.perform trivial).bind fun _ _ => ih.bind fun _ _ => trivial

theorem describeObjects_reads : describeObjects.Asks Call.isReading fun _ => True :=
  (Asks.perform trivial).bind fun _ _ => (readLinks_reads _).bind fun _ _ => trivial

namespace Engine

/-- A lookup fails for reasons of the client alone. -/
def FailsLocally {α : Type} (found : Except Error α) : Prop :=
  ∀ e, found = .error e → e.isLocal = true

theorem failsLocally_error {α : Type} {e : Error} (h : e.isLocal = true) :
    FailsLocally (.error e : Except Error α) := by
  intro e' he
  cases he
  exact h

theorem failsLocally_ok {α : Type} (value : α) : FailsLocally (.ok value : Except Error α) := by
  intro e he
  cases he

theorem theManagement_failsLocally (servers : Servers) : FailsLocally servers.theManagement := by
  unfold Servers.theManagement
  split
  · exact failsLocally_error rfl
  · exact failsLocally_ok _
  · exact failsLocally_error rfl

theorem requireAddress_failsLocally (server : ServerInfo) :
    FailsLocally server.requireAddress := by
  unfold ServerInfo.requireAddress
  split
  · exact failsLocally_ok _
  · exact failsLocally_error rfl

theorem requireServers_reads (setup : Setup) :
    (requireServers setup).Asks Call.isReading FailsLocally := by
  refine (findServers_reads setup.hosts).bind fun found _ => ?_
  cases found with
  | none => exact failsLocally_error rfl
  | some servers => exact failsLocally_ok servers

theorem requireManagement_reads (setup : Setup) :
    (requireManagement setup).Asks Call.isReading FailsLocally := by
  refine (requireServers_reads setup).bind fun found hfound => ?_
  cases found with
  | error e => exact failsLocally_error (hfound e rfl)
  | ok servers => exact theManagement_failsLocally servers

theorem requireBootstrap_reads (setup : Setup) :
    (requireBootstrap setup).Asks Call.isReading FailsLocally := by
  refine (requireServers_reads setup).bind fun found hfound => ?_
  cases found with
  | error e => exact failsLocally_error (hfound e rfl)
  | ok servers =>
    dsimp only
    split
    · exact failsLocally_error rfl
    · rename_i server _
      cases haddress : server.requireAddress with
      | error e => exact failsLocally_error (requireAddress_failsLocally server e haddress)
      | ok address => exact failsLocally_ok (server, address)

/-- The bootstrap server is found at its own address. -/
theorem requireBootstrap_found (setup : Setup) :
    (requireBootstrap setup).Asks (fun _ => True) fun found =>
      ∀ server address, found = .ok (server, address) → server.address = some address := by
  have hreads := (requireServers_reads setup).mono (fun _ _ => trivial) fun _ h => h
  refine hreads.bind fun found _ => ?_
  cases found with
  | error e =>
    intro server address h
    cases h
  | ok servers =>
    dsimp only
    split
    · intro server address h
      cases h
    · rename_i found _
      intro server address h
      unfold ServerInfo.requireAddress at h
      cases haddress : found.address with
      | none =>
        rw [haddress] at h
        cases h
      | some address' =>
        rw [haddress] at h
        cases h
        exact haddress

theorem knowsManagement_reads (setup : Setup) :
    (knowsManagement setup).Asks Call.isReading fun _ => True := by
  refine (findServers_reads setup.hosts).bind fun found _ => ?_
  cases found with
  | none => exact trivial
  | some servers => exact trivial

end Engine
end Lwm2mClient
