import Lwm2mClient.Program
import Lwm2mClient.Servers.Extraction
import Lwm2mClient.Store.Links

/-!
What lifecycle work reads from the object store: the servers of the client and the description of
its objects. Both are read anew whenever they are needed.
-/
namespace Lwm2mClient

open Net Program

/-- The servers that the store names now; absent if the Security or the Server object is not
hosted. -/
def findServers (hosts : Hosts) : Program (Option Servers) := do
  match ← perform (.readObject ObjectId.security) with
  | none => return none
  | some securities =>
    match ← perform (.readObject ObjectId.server) with
    | none => return none
    | some servers =>
      logAll (Extraction.lines hosts securities servers)
      return some (Extraction.servers hosts securities servers)

/-- The links of some objects, read one after the other. -/
def readLinks : List NumericId → Program (List Links.Link)
  | [] => pure []
  | object :: rest => do
    let snapshot ← perform (.readObject object)
    let links ← readLinks rest
    return Links.ofObject object snapshot ++ links

/-- The text that describes the hosted objects in a registration. -/
def describeObjects : Program String := do
  let ids ← perform .objectIds
  let links ← readLinks (Links.described ids)
  return Links.text links

end Lwm2mClient
