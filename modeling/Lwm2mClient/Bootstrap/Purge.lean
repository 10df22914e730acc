import Lwm2mClient.Program
import Lwm2mClient.Store.Resources

/-!
Purging the objects of a client on behalf of its bootstrap server: every instance of every object
is deleted, except that the Security instances of bootstrap servers are kept.
-/
namespace Lwm2mClient.Purge

open Net Program

/-- Whether an instance outlives a purge. -/
def isKept (object : NumericId) (i : ObjectInstance) : Bool :=
  object = ObjectId.security && i.boolean SecurityResource.bootstrap = some true

/-- Deletes some instances of an object in order, whatever the store says of each. -/
def purgeInstances (sender : SocketAddress) (object : NumericId) :
    List ObjectInstance → Program Unit
  | [] => pure ()
  | i :: rest => do
    if isKept object i then log (.securityKept i.id)
    else
      let code ← perform (.deleteInstance sender object i.id)
      if !code.isSuccess then log (.deleteRefused object i.id code)
    purgeInstances sender object rest

/-- Purges some objects in order; one that cannot be read is passed over. -/
def purgeObjects (sender : SocketAddress) : List NumericId → Program Unit
  | [] => pure ()
  | object :: rest => do
    match ← perform (.readObject object) with
    | some snapshot => purgeInstances sender object snapshot.instances.values
    | none => pure ()
    purgeObjects sender rest

/-- Purges all objects. -/
def purge (sender : SocketAddress) : Program Unit := do
  let ids ← perform .objectIds
  purgeObjects sender ids
  log (.objectsPurged sender)

end Lwm2mClient.Purge
