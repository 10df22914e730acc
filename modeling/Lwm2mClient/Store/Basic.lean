import Lwm2mClient.Store.Object

/-!
The store that holds the objects of a client in memory.
-/
namespace Lwm2mClient

structure Store where
  objects : IdMap Object := .empty
  deriving DecidableEq

namespace Store

def objectIds (s : Store) : List NumericId := s.objects.keys

def read (s : Store) (object : NumericId) : Option Object := s.objects.get? object

/-- Makes sure that an object is hosted. -/
def host (s : Store) (object : NumericId) : Store :=
  if s.objects.contains object then s else ⟨s.objects.insert object (.empty object)⟩

/-- Puts an instance into an object, hosting the object if need be. -/
def put (s : Store) (object : NumericId) (i : ObjectInstance) : Store :=
  let o := (s.read object).getD (.empty object)
  ⟨s.objects.insert object { o with instances := o.instances.insert i.id i }⟩

/-- Whether an object has an instance under a number. -/
def hasInstance (s : Store) (object instanceId : NumericId) : Bool :=
  (s.read object).any fun o => o.instances.contains instanceId

/-- Removes an instance; nothing changes if it is not there. -/
def remove (s : Store) (object instanceId : NumericId) : Store :=
  match s.read object with
  | some o => ⟨s.objects.insert object { o with instances := o.instances.erase instanceId }⟩
  | none => s

end Store
end Lwm2mClient
