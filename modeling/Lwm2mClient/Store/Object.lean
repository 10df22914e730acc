import Lwm2mClient.IdMap

/-!
The objects of a client. An object has numbered instances, an instance has numbered resources, and
a resource holds a boolean, an integer, a string or opaque bytes.
-/
namespace Lwm2mClient

abbrev Bytes := List UInt8

inductive ResourceValue where
  | boolean (value : Bool)
  | integer (value : Int64)
  | string (value : String)
  | opaqueBytes (value : Bytes)
  deriving DecidableEq

structure ObjectInstance where
  id : NumericId
  resources : IdMap ResourceValue
  deriving DecidableEq

namespace ObjectInstance

/-- The value of a resource, if it is a boolean; likewise for the three other types. -/
def boolean (i : ObjectInstance) (resource : NumericId) : Option Bool :=
  match i.resources.get? resource with
  | some (.boolean value) => some value
  | _ => none

def integer (i : ObjectInstance) (resource : NumericId) : Option Int64 :=
  match i.resources.get? resource with
  | some (.integer value) => some value
  | _ => none

def string (i : ObjectInstance) (resource : NumericId) : Option String :=
  match i.resources.get? resource with
  | some (.string value) => some value
  | _ => none

def bytes (i : ObjectInstance) (resource : NumericId) : Option Bytes :=
  match i.resources.get? resource with
  | some (.opaqueBytes value) => some value
  | _ => none

end ObjectInstance

/-- An object with its instances, by the number under which each is kept. -/
structure Object where
  id : NumericId
  instances : IdMap ObjectInstance
  deriving DecidableEq

/-- The object with a number and no instances. -/
def Object.empty (id : NumericId) : Object := ⟨id, .empty⟩

end Lwm2mClient
