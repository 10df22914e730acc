import Lwm2mClient.Store.Resources

/-!
The link description that a registration carries: one link for each instance of each
object in ascending order, or one for the object itself where it has no instance. The
Security object is never described.
-/
namespace Lwm2mClient.Links

/-- What is described: an object, or one of its instances. -/
inductive Link where
  | object (id : NumericId)
  | objectInstance (object id : NumericId)
  deriving DecidableEq

def Link.text : Link → String
  | .object o => "</" ++ toString o.toNat ++ ">"
  | .objectInstance o i => "</" ++ toString o.toNat ++ "/" ++ toString i.toNat ++ ">"

/-- The links of one object, given what was read under its number. -/
def ofObject (id : NumericId) (snapshot : Option Object) : List Link :=
  match snapshot with
  | some o =>
    if o.instances.isEmpty then [.object id]
    else o.instances.keys.map fun i => .objectInstance id i
  | none => [.object id]

/-- The objects that are described. -/
def described (ids : List NumericId) : List NumericId := ids.filter (· ≠ ObjectId.security)

def text (links : List Link) : String := ",".intercalate (links.map Link.text)

end Lwm2mClient.Links
