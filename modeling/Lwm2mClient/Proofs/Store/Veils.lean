import Lwm2mClient.Bootstrap.Purge
import Lwm2mClient.Credentials
import Lwm2mClient.Proofs.Store.Maps
import Lwm2mClient.Servers.Lookup
import Lwm2mClient.Store.Provisioning

/-!
Stores under a veil. Of each Security instance the veil hides the secret key and the public key of
the server, and nothing else of a store. Whatever is found in the Security and Server objects, but
for a key that is asked for, is found in the same way under the veil.
-/
namespace Lwm2mClient

open Net

/-- Whether a resource of the Security object holds a key. -/
def SecurityResource.isKey (resource : NumericId) : Bool :=
  resource = serverPublicKey || resource = secretKey

/-- A value of which no more is to be seen than whether it is opaque, unless it is not. -/
def ResourceValue.veil : ResourceValue → ResourceValue
  | opaqueBytes _ => opaqueBytes []
  | value => value

/-- An instance of the Security object without its keys. -/
def ObjectInstance.veil (i : ObjectInstance) : ObjectInstance :=
  { i with resources := i.resources.mapValues fun resource value =>
      if SecurityResource.isKey resource then value.veil else value }

/-- An instance of an object, without its keys if it is one of the Security object. -/
def ObjectInstance.veilIn (object : NumericId) (i : ObjectInstance) : ObjectInstance :=
  if object = ObjectId.security then i.veil else i

/-- The Security object without its keys. -/
def Object.veil (o : Object) : Object :=
  { o with instances := o.instances.mapValues fun _ => ObjectInstance.veil }

/-- What an object is under the veil, if it is kept under a number. -/
def Object.veilAs (object : NumericId) (o : Object) : Object :=
  if object = ObjectId.security then o.veil else o

def Store.veil (s : Store) : Store := ⟨s.objects.mapValues Object.veilAs⟩

/-- The values that an instance is made of, without its keys. -/
def Security.veil (s : Security) : Security := { s with serverPublicKey := [], secretKey := [] }

/-! ### Instances -/

namespace ObjectInstance

variable (i : ObjectInstance) (resource : NumericId)

@[simp] theorem veil_id : i.veil.id = i.id := rfl

theorem veil_get? : i.veil.resources.get? resource =
    (i.resources.get? resource).map fun value =>
      if SecurityResource.isKey resource then value.veil else value :=
  IdMap.get?_mapValues ..

@[simp] theorem veil_boolean : i.veil.boolean resource = i.boolean resource := by
  unfold boolean
  rw [veil_get?]
  rcases i.resources.get? resource
    with _ | _ | _ | _ | _ <;> cases SecurityResource.isKey resource <;> rfl

@[simp] theorem veil_integer : i.veil.integer resource = i.integer resource := by
  unfold integer
  rw [veil_get?]
  rcases i.resources.get? resource
    with _ | _ | _ | _ | _ <;> cases SecurityResource.isKey resource <;> rfl

@[simp] theorem veil_string : i.veil.string resource = i.string resource := by
  unfold string
  rw [veil_get?]
  rcases i.resources.get? resource
    with _ | _ | _ | _ | _ <;> cases SecurityResource.isKey resource <;> rfl

/-- Whether a resource is opaque is to be seen through the veil. What its bytes are is
hidden where it holds a key. -/
theorem veil_bytes : i.veil.bytes resource =
    (i.bytes resource).map fun bytes =>
      if SecurityResource.isKey resource then [] else bytes := by
  unfold bytes
  rw [veil_get?]
  rcases i.resources.get? resource
    with _ | _ | _ | _ | _ <;> cases SecurityResource.isKey resource <;> rfl

@[simp] theorem veil_identity :
    i.veil.bytes SecurityResource.identity = i.bytes SecurityResource.identity := by
  rw [veil_bytes]
  exact Option.map_id_apply

@[simp] theorem veil_veil : i.veil.veil = i.veil := by
  simp only [veil, IdMap.mapValues_mapValues]
  congr 2
  funext resource value
  cases SecurityResource.isKey resource <;> cases value <;> rfl

end ObjectInstance

theorem Security.toInstance_veil (s : Security) (id : NumericId) :
    s.veil.toInstance id = (s.toInstance id).veil := by
  cases hshort : s.shortServerId <;>
    simp only [Security.toInstance, Security.veil, hshort, ObjectInstance.veil, IdMap.ofList,
      List.foldl, IdMap.mapValues_insert, IdMap.mapValues_empty] <;> rfl

/-! ### Objects -/

namespace Object

theorem veilAs_of_ne {object : NumericId} (h : object ≠ ObjectId.security) (o : Object) :
    o.veilAs object = o := if_neg h

theorem veilAs_empty (object : NumericId) : (empty object).veilAs object = empty object := by
  unfold veilAs
  split <;> rfl

theorem veilAs_insert (object k : NumericId) (o : Object) (i : ObjectInstance) :
    ({ o with instances := o.instances.insert k i } : Object).veilAs object =
      { o.veilAs object with
        instances := (o.veilAs object).instances.insert k (i.veilIn object) } := by
  unfold veilAs ObjectInstance.veilIn
  split
  · exact congrArg (Object.mk o.id) (IdMap.mapValues_insert ..)
  · rfl

theorem veilAs_erase (object k : NumericId) (o : Object) :
    ({ o with instances := o.instances.erase k } : Object).veilAs object =
      { o.veilAs object with instances := (o.veilAs object).instances.erase k } := by
  unfold veilAs
  split
  · exact congrArg (Object.mk o.id) (IdMap.mapValues_erase ..)
  · rfl

@[simp] theorem veilAs_contains (object k : NumericId) (o : Object) :
    (o.veilAs object).instances.contains k = o.instances.contains k := by
  unfold veilAs
  split
  · exact IdMap.contains_mapValues ..
  · rfl

@[simp] theorem veil_values (o : Object) :
    o.veil.instances.values = o.instances.values.map ObjectInstance.veil :=
  IdMap.values_mapValues ..

@[simp] theorem veil_keys (o : Object) : o.veil.instances.keys = o.instances.keys :=
  IdMap.keys_mapValues ..

@[simp] theorem veil_get? (o : Object) (k : NumericId) :
    o.veil.instances.get? k = (o.instances.get? k).map ObjectInstance.veil :=
  IdMap.get?_mapValues ..

@[simp] theorem veil_veil (o : Object) : o.veil.veil = o.veil := by
  simp only [veil, IdMap.mapValues_mapValues, ObjectInstance.veil_veil]

@[simp] theorem veil_veilAs (object : NumericId) (o : Object) :
    (o.veilAs object).veil = o.veil := by
  unfold veilAs
  split
  · exact veil_veil o
  · rfl

end Object

/-! ### Stores -/

namespace Store

variable (s : Store) (object : NumericId)

@[simp] theorem read_veil : s.veil.read object = (s.read object).map (Object.veilAs object) :=
  IdMap.get?_mapValues ..

@[simp] theorem objectIds_veil : s.veil.objectIds = s.objectIds := IdMap.keys_mapValues ..

theorem host_veil : s.veil.host object = (s.host object).veil := by
  unfold host
  have hcontains : s.veil.objects.contains object = s.objects.contains object :=
    IdMap.contains_mapValues ..
  rw [hcontains]
  split
  · rfl
  · refine congrArg Store.mk (Eq.symm ?_)
    rw [IdMap.mapValues_insert, Object.veilAs_empty]
    rfl

theorem put_veil (i : ObjectInstance) :
    s.veil.put object (i.veilIn object) = (s.put object i).veil := by
  have hid : (i.veilIn object).id = i.id := by
    unfold ObjectInstance.veilIn
    split <;> rfl
  have hfound : (s.veil.read object).getD (.empty object) =
      ((s.read object).getD (.empty object)).veilAs object := by
    rw [read_veil]
    cases s.read object with
    | none => exact (Object.veilAs_empty object).symm
    | some o => rfl
  simp only [put, hfound, hid]
  refine congrArg Store.mk (Eq.symm ?_)
  rw [IdMap.mapValues_insert, Object.veilAs_insert]
  rfl

theorem putSecurity_veil (id : NumericId) (security : Security) :
    s.veil.putSecurity id security.veil = (s.putSecurity id security).veil := by
  unfold putSecurity
  rw [Security.toInstance_veil]
  exact put_veil s ObjectId.security _

theorem putServer_veil (id : NumericId) (server : Server) :
    s.veil.putServer id server = (s.putServer id server).veil :=
  put_veil s ObjectId.server (server.toInstance id)

@[simp] theorem hasInstance_veil (i : NumericId) :
    s.veil.hasInstance object i = s.hasInstance object i := by
  unfold hasInstance
  rw [read_veil]
  cases s.read object with
  | none => rfl
  | some o => exact Object.veilAs_contains object i o

theorem remove_veil (i : NumericId) : s.veil.remove object i = (s.remove object i).veil := by
  unfold remove
  rw [read_veil]
  cases s.read object with
  | none => rfl
  | some o =>
    refine congrArg Store.mk (Eq.symm ?_)
    rw [IdMap.mapValues_insert, Object.veilAs_erase]
    rfl

/-- A dump of the store tells of the Security object all but its keys, and
everything of the other objects. -/
theorem values_veil :
    s.veil.objects.values.map Object.veil = s.objects.values.map Object.veil := by
  simp only [veil, IdMap.mapValues, IdMap.values, List.map_map]
  refine List.map_congr_left fun e _ => ?_
  exact Object.veil_veilAs e.1 e.2

end Store

/-! ### What is found -/

namespace Extraction

variable (hosts : Hosts) (servers securities : Object) (security : ObjectInstance)

@[simp] theorem uriOf_veil : uriOf security.veil = uriOf security := by
  unfold uriOf
  rw [ObjectInstance.veil_string]

@[simp] theorem infoOf_veil (uri : ServerUri) :
    infoOf hosts security.veil uri = infoOf hosts security uri := by
  unfold infoOf shortIdOf
  rw [ObjectInstance.veil_integer]

@[simp] theorem isBootstrap_veil : isBootstrap security.veil = isBootstrap security := by
  unfold isBootstrap
  rw [ObjectInstance.veil_boolean]

theorem entryOf_veil : entryOf hosts servers security.veil = entryOf hosts servers security := by
  simp only [entryOf, uriOf_veil, infoOf_veil, isBootstrap_veil]

theorem entryLines_veil :
    entryLines hosts servers security.veil = entryLines hosts servers security := by
  simp only [entryLines, uriOf_veil, infoOf_veil, isBootstrap_veil, ObjectInstance.veil_id]

/-- The keys of the Security object say nothing of the servers. -/
theorem servers_veil : Extraction.servers hosts securities.veil servers =
    Extraction.servers hosts securities servers := by
  simp only [Extraction.servers, Object.veil_values, List.filterMap_map,
    Function.comp_def, entryOf_veil]

theorem lines_veil : lines hosts securities.veil servers = lines hosts securities servers := by
  simp only [lines, servers_veil, Object.veil_values, List.flatMap_map, entryLines_veil]

end Extraction

theorem Links.ofObject_veil (object : NumericId) (snapshot : Option Object) :
    ofObject object (snapshot.map (Object.veilAs object)) = ofObject object snapshot := by
  cases snapshot with
  | none => rfl
  | some o =>
    simp only [Option.map_some, ofObject, Object.veilAs]
    split
    · rw [Object.veil_keys]
      exact congrArg (fun empty : Bool => if empty then [Link.object object] else _)
        (IdMap.isEmpty_mapValues ..)
    · rfl

namespace Credentials

variable (hosts : Hosts) (securities : Object) (peer : SocketAddress) (security : ObjectInstance)

theorem candidates_veil :
    candidates securities.veil = (candidates securities).map ObjectInstance.veil := by
  simp only [candidates, Object.veil_values, List.filter_map, Function.comp_def,
    ObjectInstance.veil_integer]

@[simp] theorem addressOf_veil : addressOf hosts security.veil = addressOf hosts security := by
  unfold addressOf
  rw [ObjectInstance.veil_string]

@[simp] theorem names_veil : names hosts peer security.veil = names hosts peer security := by
  unfold names
  rw [addressOf_veil]

/-- The identity to present to a peer is found without its key. -/
theorem identity?_veil :
    identity? hosts securities.veil peer = identity? hosts securities peer := by
  simp only [identity?, candidates_veil, List.find?_map, Function.comp_def, names_veil,
    Option.bind_map, ObjectInstance.veil_identity]

theorem identityLines_veil :
    identityLines hosts securities.veil peer = identityLines hosts securities peer := by
  have hlines : ∀ i, addressLines hosts (ObjectInstance.veil i) = addressLines hosts i := by
    intro i
    unfold addressLines
    rw [addressOf_veil, ObjectInstance.veil_id]
  simp only [identityLines, candidates_veil, List.takeWhile_map, Function.comp_def, names_veil,
    List.flatMap_map, hlines]

/-- Which instance has the key of an identity is known without the key. -/
theorem key?_veil (identity : Bytes) :
    key? securities.veil identity = (key? securities identity).map fun _ => [] := by
  have hkey : ∀ i : ObjectInstance,
      i.veil.bytes SecurityResource.secretKey = (i.bytes SecurityResource.secretKey).map fun _ =>
        [] :=
    fun i => i.veil_bytes SecurityResource.secretKey
  simp only [key?, candidates_veil, List.find?_map, Function.comp_def,
    ObjectInstance.veil_identity, Option.bind_map, hkey, Option.map_bind]

end Credentials

/-- A purge goes by the numbers of instances and by whether they name a bootstrap server. -/
theorem Purge.purgeInstances_veil (sender : SocketAddress) (object : NumericId)
    (instances : List ObjectInstance) :
    purgeInstances sender object (instances.map ObjectInstance.veil) =
      purgeInstances sender object instances := by
  induction instances with
  | nil => rfl
  | cons i rest ih =>
    simp only [List.map_cons, purgeInstances, isKept, ObjectInstance.veil_boolean,
      ObjectInstance.veil_id, ih]

end Lwm2mClient
