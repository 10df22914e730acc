import Lwm2mClient.Proofs.Servers.Joins

/-!
What the secure transport is told. The key of an identity and the identity for a peer are two
searches through the same instances, one by bytes and one by a URI and the table of hosts, and
each ends at the first instance that fits. Where no two instances have one identity, the second
search is led back to the instance where the first one ended.
-/
namespace Lwm2mClient

open Net

/-! ### What an instance has to say -/

namespace ObjectInstance

/-- The instance is one of pre-shared keys. -/
def IsPreShared (i : ObjectInstance) : Prop :=
  i.resources.get? SecurityResource.mode = some (.integer SecurityResource.preSharedKeyMode)

def HasIdentity (i : ObjectInstance) (identity : Bytes) : Prop :=
  i.resources.get? SecurityResource.identity = some (.opaqueBytes identity)

def HasKey (i : ObjectInstance) (key : Bytes) : Prop :=
  i.resources.get? SecurityResource.secretKey = some (.opaqueBytes key)

/-- The URI of the instance can be read, and its host and its port are those of the peer. -/
def LeadsTo (hosts : Hosts) (i : ObjectInstance) (peer : SocketAddress) : Prop :=
  ∃ uri ip, i.NamesUri uri ∧ hosts.find? uri.host = some ip ∧ peer = ⟨ip, uri.port, 0⟩

end ObjectInstance

namespace Credentials

variable {hosts : Hosts} {securities securities' : Object} {security : ObjectInstance}
    {identity key : Bytes}
  {peer : SocketAddress}

/-- In the order of their numbers, this is the first instance of pre-shared keys with an
identity. -/
def IsFirstWith (identity : Bytes) (securities : Object) (k : NumericId)
    (security : ObjectInstance) : Prop :=
  securities.instances.IsFirst (fun i => i.IsPreShared ∧ i.HasIdentity identity) k security

/-- In the order of their numbers, this is the first instance of pre-shared keys
whose URI leads to a peer. -/
def IsFirstTo (hosts : Hosts) (peer : SocketAddress) (securities : Object) (k : NumericId)
    (security : ObjectInstance) : Prop :=
  securities.instances.IsFirst (fun i => i.IsPreShared ∧ i.LeadsTo hosts peer) k security

/-- No two instances of pre-shared keys have one identity. -/
def IdentitiesDiffer (securities : Object) : Prop :=
  ∀ k k' i i' identity, securities.instances.get? k = some i →
    securities.instances.get? k' = some i' →
    i.IsPreShared → i'.IsPreShared → i.HasIdentity identity → i'.HasIdentity identity → k = k'

/-! ### The searches -/

theorem find?_candidates_eq_some_iff {p : ObjectInstance → Bool} :
    (candidates securities).find? p = some security ↔
      ∃ k, securities.instances.IsFirst (fun i => i.IsPreShared ∧ p i = true) k security := by
  rw [candidates, List.find?_filter, IdMap.find?_values_eq_some_iff]
  simp only [decide_eq_true_iff, ObjectInstance.integer_eq_some_iff, ObjectInstance.IsPreShared]

/-- A text that is not there is read as the empty one, which is no URI. -/
theorem names_iff : names hosts peer security = true ↔ security.LeadsTo hosts peer := by
  rw [names, decide_eq_true_iff]
  unfold addressOf ObjectInstance.LeadsTo ObjectInstance.NamesUri
  simp only [← ObjectInstance.string_eq_some_iff]
  cases security.string SecurityResource.serverUri with
  | none =>
    have hempty : ServerUri.read "" = .error (.invalidUri "") := by rfl
    simp [hempty, Except.bind, Except.toOption]
  | some text =>
    cases hread : ServerUri.read text with
    | error e => simp [hread, Except.bind, Except.toOption]
    | ok uri =>
      simp only [Option.getD_some, hread, Except.bind, Extraction.resolve_toOption,
        Option.map_eq_some_iff]
      simp [hread, eq_comm]

theorem key?_eq_some_iff :
    key? securities identity = some key ↔
      ∃ k security, IsFirstWith identity securities k security ∧ security.HasKey key := by
  rw [key?, Option.bind_eq_some_iff]
  simp only [find?_candidates_eq_some_iff, decide_eq_true_iff, ObjectInstance.bytes_eq_some_iff]
  rw [exists_comm]
  simp only [exists_and_right]
  rfl

theorem identity?_eq_some_iff :
    identity? hosts securities peer = some identity ↔
      ∃ k security, IsFirstTo hosts peer securities k security ∧
        security.HasIdentity identity := by
  rw [identity?, Option.bind_eq_some_iff]
  simp only [find?_candidates_eq_some_iff, names_iff, ObjectInstance.bytes_eq_some_iff]
  rw [exists_comm]
  simp only [exists_and_right]
  rfl

/-- Whether the identities differ is seen by comparing each two entries. -/
theorem identitiesDiffer_iff :
    IdentitiesDiffer securities ↔
      ∀ e ∈ securities.instances.entries, ∀ e' ∈ securities.instances.entries,
        e.2.integer SecurityResource.mode = some SecurityResource.preSharedKeyMode →
        e'.2.integer SecurityResource.mode = some SecurityResource.preSharedKeyMode →
        (e.2.bytes SecurityResource.identity).isSome →
        e.2.bytes SecurityResource.identity = e'.2.bytes SecurityResource.identity →
        e.1 = e'.1 := by
  constructor
  · intro h e he e' he' hshared hshared' hsome heq
    obtain ⟨identity, hidentity⟩ := Option.isSome_iff_exists.mp hsome
    exact h e.1 e'.1 e.2 e'.2 identity (IdMap.get?_eq_some_iff.mpr he)
      (IdMap.get?_eq_some_iff.mpr he')
      (ObjectInstance.integer_eq_some_iff.mp hshared)
        (ObjectInstance.integer_eq_some_iff.mp hshared')
      (ObjectInstance.bytes_eq_some_iff.mp hidentity)
        (ObjectInstance.bytes_eq_some_iff.mp (heq ▸ hidentity))
  · intro h k k' i i' identity hi hi' hshared hshared' hhas hhas'
    have hidentity := ObjectInstance.bytes_eq_some_iff.mpr hhas
    have hidentity' := ObjectInstance.bytes_eq_some_iff.mpr hhas'
    exact h (k, i) (IdMap.get?_eq_some_iff.mp hi) (k', i') (IdMap.get?_eq_some_iff.mp hi')
      (ObjectInstance.integer_eq_some_iff.mpr hshared)
        (ObjectInstance.integer_eq_some_iff.mpr hshared')
      (Option.isSome_iff_exists.mpr ⟨identity, hidentity⟩) (hidentity.trans hidentity'.symm)

instance : DecidablePred IdentitiesDiffer := fun _ => decidable_of_iff' _ identitiesDiffer_iff

/-! ### What counts -/

/-- Only instances of pre-shared keys count, with what they say of the server, of
the identity and of the key. -/
def SameKeys (securities securities' : Object) : Prop :=
  securities.instances.CountsAs ObjectInstance.IsPreShared
    [SecurityResource.serverUri, SecurityResource.mode, SecurityResource.identity,
      SecurityResource.secretKey]
    securities'.instances

theorem key?_of_same (h : SameKeys securities securities') (identity : Bytes) :
    key? securities identity = key? securities' identity := by
  refine Option.ext fun key => ?_
  rw [key?_eq_some_iff, key?_eq_some_iff]
  refine h.exists_isFirst_iff (fun _ hi => hi.1) (fun i j hij hi => ?_) fun i j hij hi => ?_
  · exact ⟨(hij _ (by simp)).symm.trans hi.1, (hij _ (by simp)).symm.trans hi.2⟩
  · exact (hij _ (by simp)).symm.trans hi

theorem identity?_of_same (h : SameKeys securities securities') (hosts : Hosts)
    (peer : SocketAddress) :
    identity? hosts securities peer = identity? hosts securities' peer := by
  refine Option.ext fun identity => ?_
  rw [identity?_eq_some_iff, identity?_eq_some_iff]
  refine h.exists_isFirst_iff (fun _ hi => hi.1) (fun i j hij hi => ?_) fun i j hij hi => ?_
  · obtain ⟨hshared, uri, ip, ⟨text, htext, hread⟩, hleads⟩ := hi
    exact ⟨(hij _ (by simp)).symm.trans hshared, uri, ip,
      ⟨text, (hij _ (by simp)).symm.trans htext, hread⟩, hleads⟩
  · exact (hij _ (by simp)).symm.trans hi

/-! ### One server -/

/-- Where no two instances have one identity, an instance with it is the first one with it. -/
theorem IdentitiesDiffer.isFirstWith (h : IdentitiesDiffer securities) {k : NumericId}
    (hfound : securities.instances.get? k = some security) (hshared : security.IsPreShared)
    (hhas : security.HasIdentity identity) : IsFirstWith identity securities k security where
  found := hfound
  holds := ⟨hshared, hhas⟩
  lowest j i hi hp := by
    rw [h k j security i identity hfound hi hshared hp.1 hhas hp.2]
    exact UInt16.le_refl j

/-- Then the key of the identity for a peer is that of the instance that leads to the peer. -/
theorem IdentitiesDiffer.key?_eq_some_iff (h : IdentitiesDiffer securities) {k : NumericId}
    (hfirst : IsFirstTo hosts peer securities k security) (hhas : security.HasIdentity identity) :
    key? securities identity = some key ↔ security.HasKey key := by
  have hfirstWith : IsFirstWith identity securities k security :=
    h.isFirstWith hfirst.found hfirst.holds.1 hhas
  rw [Credentials.key?_eq_some_iff]
  constructor
  · rintro ⟨k', security', hfirst', hkey⟩
    rwa [(hfirstWith.unique hfirst').2]
  · exact fun hkey => ⟨k, security, hfirstWith, hkey⟩

end Credentials

/-! ### The questions -/

/-- The Security object, without instances where it cannot be seen. -/
def View.securities (v : View) : Object :=
  (v.object ObjectId.security).getD (.empty ObjectId.security)

namespace Scenario

namespace World

variable {w : World}

theorem readObject_of_isReliable (h : w.IsReliable) (n : NumericId) :
    ∃ w', w.readObject n = (w', .ok (w.view.object n)) ∧ w'.hosts = w.hosts := by
  obtain ⟨value, hvalue⟩ := (readObject_keeps w n).2.2 h
  have hwhole : w.readObject n = ((w.readObject n).1, .ok value) := Prod.ext rfl hvalue
  refine ⟨(w.readObject n).1, ?_, (readObject_quiet w n).hosts⟩
  rw [← (readObject_ok hwhole).1]
  exact hwhole

theorem take_keyOf (h : w.IsReliable) (identity : Bytes) :
    (w.take (.keyOf identity)).2 =
      .result (.bytes (Credentials.key? w.view.securities identity)) := by
  obtain ⟨w', hread, -⟩ := readObject_of_isReliable h ObjectId.security
  simp only [take, hread, View.securities]
  cases w.view.object ObjectId.security <;> rfl

theorem take_identityFor (h : w.IsReliable) (peer : SocketAddress) :
    (w.take (.identityFor peer)).2 =
      .result (.bytes (Credentials.identity? w.hosts w.view.securities peer)) := by
  obtain ⟨w', hread, hhosts⟩ := readObject_of_isReliable h ObjectId.security
  simp only [take, hread, View.securities]
  cases w.view.object ObjectId.security with
  | none => rfl
  | some securities => rw [← hhosts]; rfl

/-- Whatever a store holds, the key of an identity is that of the first instance of
pre-shared keys with these bytes, and the identity for a peer is that of the first one whose
URI leads to its address and port. Instances that are not of pre-shared keys change neither.
Where no two identities are the same, the key of the identity for a peer is that of the
instance that leads to the peer. -/
theorem credentials_of_one_server (h : w.IsReliable) :
    ∃ (keyOf : Bytes → Option Bytes) (identityFor : SocketAddress → Option Bytes),
      (∀ identity, (w.take (.keyOf identity)).2 = .result (.bytes (keyOf identity))) ∧
      (∀ peer, (w.take (.identityFor peer)).2 = .result (.bytes (identityFor peer))) ∧
      (∀ identity key, keyOf identity = some key ↔
        ∃ k i, Credentials.IsFirstWith identity w.view.securities k i ∧ i.HasKey key) ∧
      (∀ peer identity, identityFor peer = some identity ↔
        ∃ k i, Credentials.IsFirstTo w.hosts peer w.view.securities k i ∧
          i.HasIdentity identity) ∧
      (∀ w' : World, w'.IsReliable → w'.hosts = w.hosts →
        Credentials.SameKeys w.view.securities w'.view.securities →
          (∀ identity, (w'.take (.keyOf identity)).2 = .result (.bytes (keyOf identity))) ∧
            ∀ peer, (w'.take (.identityFor peer)).2 = .result (.bytes (identityFor peer))) ∧
      (Credentials.IdentitiesDiffer w.view.securities →
        ∀ peer identity, identityFor peer = some identity →
        ∃ k i, Credentials.IsFirstTo w.hosts peer w.view.securities k i ∧ i.HasIdentity identity ∧
          ∀ key, keyOf identity = some key ↔ i.HasKey key) := by
  refine ⟨_, _, take_keyOf h, take_identityFor h, fun _ _ => Credentials.key?_eq_some_iff,
    fun _ _ => Credentials.identity?_eq_some_iff, ?_, ?_⟩
  · intro w' h' hhosts hsame
    refine ⟨fun identity => ?_, fun peer => ?_⟩
    · rw [take_keyOf h', Credentials.key?_of_same hsame]
    · rw [take_identityFor h', hhosts, Credentials.identity?_of_same hsame]
  · intro hdiffer peer identity hidentity
    obtain ⟨k, i, hfirst, hhas⟩ := Credentials.identity?_eq_some_iff.mp hidentity
    exact ⟨k, i, hfirst, hhas, fun _ => hdiffer.key?_eq_some_iff hfirst hhas⟩

end World

/-- Four instances with the host of one peer in their URI: the first is not of pre-shared keys,
the URI of the second has no scheme, and the last two lead to the peer. -/
def keyedWorld : World :=
  { sampleWorld with
      store := Store.build [
        .put ObjectId.security ({ Security.plain "coaps://10.0.0.6" 1 with
          identity := [1], secretKey := [9] }.toInstance 1),
        .put ObjectId.security ((Security.preSharedKey "10.0.0.6" 2 [7] [8]).toInstance 2),
        .put ObjectId.security
          ((Security.preSharedKey "coaps://10.0.0.6" 3 [1] [2]).toInstance 4),
        .put ObjectId.security
          ((Security.preSharedKey "coaps://10.0.0.6" 4 [3] [4]).toInstance 5)] }

theorem credentials_of_first_to_peer :
    ∃ k i, Credentials.IsFirstTo {}
      ⟨.v4 #v[10, 0, 0, 6], 5684, 0⟩ keyedWorld.view.securities k i ∧
      (keyedWorld.take (.identityFor ⟨.v4 #v[10, 0, 0, 6], 5684, 0⟩)).2 =
        .result (.bytes (some [1])) ∧
      (keyedWorld.take (.keyOf [1])).2 = .result (.bytes (some [2])) ∧ i.HasKey [2] := by
  obtain ⟨keyOf, identityFor, hkeyOf, hidentityFor, -, -, -, hone⟩ :=
    World.credentials_of_one_server (w := keyedWorld) ⟨rfl, rfl⟩
  have hidentity : (keyedWorld.take (.identityFor ⟨.v4 #v[10, 0, 0, 6], 5684, 0⟩)).2 =
      .result (.bytes (some [1])) :=
    (World.take_identityFor ⟨rfl, rfl⟩ _).trans
      (congrArg (Effect.result ∘ Result.bytes) (by decide +kernel))
  have hkey : (keyedWorld.take (.keyOf [1])).2 = .result (.bytes (some [2])) :=
    (World.take_keyOf ⟨rfl, rfl⟩ _).trans
      (congrArg (Effect.result ∘ Result.bytes) (by decide +kernel))
  have hfoundIdentity : identityFor ⟨.v4 #v[10, 0, 0, 6], 5684, 0⟩ = some [1] := by
    simpa only [hidentity, Effect.result.injEq, Result.bytes.injEq, eq_comm] using
      hidentityFor ⟨.v4 #v[10, 0, 0, 6], 5684, 0⟩
  have hfoundKey : keyOf [1] = some [2] := by
    simpa only [hkey, Effect.result.injEq, Result.bytes.injEq, eq_comm] using hkeyOf [1]
  obtain ⟨k, i, hfirst, -, hkeys⟩ := hone (by decide +kernel) _ _ hfoundIdentity
  exact ⟨k, i, hfirst, hidentity, hkey, (hkeys [2]).mp hfoundKey⟩

end Scenario
end Lwm2mClient
