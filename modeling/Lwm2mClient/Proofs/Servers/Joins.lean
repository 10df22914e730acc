import Lwm2mClient.Proofs.Scenario.Following
import Lwm2mClient.Proofs.Sessions.Freshness
import Lwm2mClient.Proofs.Store.Likeness
import Lwm2mClient.Proofs.Store.Purging
import Mathlib.Tactic.SplitIfs

/-!
What is found in the Security and the Server object, told as a join of the two. Each Security
instance whose URI can be read gives one server, in the order of the instances; what a device
management server is registered with stands in the first Server instance that has its short id.
One instance that cannot be read takes nothing from the others.
-/
namespace Lwm2mClient

open Net

/-! ### The join -/

namespace ObjectInstance

/-- An instance of the Security object names a server by its URI. -/
def NamesUri (security : ObjectInstance) (uri : ServerUri) : Prop :=
  ∃ text, security.resources.get? SecurityResource.serverUri = some (.string text) ∧
    ServerUri.read text = .ok uri

/-- An instance of the Security object says of itself that it names a bootstrap server. -/
def IsFlagged (security : ObjectInstance) : Prop :=
  security.resources.get? SecurityResource.bootstrap = some (.boolean true)

/-- The integer that is found under a number is a natural number. -/
def HoldsNatural (i : ObjectInstance) (resource : NumericId) (n : Nat) : Prop :=
  ∃ z : Int64, i.resources.get? resource = some (.integer z) ∧ z.toInt = n

theorem HoldsNatural.of_agreesOn {i j : ObjectInstance} {resource : NumericId}
    {resources : List NumericId} {n : Nat} (h : i.HoldsNatural resource n)
    (hij : i.AgreesOn resources j) (hmem : resource ∈ resources) : j.HoldsNatural resource n := by
  obtain ⟨z, hz, hvalue⟩ := h
  exact ⟨z, (hij resource hmem).symm.trans hz, hvalue⟩

end ObjectInstance

/-- A text is a binding mode iff it is the text of one of the six. -/
theorem BindingMode.ofText?_eq_some_iff {text : String} {mode : BindingMode} :
    ofText? text = some mode ↔ text = mode.text := by
  constructor
  · intro h
    have hfound := List.find?_some h
    rw [beq_iff_eq] at hfound
    exact hfound.symm
  · rintro rfl
    cases mode <;> decide

namespace Extraction

/-- What a Security instance says of its server. There is a short id only where the integer is
one. -/
structure Describes (hosts : Hosts) (security : ObjectInstance) (info : ServerInfo) : Prop where
  uri : security.NamesUri info.uri
  address : info.address = (hosts.find? info.uri.host).map fun ip => ⟨ip, info.uri.port, 0⟩
  shortId : ∀ n, info.shortId = some n ↔
    security.HoldsNatural SecurityResource.shortServerId n.toNat

/-- A server belongs to a Server instance: the one with the lowest number of those that have its
short id. -/
def BelongsTo (servers : Object) (info : ServerInfo) (server : ObjectInstance) : Prop :=
  ∃ n k, info.shortId = some n ∧
    servers.instances.IsFirst (·.HoldsNatural ServerResource.shortServerId n.toNat) k server

/-- A device management server has its lifetime and its binding from the Server
instance that it belongs to. -/
structure Joins (servers : Object) (server : ManagementServer) : Prop where
  lifetime : ∀ n, server.lifetime = some n ↔
    ∃ i, BelongsTo servers server.info i ∧ i.HoldsNatural ServerResource.lifetime n.toNat
  binding : ∀ mode, server.binding = some mode ↔
    ∃ i, BelongsTo servers server.info i ∧
      i.resources.get? ServerResource.binding = some (.string mode.text)

/-- The bootstrap servers and the device management servers that the entries of a Security
object give. An entry without a URI that can be read gives none, every other one gives one
server, to one of the two lists. -/
inductive Lists (hosts : Hosts) (servers : Object) :
    List (NumericId × ObjectInstance) → List ServerInfo → List ManagementServer → Prop
  | nil : Lists hosts servers [] [] []
  | unnamed {k : NumericId} {security : ObjectInstance}
      {entries : List (NumericId × ObjectInstance)} {bootstrap : List ServerInfo}
      {management : List ManagementServer} (h : ∀ uri, ¬security.NamesUri uri)
      (hrest : Lists hosts servers entries bootstrap management) :
      Lists hosts servers ((k, security) :: entries) bootstrap management
  | bootstrap {k : NumericId} {security : ObjectInstance}
      {entries : List (NumericId × ObjectInstance)} {info : ServerInfo}
      {bootstrap : List ServerInfo} {management : List ManagementServer}
      (h : Describes hosts security info) (hflag : security.IsFlagged)
      (hrest : Lists hosts servers entries bootstrap management) :
      Lists hosts servers ((k, security) :: entries) (info :: bootstrap) management
  | management {k : NumericId} {security : ObjectInstance}
      {entries : List (NumericId × ObjectInstance)} {server : ManagementServer}
      {bootstrap : List ServerInfo} {management : List ManagementServer}
      (h : Describes hosts security server.info) (hflag : ¬security.IsFlagged)
      (hjoins : Joins servers server) (hrest : Lists hosts servers entries bootstrap management) :
      Lists hosts servers ((k, security) :: entries) bootstrap (server :: management)

variable {hosts : Hosts} {security server : ObjectInstance} {securities servers : Object}
    {info : ServerInfo}
  {uri : ServerUri}

/-! ### One instance -/

theorem uriOf_eq_ok_iff : uriOf security = .ok uri ↔ security.NamesUri uri := by
  unfold uriOf ObjectInstance.NamesUri
  simp only [← ObjectInstance.string_eq_some_iff]
  cases security.string SecurityResource.serverUri <;> simp

theorem isBootstrap_iff : isBootstrap security = true ↔ security.IsFlagged := by
  rw [isBootstrap, decide_eq_true_iff, ObjectInstance.boolean_eq_some_iff,
    ObjectInstance.IsFlagged]

theorem resolve_toOption (hosts : Hosts) (uri : ServerUri) :
    (resolve hosts uri).toOption = (hosts.find? uri.host).map fun ip => ⟨ip, uri.port, 0⟩ := by
  unfold resolve
  cases hosts.find? uri.host <;> rfl

theorem shortIdOf_eq_some_iff {n : UInt16} :
    shortIdOf security = some n ↔
      security.HoldsNatural SecurityResource.shortServerId n.toNat := by
  unfold shortIdOf ObjectInstance.HoldsNatural
  simp only [← ObjectInstance.integer_eq_some_iff]
  cases security.integer SecurityResource.shortServerId with
  | none => simp
  | some z =>
    have hrange : (0 ≤ z ∧ z ≤ 65535) ↔ 0 ≤ z.toInt ∧ z.toInt ≤ 65535 := by
      rw [Int64.le_iff_toInt_le, Int64.le_iff_toInt_le]
      rfl
    have hbound := n.toNat_lt
    simp only [Option.some_inj, exists_eq_left']
    split_ifs with hz
    · rw [hrange] at hz
      rw [Option.some_inj, ← UInt16.toNat_inj,
        UInt16.toNat_ofNat_of_lt' (by change _ < 65536; omega)]
      omega
    · rw [hrange] at hz
      refine iff_of_false nofun ?_
      omega

theorem describes_infoOf (h : security.NamesUri uri) :
    Describes hosts security (infoOf hosts security uri) where
  uri := h
  address := resolve_toOption hosts uri
  shortId _ := shortIdOf_eq_some_iff

theorem lifetimeOf_eq_some_iff {n : UInt64} :
    lifetimeOf server = some n ↔ server.HoldsNatural ServerResource.lifetime n.toNat := by
  unfold lifetimeOf ObjectInstance.HoldsNatural
  simp only [← ObjectInstance.integer_eq_some_iff]
  cases server.integer ServerResource.lifetime with
  | none => simp
  | some z =>
    have hrange : 0 ≤ z ↔ 0 ≤ z.toInt := Int64.le_iff_toInt_le
    have hbound := z.toInt_lt
    simp only [Option.some_inj, exists_eq_left']
    split_ifs with hz
    · rw [hrange] at hz
      rw [Option.some_inj, ← UInt64.toNat_inj,
        UInt64.toNat_ofNat_of_lt' (by change _ < 2 ^ 64; omega)]
      omega
    · rw [hrange] at hz
      refine iff_of_false nofun ?_
      omega

theorem bindingOf_eq_some_iff {mode : BindingMode} :
    bindingOf server = some mode ↔
      server.resources.get? ServerResource.binding = some (.string mode.text) := by
  rw [bindingOf, Option.bind_eq_some_iff]
  simp only [BindingMode.ofText?_eq_some_iff, ObjectInstance.string_eq_some_iff]
  simp

/-! ### The Server instance of a server -/

theorem serverOf_eq_some_iff :
    serverOf servers info.shortId = some server ↔ BelongsTo servers info server := by
  rw [serverOf, Option.bind_eq_some_iff]
  refine exists_congr fun n => ?_
  rw [IdMap.find?_values_eq_some_iff]
  have hid : ∀ i : ObjectInstance,
      decide (i.integer ServerResource.shortServerId = some (Int64.ofNat n.toNat)) = true ↔
      i.HoldsNatural ServerResource.shortServerId n.toNat := by
    intro i
    have hvalue : (Int64.ofNat n.toNat).toInt = n.toNat := by
      have hbound := n.toNat_lt
      exact Int64.toInt_ofNat_of_lt (by omega)
    rw [decide_eq_true_iff, ObjectInstance.integer_eq_some_iff, ObjectInstance.HoldsNatural]
    constructor
    · exact fun h => ⟨_, h, hvalue⟩
    · rintro ⟨z, hz, hn⟩
      rwa [← Int64.toInt_inj.mp (hn.trans hvalue.symm)]
  simp only [hid, exists_and_left]

theorem joins_managementOf (servers : Object) (info : ServerInfo) :
    Joins servers (managementOf servers info) where
  lifetime n := by
    change (serverOf servers info.shortId).bind lifetimeOf = some n ↔ _
    simp only [Option.bind_eq_some_iff, serverOf_eq_some_iff, lifetimeOf_eq_some_iff]
    rfl
  binding mode := by
    change (serverOf servers info.shortId).bind bindingOf = some mode ↔ _
    simp only [Option.bind_eq_some_iff, serverOf_eq_some_iff, bindingOf_eq_some_iff]
    rfl

theorem toOption_entryOf_of_not_namesUri (h : ∀ uri, ¬security.NamesUri uri) (hosts : Hosts)
    (servers : Object) : (entryOf hosts servers security).toOption = none := by
  cases huri : uriOf security with
  | ok uri => exact absurd (uriOf_eq_ok_iff.mp huri) (h uri)
  | error e => rw [entryOf, huri]; rfl

theorem toOption_entryOf_of_isFlagged (huri : security.NamesUri uri) (hflag : security.IsFlagged)
    (hosts : Hosts) (servers : Object) :
    (entryOf hosts servers security).toOption =
      some (.bootstrap (infoOf hosts security uri)) := by
  rw [entryOf, uriOf_eq_ok_iff.mpr huri, Except.map, if_pos (isBootstrap_iff.mpr hflag),
    Except.toOption]

theorem toOption_entryOf_of_not_isFlagged (huri : security.NamesUri uri)
    (hflag : ¬security.IsFlagged) (hosts : Hosts) (servers : Object) :
    (entryOf hosts servers security).toOption =
      some (.management (managementOf servers (infoOf hosts security uri))) := by
  rw [entryOf, uriOf_eq_ok_iff.mpr huri, Except.map, if_neg (mt isBootstrap_iff.mp hflag),
    Except.toOption]

theorem lists_serversOf (hosts : Hosts) (servers : Object)
    (entries : List (NumericId × ObjectInstance)) :
    Lists hosts servers entries
      (serversOf ((entries.map (·.2)).filterMap fun i =>
        (entryOf hosts servers i).toOption)).bootstrap
      (serversOf ((entries.map (·.2)).filterMap fun i =>
        (entryOf hosts servers i).toOption)).management := by
  induction entries with
  | nil => exact .nil
  | cons e rest ih =>
    obtain ⟨k, security⟩ := e
    by_cases hnames : ∃ uri, security.NamesUri uri
    · obtain ⟨uri, huri⟩ := hnames
      by_cases hflag : security.IsFlagged
      · simp only [List.map_cons, List.filterMap_cons, toOption_entryOf_of_isFlagged huri hflag]
        exact .bootstrap (describes_infoOf huri) hflag ih
      · simp only [List.map_cons, List.filterMap_cons,
          toOption_entryOf_of_not_isFlagged huri hflag]
        exact .management (describes_infoOf huri) hflag (joins_managementOf servers _) ih
    · rw [not_exists] at hnames
      simp only [List.map_cons, List.filterMap_cons, toOption_entryOf_of_not_namesUri hnames]
      exact .unnamed hnames ih

/-- What is found is the join of the two objects. -/
theorem lists_servers (hosts : Hosts) (securities servers : Object) :
    Lists hosts servers securities.instances.entries
      (Extraction.servers hosts securities servers).bootstrap
      (Extraction.servers hosts securities servers).management :=
  lists_serversOf hosts servers securities.instances.entries

/-! ### What counts -/

/-- Of the Security object the instances count that name a server, with what they say of it. -/
def SameSecurities (securities securities' : Object) : Prop :=
  securities.instances.CountsAs (fun i => ∃ uri, i.NamesUri uri)
    [SecurityResource.serverUri, SecurityResource.bootstrap, SecurityResource.shortServerId]
      securities'.instances

/-- Of the Server object every instance counts, with the values that a registration needs. -/
def SameServers (servers servers' : Object) : Prop :=
  servers.instances.CountsAs (fun _ => True)
    [ServerResource.shortServerId, ServerResource.lifetime, ServerResource.binding]
      servers'.instances

variable {securities' servers' : Object}

/-- What is said of the Server instance of a server is said of it wherever the same counts,
if it goes by what counts. -/
theorem exists_belongsTo_iff (h : SameServers servers servers') {q : ObjectInstance → Prop}
    (hq : ∀ i j : ObjectInstance,
      i.AgreesOn [ServerResource.shortServerId, ServerResource.lifetime, ServerResource.binding]
        j → q i → q j) :
    (∃ i, BelongsTo servers info i ∧ q i) ↔ ∃ i, BelongsTo servers' info i ∧ q i := by
  have hfirst : ∀ n : Nat,
      (∃ k i, servers.instances.IsFirst (·.HoldsNatural ServerResource.shortServerId n) k i ∧
        q i) ↔
        ∃ k i, servers'.instances.IsFirst (·.HoldsNatural ServerResource.shortServerId n) k i ∧
          q i := by
    exact fun n => h.exists_isFirst_iff (fun _ _ => trivial)
      (fun i j hij hi => hi.of_agreesOn hij (by simp)) hq
  have hsplit : ∀ servers : Object, (∃ i, BelongsTo servers info i ∧ q i) ↔
      ∃ n, info.shortId = some n ∧
      ∃ k i, servers.instances.IsFirst (·.HoldsNatural ServerResource.shortServerId n.toNat) k i ∧
        q i := by
    intro servers
    constructor
    · rintro ⟨i, ⟨n, k, hn, hi⟩, hqi⟩
      exact ⟨n, hn, k, i, hi, hqi⟩
    · rintro ⟨n, hn, k, i, hi, hqi⟩
      exact ⟨i, ⟨n, k, hn, hi⟩, hqi⟩
  simp only [hsplit, hfirst]

theorem managementOf_of_same (h : SameServers servers servers') (info : ServerInfo) :
    managementOf servers info = managementOf servers' info := by
  have hlifetime :
      (managementOf servers info).lifetime = (managementOf servers' info).lifetime := by
    refine Option.ext fun n => ?_
    rw [(joins_managementOf servers info).lifetime, (joins_managementOf servers' info).lifetime]
    exact exists_belongsTo_iff h fun i j hij hi => hi.of_agreesOn hij (by simp)
  have hbinding : (managementOf servers info).binding = (managementOf servers' info).binding := by
    refine Option.ext fun mode => ?_
    rw [(joins_managementOf servers info).binding, (joins_managementOf servers' info).binding]
    exact exists_belongsTo_iff h fun i j hij hi => (hij _ (by simp)).symm.trans hi
  calc managementOf servers info
      = ⟨info, (managementOf servers info).lifetime, (managementOf servers info).binding⟩ := rfl
    _ = ⟨info, (managementOf servers' info).lifetime, (managementOf servers' info).binding⟩ := by
        rw [hlifetime, hbinding]

theorem entryOf_of_agreesOn {i j : ObjectInstance}
    (h : i.AgreesOn [SecurityResource.serverUri, SecurityResource.bootstrap,
      SecurityResource.shortServerId] j)
    (hosts : Hosts) (servers : Object) : entryOf hosts servers i = entryOf hosts servers j := by
  have huri : uriOf i = uriOf j := by
    rw [uriOf, uriOf, h.string (by simp)]
  have hflag : isBootstrap i = isBootstrap j := by
    rw [isBootstrap, isBootstrap, h.boolean (by simp)]
  have hinfo : infoOf hosts i = infoOf hosts j := by
    funext uri
    rw [infoOf, infoOf, shortIdOf, shortIdOf, h.integer (by simp)]
  rw [entryOf, entryOf, huri, hflag, hinfo]

/-- Where the same counts, the same servers are found. -/
theorem servers_of_same (hsecurities : SameSecurities securities securities')
    (hservers : SameServers servers servers') (hosts : Hosts) :
    Extraction.servers hosts securities servers =
      Extraction.servers hosts securities' servers' := by
  have hentry : entryOf hosts servers = entryOf hosts servers' := by
    funext i
    simp only [entryOf, managementOf_of_same hservers]
  have hunnamed : ∀ i : ObjectInstance, (¬∃ uri, i.NamesUri uri) →
      (entryOf hosts servers' i).toOption = none :=
    fun _ hnone => toOption_entryOf_of_not_namesUri (not_exists.mp hnone) hosts servers'
  rw [Extraction.servers, Extraction.servers, hentry, hsecurities.filterMap_values hunnamed]
  exact fun i j hij => congrArg Except.toOption (entryOf_of_agreesOn hij hosts servers')

end Extraction

/-! ### Extraction -/

/-- In two views the same counts for the servers: both objects are hosted in both or not, and no
matter what else there is, what tells of a server is the same. -/
structure View.NamesAlike (v v' : View) : Prop where
  securities : Option.Rel Extraction.SameSecurities (v.object ObjectId.security)
    (v'.object ObjectId.security)
  servers :
    Option.Rel Extraction.SameServers (v.object ObjectId.server) (v'.object ObjectId.server)

theorem View.NamesAlike.servers?_eq {v v' : View} (h : v.NamesAlike v') (hosts : Hosts) :
    v.servers? hosts = v'.servers? hosts := by
  obtain ⟨hsecurities, hservers⟩ := h
  unfold View.servers?
  generalize v.object ObjectId.security = securities at hsecurities
  generalize v'.object ObjectId.security = securities' at hsecurities
  generalize v.object ObjectId.server = servers at hservers
  generalize v'.object ObjectId.server = servers' at hservers
  cases hsecurities with
  | none => cases hservers <;> rfl
  | some hsecurities =>
    cases hservers with
    | none => rfl
    | some hservers => exact congrArg some (Extraction.servers_of_same hsecurities hservers hosts)

namespace Scenario.World

variable {w : World}

theorem take_extract (h : w.IsReliable) :
    (w.take .extract).2 = .result (.servers (w.view.servers? w.hosts)) := by
  have hfound := consult_findServers_of_isReliable h w.hosts
  change (conclude .servers (w.consult (findServers w.hosts))).2 = _
  rw [← Prod.eta (w.consult (findServers w.hosts)), hfound]
  rfl

/-- Whatever a store holds, the servers found in it are the join of its Security and its
Server object, and none are found iff one of the two is not hosted. The lists have one
server for each Security instance whose URI can be read, in the order of the instances, and
what does not count for that never changes them: an instance without such a URI, any other
object and any other resource. -/
theorem extract_joins (h : w.IsReliable) :
    ∃ found, (w.take .extract).2 = .result (.servers found) ∧
      (found = none ↔ w.view.object ObjectId.security = none ∨
        w.view.object ObjectId.server = none) ∧
      (∀ known securities servers, found = some known →
        w.view.object ObjectId.security = some securities →
        w.view.object ObjectId.server = some servers →
          Extraction.Lists w.hosts servers securities.instances.entries known.bootstrap
            known.management) ∧
      ∀ w' : World, w'.IsReliable → w'.hosts = w.hosts → w.view.NamesAlike w'.view →
        (w'.take .extract).2 = .result (.servers found) := by
  refine ⟨_, take_extract h, ?_, ?_, ?_⟩
  · unfold View.servers?
    cases w.view.object ObjectId.security <;> cases w.view.object ObjectId.server <;> simp
  · intro known securities servers hfound hsecurities hservers
    simp only [View.servers?, hsecurities, hservers, Option.some_inj] at hfound
    subst hfound
    exact Extraction.lists_servers w.hosts securities servers
  · intro w' h' hhosts halike
    rw [take_extract h', hhosts, halike.servers?_eq w.hosts]

/-- To take out a Security instance without a URI that can be read leaves the same to count. -/
theorem namesAlike_remove {k : NumericId}
    (h : ∀ securities security, w.view.object ObjectId.security = some securities →
      securities.instances.get? k = some security → ∀ uri, ¬security.NamesUri uri) :
    w.view.NamesAlike { w with store := w.store.remove ObjectId.security k }.view := by
  constructor
  · change Option.Rel _ (if _ then none else w.store.read ObjectId.security)
      (if _ then none else (w.store.remove ObjectId.security k).read ObjectId.security)
    by_cases hhidden : ObjectId.security ∈ w.disturbance.hidden
    · rw [if_pos hhidden, if_pos hhidden]
      exact .none
    · rw [if_neg hhidden, if_neg hhidden, Store.read_remove, if_pos rfl]
      cases hread : w.store.read ObjectId.security with
      | none => exact .none
      | some securities =>
        refine .some (IdMap.countsAs_erase fun security hfound hnames => ?_)
        exact hnames.elim (h securities security ((if_neg hhidden).trans hread) hfound)
  · have hother : (w.store.remove ObjectId.security k).read ObjectId.server =
        w.store.read ObjectId.server := by
      rw [Store.read_remove, if_neg (by decide)]
    change Option.Rel _ (if _ then none else w.store.read ObjectId.server)
      (if _ then none else (w.store.remove ObjectId.security k).read ObjectId.server)
    rw [hother]
    split
    · exact .none
    · cases w.store.read ObjectId.server with
      | none => exact .none
      | some servers => exact .some (.refl _)

end World

/-- The URI under the first number has no scheme. The short id of the last management
server is out of range, and two Server instances have that of the other one, the first of
them with a lifetime below zero. -/
def joinedWorld : World :=
  { sampleWorld with
      store := Store.build [
        .put ObjectId.security ((Security.plainBootstrap "10.0.0.7").toInstance 1),
        .put ObjectId.security ((Security.plainBootstrap "coap://10.0.0.5").toInstance 2),
        .put ObjectId.security ((Security.plain "coaps://10.0.0.6" 2222).toInstance 4),
        .put ObjectId.security
          ⟨9, .ofList [(SecurityResource.serverUri, .string "coap://10.0.0.8"),
          (SecurityResource.shortServerId, .integer 70000)]⟩,
        .put ObjectId.server ⟨3, .ofList [(ServerResource.shortServerId, .integer 2222),
          (ServerResource.lifetime, .integer (-1)), (ServerResource.binding, .string "UQ")]⟩,
        .put ObjectId.server ((Server.mk 2222 30 "U").toInstance 5)] }

theorem joined_once_extracted :
    ∃ known, (joinedWorld.take .extract).2 = .result (.servers (some known)) ∧
      known.bootstrap.map (·.uri.host) = ["10.0.0.5"] ∧
      known.management.map (fun m => (m.info.uri.host, m.info.shortId, m.lifetime, m.binding)) =
        [("10.0.0.6", some 2222, none, some .uq), ("10.0.0.8", none, none, none)] ∧
      ({ joinedWorld with
         store := joinedWorld.store.remove ObjectId.security 1 }.take .extract).2 =
        .result (.servers (some known)) := by
  obtain ⟨found, hresult, -, -, hsame⟩ := World.extract_joins (w := joinedWorld) ⟨rfl, rfl⟩
  have hfewer :=
    hsame { joinedWorld with store := joinedWorld.store.remove ObjectId.security 1 }
      ⟨rfl, rfl⟩ rfl
    (World.namesAlike_remove fun securities security hsecurities hfound uri hnames => by
      have hunreadable : (joinedWorld.view.object ObjectId.security).all (fun o =>
          (o.instances.get? 1).all fun i => (Extraction.uriOf i).toOption.isNone) = true := by
        decide +kernel
      simp only [hsecurities, Option.all_some, hfound, Extraction.uriOf_eq_ok_iff.mpr hnames]
        at hunreadable
      cases hunreadable)
  have hknown : (joinedWorld.view.servers? joinedWorld.hosts).any (fun known => decide (
      known.bootstrap.map (·.uri.host) = ["10.0.0.5"] ∧
        known.management.map (fun m => (m.info.uri.host, m.info.shortId, m.lifetime, m.binding)) =
          [("10.0.0.6", some 2222, none, some .uq), ("10.0.0.8", none, none, none)])) = true := by
    decide +kernel
  obtain ⟨known, hservers, hvalues⟩ := (Option.any_eq_true _ _).mp hknown
  obtain ⟨hbootstrap, hmanagement⟩ := of_decide_eq_true hvalues
  have hfound : found = some known := by
    have htaken := hresult.symm.trans (World.take_extract (w := joinedWorld) ⟨rfl, rfl⟩)
    rw [hservers] at htaken
    cases htaken
    rfl
  subst hfound
  exact ⟨known, hresult, hbootstrap, hmanagement, hfewer⟩

end Scenario
end Lwm2mClient
