import Lwm2mClient.Proofs.Scenario.Following
import Lwm2mClient.Proofs.Sessions.Freshness
import Lwm2mClient.Proofs.Store.Purging
import Mathlib.Data.List.Basic

/-!
What a delete message of the peer makes of the store. The purge reads each object once
and then deletes by the numbers that the instances bear, so in a store that keeps them
under these numbers it deletes what it means to delete, and the bootstrap servers of the
client are as they were before.
-/
namespace Lwm2mClient

open Net

/-- A session is open with a peer that has the sender's internet address, and the
path is that of the root. -/
def Gate.AdmitsPurge (g : Gate) (sender : SocketAddress) (path : String) : Prop :=
  (∃ peer number address, g.session = .active peer number ∧ peer.address = some address ∧
    address.ip = sender.ip) ∧ (path = "" ∨ path = "/")

theorem Gate.AdmitsPurge.acceptsDelete {g : Gate} {sender : SocketAddress} {path : String}
    (h : g.AdmitsPurge sender path) : g.acceptsDelete sender path = .ok () := by
  obtain ⟨⟨peer, number, address, hfrom⟩, hpath⟩ := h
  simp only [Gate.acceptsDelete, Gate.letIn_eq_ok.mpr ⟨peer, address, hfrom⟩, if_pos hpath]

namespace Scenario

/-- The deletions by which some objects of a store are purged on behalf of a sender. -/
def deletionsOf (s : Store) (sender : SocketAddress) (objects : List NumericId) : List Deletion :=
  objects.flatMap fun n =>
    match s.read n with
    | some o => (o.spent n).map fun i => ⟨sender, n, i.id, .deleted⟩
    | none => []

/-- In a store that was purged there is nothing to delete. -/
theorem deletionsOf_purged (s : Store) (sender : SocketAddress) (objects : List NumericId) :
    deletionsOf s.purged sender objects = [] := by
  refine List.flatMap_eq_nil_iff.mpr fun n _ => ?_
  rw [Store.read_purged]
  cases s.read n with
  | none => rfl
  | some o => simp only [Option.map_some, Object.spent_purged, List.map_nil]

namespace World

variable {w : World} {sender : SocketAddress} {path : String} {n : NumericId} {o : Object}

theorem servers?_of_plain (hplain : w.disturbance = {}) (hosts : Hosts) :
    w.view.servers? hosts =
      match w.store.read ObjectId.security, w.store.read ObjectId.server with
      | some securities, some servers => some (Extraction.servers hosts securities servers)
      | _, _ => none := by
  have hread (object : NumericId) : w.view.object object = w.store.read object :=
    if_neg (by rw [hplain]; exact List.not_mem_nil)
  change (match w.view.object ObjectId.security, w.view.object ObjectId.server with
    | some securities, some servers => some (Extraction.servers hosts securities servers)
    | _, _ => none) = _
  rw [hread, hread]

/-- The world after deletions that left a store. -/
def withStore (w : World) (s : Store) (deletions : List Deletion) : World :=
  { w with store := s, deletions := w.deletions ++ deletions.toArray }

theorem withStore_withStore (w : World) (s s' : Store) (ds ds' : List Deletion) :
    (w.withStore s ds).withStore s' ds' = w.withStore s' (ds ++ ds') := by
  simp only [withStore, Array.append_assoc, List.append_toArray]

theorem withStore_self (w : World) : w.withStore w.store [] = w := by
  simp [withStore]

/-! ### The purge, where nothing is shown -/

theorem deleteInstance_of_plain (hplain : w.disturbance = {}) (hquiet : w.level = none)
    {i : NumericId} (hhas : w.store.hasInstance n i = true) :
    w.deleteInstance sender n i =
      (w.withStore (w.store.remove n i) [⟨sender, n, i, .deleted⟩], .ok .deleted) := by
  have hreliable : (n, i) ∉ w.disturbance.failingDeletes := by
    rw [hplain]
    exact List.not_mem_nil
  have hwilling : w.disturbance.deny = none := by rw [hplain]
  have hremoved :
      w.removeInstance sender n i = ({ w with store := w.store.remove n i }, .deleted) := by
    rw [removeInstance, if_pos hhas]
    exact congrArg (·, ResponseCode.deleted)
      (report_of_quiet (w := { w with store := w.store.remove n i }) hquiet _)
  simp only [deleteInstance, if_neg hreliable, hwilling, hremoved, withStore,
    Array.push_eq_append]

theorem readObject_of_plain (hplain : w.disturbance = {}) (hquiet : w.level = none)
    (n : NumericId) : w.readObject n = (w, .ok (w.store.read n)) := by
  simp only [readObject, hplain, List.not_mem_nil, if_false, report_of_quiet hquiet]

/-- The spent instances of an object are deleted by the numbers that they bear. -/
theorem follow_purgeInstances (hplain : w.disturbance = {}) (hquiet : w.level = none)
    (hread : w.store.read n = some o) {instances : List ObjectInstance}
    (hfound : ∀ i ∈ instances, o.instances.get? i.id = some i)
    (hnodup : (instances.map (·.id)).Nodup) :
    follow none (Purge.purgeInstances sender n instances) w =
      (w.withStore
        (w.store.removeAll n ((instances.filter fun i => !Purge.isKept n i).map (·.id)))
        ((instances.filter fun i => !Purge.isKept n i).map fun i => ⟨sender, n, i.id, .deleted⟩),
        .finished ()) := by
  induction instances generalizing w o with
  | nil => rw [List.filter_nil, List.map_nil, List.map_nil, Store.removeAll, List.foldl_nil,
      withStore_self]; rfl
  | cons i rest ih =>
    obtain ⟨hfresh, hrest⟩ := List.nodup_cons.mp hnodup
    have hlater : ∀ j ∈ rest, o.instances.get? j.id = some j :=
      fun j hj => hfound j (List.mem_cons_of_mem i hj)
    by_cases hkept : Purge.isKept n i = true
    · have hlog : follow none (Purge.purgeInstances sender n (i :: rest)) w =
          follow none (Purge.purgeInstances sender n rest) (w.report [.securityKept i.id]) := by
        simp only [Purge.purgeInstances, hkept, if_true]
        rfl
      rw [hlog, report_of_quiet hquiet, ih hplain hquiet hread hlater hrest,
        List.filter_cons_of_neg (by simp [hkept])]
    · rw [Bool.not_eq_true] at hkept
      have hhas : w.store.hasInstance n i.id = true := by
        simp only [Store.hasInstance, hread, Option.any_some, IdMap.contains,
          hfound i List.mem_cons_self, Option.isSome_some]
      let deleted := w.withStore (w.store.remove n i.id) [⟨sender, n, i.id, .deleted⟩]
      have hdelete : follow none (Purge.purgeInstances sender n (i :: rest)) w =
          follow none (Purge.purgeInstances sender n rest) deleted := by
        have hanswer :
            w.answer? none (.deleteInstance sender n i.id) = some (deleted, .ok .deleted) :=
          congrArg some (deleteInstance_of_plain hplain hquiet hhas)
        simp only [Purge.purgeInstances, hkept, Bool.false_eq_true, if_false]
        exact follow_of_ok hanswer (by simp) (by simp)
      have hleft :
          deleted.store.read n = some { o with instances := o.instances.erase i.id } := by
        change (w.store.remove n i.id).read n = _
        rw [Store.read_remove, if_pos rfl, hread]
        rfl
      have hstill : ∀ j ∈ rest, (o.instances.erase i.id).get? j.id = some j := by
        intro j hj
        rw [IdMap.get?_erase, if_neg ?_]
        · exact hlater j hj
        · intro heq
          exact hfresh (List.mem_map.mpr ⟨j, hj, heq⟩)
      rw [hdelete, ih (w := deleted) hplain hquiet hleft hstill hrest, withStore_withStore,
        List.filter_cons_of_pos (by simp [hkept])]
      rfl

theorem follow_purgeObjects (hplain : w.disturbance = {}) (hquiet : w.level = none)
    {objects : List NumericId} (hnodup : objects.Nodup) (hkeyed : w.store.IsKeyed) :
    ∃ s : Store, follow none (Purge.purgeObjects sender objects) w =
        (w.withStore s (deletionsOf w.store sender objects), .finished ()) ∧
      ∀ m, s.read m = if m ∈ objects then (w.store.read m).map (Object.purged m)
        else w.store.read m := by
  induction objects generalizing w with
  | nil =>
    exact ⟨w.store, by rw [deletionsOf, List.flatMap_nil, withStore_self]; rfl, fun m => rfl⟩
  | cons n rest ih =>
    obtain ⟨hfresh, hrest⟩ := List.nodup_cons.mp hnodup
    have hanswer : w.answer? none (.readObject n) = some (w, .ok (w.store.read n)) :=
      congrArg some (readObject_of_plain hplain hquiet n)
    have hread : follow none (Purge.purgeObjects sender (n :: rest)) w =
        match w.store.read n with
        | some o => follow none (Purge.purgeInstances sender n o.instances.values >>= fun _ =>
            Purge.purgeObjects sender rest) w
        | none => follow none (Purge.purgeObjects sender rest) w := by
      refine (follow_of_ok hanswer nofun nofun).trans ?_
      cases w.store.read n <;> rfl
    cases hn : w.store.read n with
    | none =>
      obtain ⟨s, hfollow, hs⟩ := ih hplain hquiet hrest hkeyed
      rw [hn] at hread
      refine ⟨s, ?_, ?_⟩
      · rw [hread, deletionsOf, List.flatMap_cons, hn]
        exact hfollow
      · intro m
        rw [hs m]
        by_cases hm : m = n
        · subst hm
          simp [hn]
        · simp [hm]
    | some o =>
      have ho : o.IsKeyed := hkeyed n o hn
      -- Deleting instances of this object leaves the others, and what is found
      -- under their numbers.
      let removed := w.store.removeAll n ((o.spent n).map (·.id))
      have hremoved : ∀ m, removed.read m = if m = n then some (o.purged n) else w.store.read m :=
        Store.read_removeAll_spent hn ho
      have hothers : ∀ m ∈ rest, removed.read m = w.store.read m := by
        intro m hm
        rw [hremoved, if_neg]
        rintro rfl
        exact hfresh hm
      let deleted := w.withStore removed ((o.spent n).map fun i => ⟨sender, n, i.id, .deleted⟩)
      have hinstances : follow none (Purge.purgeInstances sender n o.instances.values) w =
          (deleted, .finished ()) :=
        follow_purgeInstances hplain hquiet hn (fun i hi => ho.get?_id hi)
          (ho.ids ▸ o.instances.keys_nodup)
      obtain ⟨s, hfollow, hs⟩ := ih (w := deleted) hplain hquiet hrest (hkeyed.removeAll_spent hn)
      have hdeletions : deletionsOf removed sender rest = deletionsOf w.store sender rest :=
        List.flatMap_congr fun m hm => by rw [hothers m hm]
      rw [hn] at hread
      refine ⟨s, ?_, ?_⟩
      · rw [hread]
        refine (follow_bind_of_finished hinstances _).trans (hfollow.trans ?_)
        change ((w.withStore _ _).withStore s (deletionsOf removed sender rest), _) = _
        rw [hdeletions, withStore_withStore, deletionsOf, deletionsOf, List.flatMap_cons, hn]
      · intro m
        rw [hs m]
        change (if m ∈ rest then (removed.read m).map _ else removed.read m) = _
        by_cases hm : m = n
        · subst hm
          simp [hfresh, hremoved, hn]
        · simp [hm, hremoved]

/-- A purge leaves of every object what it is to leave, and every deletion succeeds. -/
theorem follow_purge (hplain : w.disturbance = {}) (hquiet : w.level = none)
    (hkeyed : w.store.IsKeyed) :
    follow none (Purge.purge sender) w =
      (w.withStore w.store.purged (deletionsOf w.store sender w.store.objectIds),
        .finished ()) := by
  have hnodup : w.store.objectIds.Nodup := w.store.objects.keys_nodup
  obtain ⟨s, hfollow, hs⟩ := follow_purgeObjects hplain hquiet hnodup hkeyed
  have hpurged : s = w.store.purged := by
    refine Store.ext_read fun m => ?_
    rw [hs m, Store.read_purged]
    split
    · rfl
    · rename_i habsent
      cases hm : w.store.read m with
      | none => rfl
      | some o => exact absurd (Store.mem_objectIds_iff.mpr ⟨o, hm⟩) habsent
  subst hpurged
  change follow none (Purge.purgeObjects sender w.store.objectIds >>= fun _ =>
      Program.log (.objectsPurged sender)) w = _
  rw [follow_bind_of_finished hfollow]
  exact congrArg (·, Pause.finished ()) (report_of_quiet (w := w.withStore _ _) hquiet _)

/-! ### The message -/

/-- Where nothing disturbs the store, the delete message of the peer purges it and is answered,
and all else is as it was before but for the lines of the log. -/
theorem receiveDelete_of_admitsPurge (hplain : w.disturbance = {}) (hkeyed : w.store.IsKeyed)
    (hadmits : w.gate.AdmitsPurge sender path) :
    ∃ w', w.receiveDelete sender path = (w', .ok (.ok ())) ∧
      w'.silent =
        (w.withStore w.store.purged (deletionsOf w.store sender w.store.objectIds)).silent := by
  have hpurge : follow none (Purge.purge sender) w.silent = _ :=
    follow_purge (w := w.silent) hplain rfl hkeyed
  have hsilent : hush (w.receiveDelete sender path) = w.silent.receiveDelete sender path :=
    (receiveDelete_silent w sender path).symm
  have hclean : w.silent.receiveDelete sender path =
      (w.silent.withStore w.store.purged (deletionsOf w.store sender w.store.objectIds),
        .ok (.ok ())) := by
    simp only [receiveDelete, silent_gate, hadmits.acceptsDelete, consult, hpurge]
    rfl
  obtain ⟨hworld, hverdict⟩ := Prod.ext_iff.mp (hsilent.trans hclean)
  exact ⟨(w.receiveDelete sender path).1, Prod.ext rfl hverdict, hworld⟩

/-- A purge by the peer of the session leaves the client able to bootstrap again. The same
objects are hosted; of the Security object the instances are left that say of themselves that
they are a bootstrap server's, unchanged, and of every other object none. So the same bootstrap
servers are found as before, in the same order, and no device management server, where both
objects were hosted. Nothing else changes, and wherever a client has a store like that, another
such message changes nothing at all. -/
theorem bootstrappable_of_purge {edits : List Store.Edit} (hstore : w.store = Store.build edits)
    (hplain : w.disturbance = {}) (hadmits : w.gate.AdmitsPurge sender path) :
    ∃ w', w.receiveDelete sender path = (w', .ok (.ok ())) ∧
      w'.store.objectIds = w.store.objectIds ∧
      (∀ n o, w.store.read n = some o → ∃ o', w'.store.read n = some o' ∧ o'.id = o.id ∧
        o'.instances.entries = o.instances.entries.filter fun e =>
          n = ObjectId.security ∧
            e.2.resources.get? SecurityResource.bootstrap = some (.boolean true)) ∧
      (ObjectId.security ∈ w.store.objectIds → ObjectId.server ∈ w.store.objectIds →
        ∀ hosts, ∃ known,
        (w.consult (findServers hosts)).2 = .ok (some known) ∧
          (w'.consult (findServers hosts)).2 = .ok (some ⟨known.bootstrap, []⟩)) ∧
      { w' with store := w.store, deletions := w.deletions }.silent = w.silent ∧
      ∀ (again : World) (sender' : SocketAddress) (path' : String), again.store = w'.store →
        again.disturbance = {} → again.gate.AdmitsPurge sender' path' →
          ∃ w'', again.receiveDelete sender' path' = (w'', .ok (.ok ())) ∧
            w''.silent = again.silent := by
  have hkeyed : w.store.IsKeyed := hstore ▸ Store.isKeyed_build edits
  obtain ⟨w', hreceived, hsilent⟩ := receiveDelete_of_admitsPurge hplain hkeyed hadmits
  have hpurged : w'.store = w.store.purged := congrArg World.store hsilent
  have hstill : w'.disturbance = {} := (congrArg World.disturbance hsilent).trans hplain
  refine ⟨w', hreceived, by rw [hpurged, Store.objectIds_purged], ?_, ?_, ?_, ?_⟩
  · intro n o ho
    refine ⟨o.purged n, by rw [hpurged, Store.read_purged, ho, Option.map_some], rfl, ?_⟩
    refine List.filter_congr fun e _ => ?_
    rw [Bool.eq_iff_iff, Purge.isKept_iff, decide_eq_true_iff]
  · intro hsecurity hserver hosts
    obtain ⟨securities, hsecurities⟩ := Store.mem_objectIds_iff.mp hsecurity
    obtain ⟨servers, hservers⟩ := Store.mem_objectIds_iff.mp hserver
    refine ⟨Extraction.servers hosts securities servers, ?_, ?_⟩
    · rw [consult_findServers_of_isReliable (isReliable_of_plain hplain),
        servers?_of_plain hplain, hsecurities, hservers]
    · rw [consult_findServers_of_isReliable (isReliable_of_plain hstill),
        servers?_of_plain hstill, hpurged, Store.read_purged, Store.read_purged, hsecurities,
        hservers, Option.map_some, Option.map_some,
        ← Extraction.servers_purged hosts securities servers (servers.purged ObjectId.server)]
  · exact congrArg
      (fun v : World => { v with store := w.store, deletions := w.deletions }) hsilent
  · intro again sender' path' hsame hplain' hadmits'
    have hpurgedBefore : again.store = w.store.purged := hsame.trans hpurged
    have hkeyed' : again.store.IsKeyed := hpurgedBefore ▸ hkeyed.purged
    obtain ⟨w'', hreceived', hsilent'⟩ := receiveDelete_of_admitsPurge hplain' hkeyed' hadmits'
    refine ⟨w'', hreceived', hsilent'.trans ?_⟩
    rw [hpurgedBefore, Store.purged_purged, deletionsOf_purged, ← hpurgedBefore, withStore_self]

end World

/-- A session is open with the first of two bootstrap servers. A management server and one whose
flag is no boolean stand between the two, and the device object has an instance. -/
def provisionedWorld : World :=
  ({ sampleWorld with
      store := Store.build [
        .put ObjectId.security ((Security.plainBootstrap "coap://10.0.0.5:5683").toInstance 1),
        .put ObjectId.security ((Security.plain "coap://10.0.0.6:5683" 2222).toInstance 2),
        .put ObjectId.security ⟨3, .ofList [(SecurityResource.bootstrap, .string "true")]⟩,
        .put ObjectId.security ((Security.plainBootstrap "coap://10.0.0.7:5683").toInstance 4),
        .put ObjectId.server ((Server.mk 2222 30 "U").toInstance 0),
        .put ObjectId.device ⟨0, .empty⟩, .host 4, .remove 4 9] }.openSession samplePeer).1

theorem bootstrappable_once_purged :
    ∃ w', provisionedWorld.receiveDelete sampleSender "/" = (w', .ok (.ok ())) ∧
      w'.store.objectIds = [0, 1, 3, 4] ∧
      (∃ o', w'.store.read ObjectId.security = some o' ∧ o'.instances.keys = [1, 4]) ∧
      (∃ o', w'.store.read ObjectId.device = some o' ∧ o'.instances.keys = []) ∧
      ∃ w'', w'.receiveDelete sampleSender "" = (w'', .ok (.ok ())) ∧ w''.silent = w'.silent := by
  have hadmits : ∀ path, path = "" ∨ path = "/" →
      provisionedWorld.gate.AdmitsPurge sampleSender path :=
    fun path hpath => ⟨⟨samplePeer, 1, Reception.sampleServer, rfl, rfl, rfl⟩, hpath⟩
  obtain ⟨w', hreceived, hids, hleft, -, hframe, hagain⟩ :=
    World.bootstrappable_of_purge (w := provisionedWorld) rfl rfl (hadmits "/" (.inr rfl))
  have hgate : w'.gate = provisionedWorld.gate := (congrArg World.gate hframe :)
  have hplain : w'.disturbance = {} := (congrArg World.disturbance hframe :)
  have hread : ∀ n (keys : List NumericId),
      (provisionedWorld.store.read n).any (fun o => decide ((o.instances.entries.filter fun e =>
        n = ObjectId.security ∧ e.2.resources.get? SecurityResource.bootstrap =
          some (.boolean true)).map
          (·.1) = keys)) = true →
      ∃ o', w'.store.read n = some o' ∧ o'.instances.keys = keys := by
    intro n keys hkeys
    obtain ⟨o, ho, hentries⟩ := (Option.any_eq_true _ _).mp hkeys
    obtain ⟨o', ho', -, hleft⟩ := hleft n o ho
    exact ⟨o', ho', (congrArg (List.map Prod.fst) hleft).trans (of_decide_eq_true hentries)⟩
  refine ⟨w', hreceived, hids.trans (by decide +kernel), hread _ _ (by decide +kernel),
    hread _ _ (by decide +kernel), ?_⟩
  exact hagain w' sampleSender "" rfl hplain (hgate ▸ hadmits "" (.inl rfl))

end Scenario
end Lwm2mClient
