import Lwm2mClient.Bootstrap.Purge
import Lwm2mClient.Proofs.Store.Likeness
import Lwm2mClient.Servers.Extraction
import Lwm2mClient.Store.Basic

/-!
What a purge is to leave of a store. A store that was made by hosting objects, putting instances
and removing them keeps every instance under its own number, so whoever deletes by the number that
an instance bears deletes the instance that it has read. What is left of the Security object is
what names the bootstrap servers.
-/
namespace Lwm2mClient

open Net

/-! ### Stores as they are made -/

/-- One change of a store. -/
inductive Store.Edit where
  | host (object : NumericId)
  | put (object : NumericId) (value : ObjectInstance)
  | remove (object instanceId : NumericId)

def Store.edit (s : Store) : Edit → Store
  | .host object => s.host object
  | .put object value => s.put object value
  | .remove object i => s.remove object i

/-- The store that some changes make of an empty one. -/
def Store.build (edits : List Edit) : Store := edits.foldl edit {}

/-- Every instance is kept under its own number. -/
def Object.IsKeyed (o : Object) : Prop := ∀ k i, o.instances.get? k = some i → i.id = k

def Store.IsKeyed (s : Store) : Prop := ∀ n o, s.read n = some o → o.IsKeyed

variable {s : Store} {o : Object} {n m k : NumericId} {i : ObjectInstance}

namespace Object.IsKeyed

theorem empty (n : NumericId) : (Object.empty n).IsKeyed := by
  intro k i hi
  cases hi

theorem insert (h : o.IsKeyed) (i : ObjectInstance) :
    ({ o with instances := o.instances.insert i.id i } : Object).IsKeyed := by
  intro k j hj
  rw [IdMap.get?_insert] at hj
  split at hj
  · rename_i hk
    cases hj
    exact hk.symm
  · exact h k j hj

theorem erase (h : o.IsKeyed) (i : NumericId) :
    ({ o with instances := o.instances.erase i } : Object).IsKeyed := by
  intro k j hj
  rw [IdMap.get?_erase] at hj
  split at hj
  · cases hj
  · exact h k j hj

/-- The numbers that the instances bear are those under which they are kept. -/
theorem ids (h : o.IsKeyed) : o.instances.values.map (·.id) = o.instances.keys := by
  rw [IdMap.values, IdMap.keys, List.map_map]
  exact List.map_congr_left fun e he => h e.1 e.2 (IdMap.get?_eq_some_iff.mpr he)

theorem get?_id (h : o.IsKeyed) (hi : i ∈ o.instances.values) :
    o.instances.get? i.id = some i := by
  obtain ⟨k, hk⟩ := IdMap.mem_values_iff.mp hi
  rw [h k i hk]
  exact hk

end Object.IsKeyed

namespace Store

@[simp] theorem read_insert (s : Store) (n m : NumericId) (o : Object) :
    read ⟨s.objects.insert n o⟩ m = if m = n then some o else s.read m :=
  IdMap.get?_insert ..

@[simp] theorem read_remove (s : Store) (n i m : NumericId) :
    (s.remove n i).read m =
      if m = n then (s.read n).map fun o => { o with instances := o.instances.erase i }
      else s.read m := by
  unfold remove
  split
  · rename_i o ho
    simp only [read_insert, ho, Option.map_some]
  · rename_i hnone
    by_cases hm : m = n
    · simp only [hm, hnone, if_true, Option.map_none]
    · simp only [hm, if_false]

theorem IsKeyed.put (h : s.IsKeyed) (n : NumericId)
    (i : ObjectInstance) : (s.put n i).IsKeyed := by
  have hbefore : ((s.read n).getD (.empty n)).IsKeyed := by
    cases ho : s.read n with
    | none => exact Object.IsKeyed.empty n
    | some o => exact h n o ho
  intro m o ho
  rw [Store.put, read_insert] at ho
  split at ho
  · cases ho
    exact hbefore.insert i
  · exact h m o ho

theorem IsKeyed.host (h : s.IsKeyed) (n : NumericId) : (s.host n).IsKeyed := by
  unfold Store.host
  split
  · exact h
  · intro m o ho
    rw [read_insert] at ho
    split at ho
    · cases ho
      exact Object.IsKeyed.empty n
    · exact h m o ho

theorem IsKeyed.remove (h : s.IsKeyed) (n i : NumericId) : (s.remove n i).IsKeyed := by
  intro m o ho
  rw [read_remove] at ho
  split at ho
  · cases hn : s.read n with
    | none =>
      rw [hn] at ho
      cases ho
    | some before =>
      rw [hn] at ho
      cases ho
      exact (h n before hn).erase i
  · exact h m o ho

theorem IsKeyed.edit (h : s.IsKeyed) (e : Edit) : (s.edit e).IsKeyed := by
  cases e with
  | host n => exact h.host n
  | put n i => exact h.put n i
  | remove n i => exact h.remove n i

/-- However a store is made, it keeps every instance under its own number. -/
theorem isKeyed_build (edits : List Edit) : (build edits).IsKeyed := by
  have hedits : ∀ s : Store, s.IsKeyed → (edits.foldl Store.edit s).IsKeyed := by
    induction edits with
    | nil => exact fun s h => h
    | cons e rest ih => exact fun s h => ih _ (h.edit e)
  exact hedits {} fun n o ho => nomatch ho

/-! ### Removing several instances of an object -/

def removeAll (s : Store) (n : NumericId) (ids : List NumericId) : Store :=
  ids.foldl (·.remove n) s

theorem read_removeAll (s : Store) (n : NumericId) (ids : List NumericId) (m : NumericId) :
    (s.removeAll n ids).read m =
      if m = n then
        (s.read n).map fun o => { o with instances := o.instances.restrict fun k _ => k ∉ ids }
      else s.read m := by
  induction ids generalizing s with
  | nil =>
    have hall : ∀ o : Object,
        ({ o with instances := o.instances.restrict fun k _ => k ∉ ([] : List NumericId) } :
          Object) = o := by
      intro o
      simp [IdMap.restrict_true]
    by_cases hm : m = n
    · simp only [removeAll, List.foldl_nil, hm, if_true, hall, Option.map_id']
    · simp only [removeAll, List.foldl_nil, hm, if_false]
  | cons i rest ih =>
    have hrest := ih (s.remove n i)
    rw [read_remove, read_remove, if_pos rfl] at hrest
    change ((s.remove n i).removeAll n rest).read m = _
    rw [hrest]
    by_cases hm : m = n
    · simp only [hm, if_true, Option.map_map]
      congr 1
      funext o
      simp [IdMap.erase_eq_restrict, IdMap.restrict_restrict, Function.comp]
    · simp only [hm, if_false]

end Store

/-! ### What is left -/

/-- What a purge leaves of an object. -/
def Object.purged (n : NumericId) (o : Object) : Object :=
  { o with instances := o.instances.restrict fun _ i => Purge.isKept n i }

/-- The instances of an object that a purge deletes, in order. -/
def Object.spent (n : NumericId) (o : Object) : List ObjectInstance :=
  o.instances.values.filter fun i => !Purge.isKept n i

/-- What a purge leaves of a store. -/
def Store.purged (s : Store) : Store := ⟨s.objects.mapValues Object.purged⟩

theorem Purge.isKept_iff :
    isKept n i = true ↔
      n = ObjectId.security ∧ i.resources.get? SecurityResource.bootstrap =
        some (.boolean true) := by
  rw [isKept, Bool.and_eq_true, decide_eq_true_iff, decide_eq_true_iff,
    ObjectInstance.boolean_eq_some_iff]

namespace Store

@[simp] theorem read_purged (s : Store) (n : NumericId) :
    s.purged.read n = (s.read n).map (Object.purged n) :=
  IdMap.get?_mapValues ..

@[simp] theorem objectIds_purged (s : Store) : s.purged.objectIds = s.objectIds :=
  IdMap.keys_mapValues ..

theorem ext_read {t : Store} (h : ∀ n, s.read n = t.read n) : s = t := by
  have hobjects : s.objects = t.objects := IdMap.ext_get? h
  cases s
  cases t
  exact congrArg mk hobjects

theorem mem_objectIds_iff : n ∈ s.objectIds ↔ ∃ o, s.read n = some o := IdMap.mem_keys_iff

end Store

/-- To remove the spent instances by the numbers that they bear is to purge the object. -/
theorem Object.IsKeyed.restrict_spent (h : o.IsKeyed) (n : NumericId) :
    o.instances.restrict (fun k _ => k ∉ (o.spent n).map (·.id)) =
      o.instances.restrict fun _ i => Purge.isKept n i := by
  refine IdMap.restrict_congr fun k i hi => ?_
  by_cases hkept : Purge.isKept n i = true
  · rw [hkept, decide_eq_true_iff, List.mem_map]
    rintro ⟨j, hj, rfl⟩
    obtain ⟨hmem, hspent⟩ := List.mem_filter.mp hj
    cases (h.get?_id hmem).symm.trans hi
    rw [hkept] at hspent
    cases hspent
  · rw [Bool.not_eq_true] at hkept
    rw [hkept, decide_eq_false_iff_not]
    refine not_not_intro (List.mem_map.mpr ?_)
    refine ⟨i, List.mem_filter.mpr ⟨IdMap.mem_values_iff.mpr ⟨k, hi⟩, ?_⟩, h k i hi⟩
    rw [hkept]
    rfl

theorem Object.IsKeyed.purged (h : o.IsKeyed) (n : NumericId) : (o.purged n).IsKeyed := by
  intro k i hi
  rw [IdMap.get?_eq_some_iff] at hi
  exact h k i (IdMap.get?_eq_some_iff.mpr (List.mem_filter.mp hi).1)

/-- To remove the spent instances of one object purges this object and leaves the others. -/
theorem Store.read_removeAll_spent (hn : s.read n = some o) (ho : o.IsKeyed) (m : NumericId) :
    (s.removeAll n ((o.spent n).map (·.id))).read m = if m = n then some (o.purged n)
      else s.read m := by
  rw [Store.read_removeAll, hn, Option.map_some, ho.restrict_spent n]
  rfl

theorem Store.IsKeyed.removeAll_spent (h : s.IsKeyed) (hn : s.read n = some o) :
    (s.removeAll n ((o.spent n).map (·.id))).IsKeyed := by
  intro m p hp
  rw [Store.read_removeAll_spent hn (h n o hn)] at hp
  split at hp
  · cases hp
    exact (h n o hn).purged n
  · exact h m p hp

@[simp] theorem Object.purged_purged (n : NumericId) (o : Object) :
    (o.purged n).purged n = o.purged n := by
  simp only [Object.purged, IdMap.restrict_restrict, Bool.and_self]

/-- Nothing is left to delete. -/
theorem Object.spent_purged (n : NumericId) (o : Object) : (o.purged n).spent n = [] := by
  refine List.filter_eq_nil_iff.mpr fun i hi => ?_
  obtain ⟨e, he, rfl⟩ := List.mem_map.mp hi
  have hkept : Purge.isKept n e.2 = true := (List.mem_filter.mp he).2
  rw [hkept]
  exact Bool.false_ne_true

@[simp] theorem Store.purged_purged (s : Store) : s.purged.purged = s.purged := by
  refine ext_read fun n => ?_
  rw [read_purged, read_purged, Option.map_map]
  congr 1
  funext o
  exact o.purged_purged n

theorem Store.IsKeyed.purged (h : s.IsKeyed) : s.purged.IsKeyed := by
  intro n p hp
  rw [read_purged] at hp
  obtain ⟨o, ho, rfl⟩ := Option.map_eq_some_iff.mp hp
  exact (h n o ho).purged n

/-! ### The servers that are left -/

namespace Extraction

theorem values_purged_security (securities : Object) :
    (securities.purged ObjectId.security).instances.values =
      securities.instances.values.filter isBootstrap := by
  simp only [Object.purged, IdMap.restrict, IdMap.values, List.filter_map]
  rfl

/-- The bootstrap server that a Security instance names owes nothing to the Server object. -/
theorem bootstrap?_entryOf (hosts : Hosts) (servers : Object) (security : ObjectInstance) :
    (entryOf hosts servers security).toOption.bind Entry.bootstrap? =
      if isBootstrap security
        then (uriOf security).toOption.map (infoOf hosts security) else none := by
  unfold entryOf
  rcases uriOf security with e | uri
  · simp only [Except.map, Except.toOption, Option.bind_none, Option.map_none, ite_self]
  · by_cases h : isBootstrap security = true <;>
      simp [Except.map, Except.toOption, h, Entry.bootstrap?]

theorem management?_entryOf_of_isBootstrap {security : ObjectInstance}
    (h : isBootstrap security = true) (hosts : Hosts) (servers : Object) :
    (entryOf hosts servers security).toOption.bind Entry.management? = none := by
  unfold entryOf
  rcases uriOf security with e | uri
  · rfl
  · simp [Except.map, Except.toOption, h, Entry.management?]

/-- After a purge the same bootstrap servers are found as before and no device management
server. -/
theorem servers_purged (hosts : Hosts) (securities servers servers' : Object) :
    Extraction.servers hosts (securities.purged ObjectId.security) servers' =
      ⟨(Extraction.servers hosts securities servers).bootstrap, []⟩ := by
  simp only [Extraction.servers, serversOf, values_purged_security, List.filterMap_filterMap]
  rw [Servers.mk.injEq]
  constructor
  · simp only [bootstrap?_entryOf, List.filterMap_filter]
    congr 1
    funext i
    split <;> rfl
  · refine List.filterMap_eq_nil_iff.mpr fun i hi => ?_
    exact management?_entryOf_of_isBootstrap (List.mem_filter.mp hi).2 hosts servers'

end Extraction
end Lwm2mClient
