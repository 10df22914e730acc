import Lwm2mClient.IdMap

/-!
Finite maps as wholes: a map is known by what is found under each key, its values can be changed
one by one, and those that do not satisfy a condition can be left out. The first value that
satisfies a condition is the one with the lowest key.
-/
namespace Lwm2mClient.IdMap

variable {α β γ : Type} {m m' : IdMap α} {k : NumericId} {v : α}

/-! ### Entries -/

theorem lookup_eq_some_iff {es : List (NumericId × α)} (h : es.Pairwise fun a b => a.1 < b.1) :
    es.lookup k = some v ↔ (k, v) ∈ es := by
  induction es with
  | nil => simp
  | cons e es ih =>
    obtain ⟨hfirst, hrest⟩ := List.pairwise_cons.mp h
    rw [lookup_cons_entry, List.mem_cons]
    by_cases hk : k = e.1
    · -- The keys ascend, so the first entry is the only one with its key.
      have honly : (k, v) ∉ es := fun hmem => UInt16.lt_irrefl k (hk ▸ hfirst (k, v) hmem)
      rw [if_pos hk, Option.some_inj, or_iff_left honly]
      constructor
      · rintro rfl
        exact Prod.ext hk rfl
      · rintro rfl
        rfl
    · have hother : (k, v) ≠ e := fun heq => hk (heq ▸ rfl)
      rw [if_neg hk, ih hrest, or_iff_right hother]

/-- What is found under a key is what stands in the entry with that key. -/
theorem get?_eq_some_iff : m.get? k = some v ↔ (k, v) ∈ m.entries :=
  lookup_eq_some_iff m.ascending

theorem mem_keys_iff : k ∈ m.keys ↔ ∃ v, m.get? k = some v := by
  simp only [keys, List.mem_map, get?_eq_some_iff]
  constructor
  · rintro ⟨⟨key, v⟩, hmem, rfl⟩
    exact ⟨v, hmem⟩
  · rintro ⟨v, hmem⟩
    exact ⟨(k, v), hmem, rfl⟩

theorem mem_values_iff : v ∈ m.values ↔ ∃ k, m.get? k = some v := by
  simp only [values, List.mem_map, get?_eq_some_iff]
  constructor
  · rintro ⟨⟨k, v⟩, hmem, rfl⟩
    exact ⟨k, hmem⟩
  · rintro ⟨k, hmem⟩
    exact ⟨(k, v), hmem, rfl⟩

theorem keys_pairwise (m : IdMap α) : m.keys.Pairwise (· < ·) := List.pairwise_map.mpr m.ascending

theorem keys_nodup (m : IdMap α) : m.keys.Nodup := m.keys_pairwise.imp UInt16.ne_of_lt

/-- A list in strictly ascending order is known by its members. -/
theorem eq_of_ascending {f : β → NumericId} {l l' : List β} (h : l.Pairwise fun a b => f a < f b)
    (h' : l'.Pairwise fun a b => f a < f b) (hmem : ∀ x, x ∈ l ↔ x ∈ l') : l = l' := by
  have hnodup : ∀ {l : List β}, (l.Pairwise fun a b => f a < f b) → l.Nodup := fun h =>
    h.imp fun hlt heq => UInt16.ne_of_lt hlt (congrArg f heq)
  refine ((List.perm_ext_iff_of_nodup (hnodup h) (hnodup h')).mpr hmem).eq_of_pairwise ?_ h h'
  intro a b _ _ hab hba
  exact absurd (UInt16.lt_trans hab hba) (UInt16.lt_irrefl _)

/-- Two maps in which the same is found under every key are the same map. -/
theorem ext_get? (h : ∀ k, m.get? k = m'.get? k) : m = m' := by
  refine ext (eq_of_ascending m.ascending m'.ascending ?_)
  rintro ⟨k, v⟩
  rw [← get?_eq_some_iff, ← get?_eq_some_iff, h k]

/-! ### Changed values -/

/-- The map with each value changed in view of its key. -/
def mapValues (f : NumericId → α → β) (m : IdMap α) : IdMap β :=
  ⟨m.entries.map fun e => (e.1, f e.1 e.2), List.pairwise_map.mpr m.ascending⟩

@[simp] theorem get?_mapValues (f : NumericId → α → β) (m : IdMap α) (k : NumericId) :
    (m.mapValues f).get? k = (m.get? k).map (f k) := by
  simp only [get?, mapValues]
  induction m.entries with
  | nil => rfl
  | cons e es ih =>
    rw [List.map_cons, lookup_cons_entry, lookup_cons_entry, ih]
    by_cases hk : k = e.1
    · simp only [hk, if_true, Option.map_some]
    · simp only [hk, if_false]

@[simp] theorem keys_mapValues (f : NumericId → α → β) (m : IdMap α) :
    (m.mapValues f).keys = m.keys := by
  simp only [keys, mapValues, List.map_map]
  rfl

@[simp] theorem contains_mapValues (f : NumericId → α → β) (m : IdMap α) (k : NumericId) :
    (m.mapValues f).contains k = m.contains k := by
  simp only [contains, get?_mapValues, Option.isSome_map]

@[simp] theorem isEmpty_mapValues (f : NumericId → α → β) (m : IdMap α) :
    (m.mapValues f).isEmpty = m.isEmpty := by
  simp only [isEmpty, mapValues, List.isEmpty_map]

@[simp] theorem mapValues_empty (f : NumericId → α → β) : (empty : IdMap α).mapValues f = empty :=
  rfl

theorem mapValues_mapValues (f : NumericId → α → β) (g : NumericId → β → γ) (m : IdMap α) :
    (m.mapValues f).mapValues g = m.mapValues fun k v => g k (f k v) := by
  simp only [mapValues, List.map_map]
  rfl

theorem mapValues_insert (f : NumericId → α → β) (m : IdMap α) (k : NumericId) (v : α) :
    (m.insert k v).mapValues f = (m.mapValues f).insert k (f k v) := by
  refine ext_get? fun j => ?_
  simp only [get?_mapValues, get?_insert]
  by_cases hj : j = k
  · simp only [hj, if_true, Option.map_some]
  · simp only [hj, if_false]

theorem mapValues_erase (f : NumericId → α → β) (m : IdMap α) (k : NumericId) :
    (m.erase k).mapValues f = (m.mapValues f).erase k := by
  refine ext_get? fun j => ?_
  simp only [get?_mapValues, get?_erase]
  by_cases hj : j = k
  · simp only [hj, if_true, Option.map_none]
  · simp only [hj, if_false]

theorem values_mapValues (f : α → β) (m : IdMap α) :
    (m.mapValues fun _ => f).values = m.values.map f := by
  simp only [values, mapValues, List.map_map]
  rfl

/-! ### Fewer entries -/

/-- The map without the entries that do not satisfy a condition. -/
def restrict (p : NumericId → α → Bool) (m : IdMap α) : IdMap α :=
  ⟨m.entries.filter fun e => p e.1 e.2, m.ascending.filter _⟩

theorem restrict_restrict (p q : NumericId → α → Bool) (m : IdMap α) :
    (m.restrict p).restrict q = m.restrict fun k v => p k v && q k v := by
  simp only [restrict, List.filter_filter, Bool.and_comm]

theorem restrict_true (m : IdMap α) : m.restrict (fun _ _ => true) = m :=
  ext (List.filter_eq_self.mpr fun _ _ => rfl)

theorem erase_eq_restrict (m : IdMap α)
    (k : NumericId) : m.erase k = m.restrict fun j _ => j ≠ k :=
  rfl

theorem restrict_congr {p q : NumericId → α → Bool}
    (h : ∀ k v, m.get? k = some v → p k v = q k v) : m.restrict p = m.restrict q :=
  ext (List.filter_congr fun e he => h e.1 e.2 (get?_eq_some_iff.mpr he))

/-- The map of what a function makes of the values, without the entries of which it makes
nothing. -/
def filterMapValues (f : α → Option β) (m : IdMap α) : IdMap β :=
  ⟨m.entries.filterMap fun e => (f e.2).map fun b => (e.1, b), by
    refine m.ascending.filterMap _ ?_
    intro a b hab c hc d hd
    obtain ⟨_, -, rfl⟩ := Option.map_eq_some_iff.mp hc
    obtain ⟨_, -, rfl⟩ := Option.map_eq_some_iff.mp hd
    exact hab⟩

@[simp] theorem get?_filterMapValues (f : α → Option β) (m : IdMap α) (k : NumericId) :
    (m.filterMapValues f).get? k = (m.get? k).bind f := by
  refine Option.ext fun b => ?_
  rw [get?_eq_some_iff, Option.bind_eq_some_iff, filterMapValues, List.mem_filterMap]
  constructor
  · rintro ⟨⟨j, v⟩, hmem, hb⟩
    obtain ⟨b', hf, heq⟩ := Option.map_eq_some_iff.mp hb
    cases heq
    exact ⟨v, get?_eq_some_iff.mpr hmem, hf⟩
  · rintro ⟨v, hv, hf⟩
    exact ⟨(k, v), get?_eq_some_iff.mp hv, by simp only [hf, Option.map_some]⟩

theorem values_filterMapValues (f : α → Option β) (m : IdMap α) :
    (m.filterMapValues f).values = m.values.filterMap f := by
  simp only [values, filterMapValues, List.map_filterMap, List.filterMap_map, Option.map_map]
  congr 1
  funext e
  exact Option.map_id_apply

/-! ### First values -/

/-- Of the values that satisfy a condition, the one with the lowest key. -/
structure IsFirst (m : IdMap α) (p : α → Prop) (k : NumericId) (v : α) : Prop where
  found : m.get? k = some v
  holds : p v
  lowest : ∀ j u, m.get? j = some u → p u → k ≤ j

theorem IsFirst.unique {p : α → Prop} {k' : NumericId} {v' : α} (h : m.IsFirst p k v)
    (h' : m.IsFirst p k' v') : k = k' ∧ v = v' := by
  have hk : k = k' :=
    UInt16.le_antisymm (h.lowest k' v' h'.found h'.holds) (h'.lowest k v h.found h.holds)
  subst hk
  exact ⟨rfl, Option.some.inj (h.found.symm.trans h'.found)⟩

theorem isFirst_of_find?_values {p : α → Bool} (h : m.values.find? p = some v) :
    ∃ k, m.IsFirst (fun u => p u = true) k v := by
  rw [values, List.find?_map, Option.map_eq_some_iff] at h
  obtain ⟨⟨k, v⟩, hfind, rfl⟩ := h
  obtain ⟨hp, before, after, hentries, hbefore⟩ := List.find?_eq_some_iff_append.mp hfind
  have hascending := m.ascending
  rw [hentries, List.pairwise_append] at hascending
  refine ⟨k, get?_eq_some_iff.mpr (hentries ▸ List.mem_append_right before List.mem_cons_self),
    hp, ?_⟩
  intro j u hu hpu
  rw [get?_eq_some_iff, hentries, List.mem_append, List.mem_cons] at hu
  rcases hu with hearlier | heq | hlater
  · have hnot := hbefore (j, u) hearlier
    simp only [Function.comp_apply, hpu, Bool.not_true, Bool.false_eq_true] at hnot
  · cases heq
    exact UInt16.le_refl k
  · exact UInt16.le_of_lt ((List.pairwise_cons.mp hascending.2.1).1 (j, u) hlater)

/-- A search through the values finds the one with the lowest key among those that satisfy the
condition. -/
theorem find?_values_eq_some_iff {p : α → Bool} :
    m.values.find? p = some v ↔ ∃ k, m.IsFirst (fun u => p u = true) k v := by
  refine ⟨isFirst_of_find?_values, ?_⟩
  rintro ⟨k, hfirst⟩
  cases hfind : m.values.find? p with
  | none =>
    have hmem : v ∈ m.values := mem_values_iff.mpr ⟨k, hfirst.found⟩
    exact absurd hfirst.holds (List.find?_eq_none.mp hfind v hmem)
  | some u =>
    obtain ⟨k', hfirst'⟩ := isFirst_of_find?_values hfind
    rw [(hfirst'.unique hfirst).2]

end Lwm2mClient.IdMap
