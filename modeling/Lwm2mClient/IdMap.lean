/-!
Finite maps keyed by identifiers. A map lists its entries in strictly ascending order of keys, so
two maps with the same entries are equal.
-/
namespace Lwm2mClient

/-- The number of an object, an instance or a resource. -/
abbrev NumericId := UInt16

structure IdMap (α : Type) where
  entries : List (NumericId × α)
  ascending : entries.Pairwise fun a b => a.1 < b.1

namespace IdMap

variable {α : Type}

instance [DecidableEq α] : DecidableEq (IdMap α) := fun a b =>
  if h : a.entries = b.entries then isTrue (by cases a; cases b; cases h; rfl)
  else isFalse fun e => h (e ▸ rfl)

@[ext] theorem ext {a b : IdMap α} (h : a.entries = b.entries) : a = b := by
  cases a; cases b; cases h; rfl

def empty : IdMap α := ⟨[], .nil⟩

instance : Inhabited (IdMap α) := ⟨empty⟩

def keys (m : IdMap α) : List NumericId := m.entries.map (·.1)

def values (m : IdMap α) : List α := m.entries.map (·.2)

def isEmpty (m : IdMap α) : Bool := m.entries.isEmpty

/-- The entries with one put in its place, instead of an older one with the same key. -/
def insertEntry (k : NumericId) (v : α) : List (NumericId × α) → List (NumericId × α)
  | [] => [(k, v)]
  | e :: es =>
    if k < e.1 then (k, v) :: e :: es
    else if k = e.1 then (k, v) :: es
    else e :: insertEntry k v es

theorem mem_insertEntry {k : NumericId} {v : α} {x : NumericId × α} {es : List (NumericId × α)}
    (h : x ∈ insertEntry k v es) : x = (k, v) ∨ x ∈ es := by
  induction es with
  | nil => simpa [insertEntry] using h
  | cons e es ih =>
    simp only [insertEntry] at h
    split at h
    · simpa using h
    · split at h
      · rcases List.mem_cons.1 h with h | h
        · exact .inl h
        · exact .inr (List.mem_cons_of_mem _ h)
      · rcases List.mem_cons.1 h with h | h
        · exact .inr (h ▸ List.mem_cons_self)
        · exact (ih h).imp_right (List.mem_cons_of_mem _)

theorem ascending_insertEntry (k : NumericId) (v : α) {es : List (NumericId × α)}
    (h : es.Pairwise fun a b => a.1 < b.1) :
    (insertEntry k v es).Pairwise fun a b => a.1 < b.1 := by
  induction es with
  | nil => simp [insertEntry]
  | cons e es ih =>
    obtain ⟨he, hes⟩ := List.pairwise_cons.1 h
    simp only [insertEntry]
    split
    · rename_i hk
      refine List.pairwise_cons.2 ⟨fun x hx => ?_, h⟩
      rcases List.mem_cons.1 hx with rfl | hx
      · exact hk
      · exact UInt16.lt_trans hk (he x hx)
    · rename_i hk
      split
      · rename_i hke
        exact List.pairwise_cons.2 ⟨fun x hx => hke ▸ he x hx, hes⟩
      · rename_i hke
        refine List.pairwise_cons.2 ⟨fun x hx => ?_, ih hes⟩
        rcases mem_insertEntry hx with rfl | hx
        · exact UInt16.lt_of_le_of_ne (UInt16.not_lt.1 hk) (Ne.symm hke)
        · exact he x hx

def insert (m : IdMap α) (k : NumericId) (v : α) : IdMap α :=
  ⟨insertEntry k v m.entries, ascending_insertEntry k v m.ascending⟩

def erase (m : IdMap α) (k : NumericId) : IdMap α :=
  ⟨m.entries.filter fun e => e.1 ≠ k, m.ascending.filter _⟩

def get? (m : IdMap α) (k : NumericId) : Option α := m.entries.lookup k

def contains (m : IdMap α) (k : NumericId) : Bool := (m.get? k).isSome

@[simp] theorem get?_empty (k : NumericId) : (empty : IdMap α).get? k = none := rfl

theorem lookup_cons_entry (j : NumericId) (e : NumericId × α) (es : List (NumericId × α)) :
    (e :: es).lookup j = if j = e.1 then some e.2 else es.lookup j := by
  obtain ⟨k, v⟩ := e
  by_cases h : j = k
  · simp [h]
  · have hb : (j == k) = false := beq_eq_false_iff_ne.2 h
    rw [List.lookup_cons, hb, if_neg h]

theorem lookup_insertEntry (k j : NumericId) (v : α) (es : List (NumericId × α)) :
    (insertEntry k v es).lookup j = if j = k then some v else es.lookup j := by
  induction es with
  | nil => exact lookup_cons_entry j (k, v) []
  | cons e es ih =>
    simp only [insertEntry]
    split
    · exact lookup_cons_entry j (k, v) (e :: es)
    · split
      · rename_i hk
        simp only [lookup_cons_entry, ← hk]
        split <;> rfl
      · rename_i hk
        simp only [lookup_cons_entry, ih]
        by_cases he : j = e.1
        · have hj : e.1 ≠ k := Ne.symm hk
          simp [he, hj]
        · simp [he]

/-- A look-up sees what was inserted last. -/
@[simp] theorem get?_insert (m : IdMap α) (k j : NumericId) (v : α) :
    (m.insert k v).get? j = if j = k then some v else m.get? j :=
  lookup_insertEntry k j v m.entries

/-- Nothing is found under an erased key, and the same as before under every other one. -/
@[simp] theorem get?_erase (m : IdMap α) (k j : NumericId) :
    (m.erase k).get? j = if j = k then none else m.get? j := by
  simp only [get?, erase]
  induction m.entries with
  | nil => simp
  | cons e es ih =>
    by_cases he : e.1 = k
    · rw [List.filter_cons_of_neg (by simp [he]), ih, lookup_cons_entry]
      by_cases hj : j = k
      · simp [hj]
      · simp [hj, he]
    · rw [List.filter_cons_of_pos (by simp [he]), lookup_cons_entry, lookup_cons_entry, ih]
      by_cases hj : j = e.1
      · simp [hj, he]
      · simp [hj]

/-- The map of a list of entries, later ones replacing earlier ones. -/
def ofList (es : List (NumericId × α)) : IdMap α := es.foldl (fun m e => m.insert e.1 e.2) empty

end IdMap
end Lwm2mClient
