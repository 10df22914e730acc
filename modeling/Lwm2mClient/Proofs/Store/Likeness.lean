import Lwm2mClient.Proofs.Store.Maps
import Lwm2mClient.Store.Object

/-!
Instances as far as they count. What an instance says is told by the values of some of its
resources, and of the instances of an object only some may count. Whatever is made of each
instance that counts, from the values of these resources alone, is the same for two
objects in which the same counts.
-/
namespace Lwm2mClient

variable {α : Type}

/-! ### Typed values -/

namespace ObjectInstance

variable {i : ObjectInstance} {resource : NumericId}

theorem boolean_eq_some_iff {value : Bool} :
    i.boolean resource = some value ↔ i.resources.get? resource = some (.boolean value) := by
  unfold boolean
  rcases i.resources.get? resource with _ | _ | _ | _ | _ <;> simp

theorem integer_eq_some_iff {value : Int64} :
    i.integer resource = some value ↔ i.resources.get? resource = some (.integer value) := by
  unfold integer
  rcases i.resources.get? resource with _ | _ | _ | _ | _ <;> simp

theorem string_eq_some_iff {value : String} :
    i.string resource = some value ↔ i.resources.get? resource = some (.string value) := by
  unfold string
  rcases i.resources.get? resource with _ | _ | _ | _ | _ <;> simp

theorem bytes_eq_some_iff {value : Bytes} :
    i.bytes resource = some value ↔ i.resources.get? resource = some (.opaqueBytes value) := by
  unfold bytes
  rcases i.resources.get? resource with _ | _ | _ | _ | _ <;> simp

/-- The same is found in two instances under some numbers. -/
def AgreesOn (resources : List NumericId) (i j : ObjectInstance) : Prop :=
  ∀ resource ∈ resources, i.resources.get? resource = j.resources.get? resource

variable {resources : List NumericId} {j : ObjectInstance}

theorem AgreesOn.boolean (h : i.AgreesOn resources j) (hmem : resource ∈ resources) :
    i.boolean resource = j.boolean resource := by
  rw [ObjectInstance.boolean, ObjectInstance.boolean, h resource hmem]

theorem AgreesOn.integer (h : i.AgreesOn resources j) (hmem : resource ∈ resources) :
    i.integer resource = j.integer resource := by
  rw [ObjectInstance.integer, ObjectInstance.integer, h resource hmem]

theorem AgreesOn.string (h : i.AgreesOn resources j) (hmem : resource ∈ resources) :
    i.string resource = j.string resource := by
  rw [ObjectInstance.string, ObjectInstance.string, h resource hmem]

end ObjectInstance

/-! ### Instances that count -/

namespace IdMap

variable {counts : ObjectInstance → Prop} {resources : List NumericId}
    {m m' : IdMap ObjectInstance}

/-- Every instance that counts in one map is in another one under the same number, and some
resources hold the same in both. -/
def IsRetoldIn (counts : ObjectInstance → Prop) (resources : List NumericId)
    (m m' : IdMap ObjectInstance) : Prop :=
  ∀ k i, m.get? k = some i → counts i → ∃ j, m'.get? k = some j ∧ i.AgreesOn resources j

/-- The same counts in two maps: whatever else there is in one of them may be missing
from the other or differ. -/
structure CountsAs (counts : ObjectInstance → Prop) (resources : List NumericId)
    (m m' : IdMap ObjectInstance) : Prop where
  here : m.IsRetoldIn counts resources m'
  there : m'.IsRetoldIn counts resources m

/-- Of two maps in which the same counts, the same is made by whoever goes by what counts. -/
theorem CountsAs.filterMapValues (h : m.CountsAs counts resources m')
    {f : ObjectInstance → Option α} (hcounts : ∀ i, ¬counts i → f i = none)
    (hf : ∀ i j, i.AgreesOn resources j → f i = f j) :
    m.filterMapValues f = m'.filterMapValues f := by
  have hretold : ∀ {m m' : IdMap ObjectInstance}, m.IsRetoldIn counts resources m' →
      ∀ k a, (m.get? k).bind f = some a → (m'.get? k).bind f = some a := by
    intro m m' h k a ha
    obtain ⟨i, hi, hfi⟩ := Option.bind_eq_some_iff.mp ha
    have hi' : counts i := Classical.byContradiction fun hnot => by
      rw [hcounts i hnot] at hfi
      cases hfi
    obtain ⟨j, hj, hagrees⟩ := h k i hi hi'
    rw [hj, Option.bind_some, ← hf i j hagrees, hfi]
  refine ext_get? fun k => Option.ext fun a => ?_
  rw [get?_filterMapValues, get?_filterMapValues]
  exact ⟨hretold h.here k a, hretold h.there k a⟩

theorem CountsAs.filterMap_values (h : m.CountsAs counts resources m')
    {f : ObjectInstance → Option α} (hcounts : ∀ i, ¬counts i → f i = none)
    (hf : ∀ i j, i.AgreesOn resources j → f i = f j) :
    m.values.filterMap f = m'.values.filterMap f := by
  rw [← values_filterMapValues, ← values_filterMapValues, h.filterMapValues hcounts hf]

theorem CountsAs.refl (m : IdMap ObjectInstance) : m.CountsAs counts resources m :=
  ⟨fun _ i hi _ => ⟨i, hi, fun _ _ => rfl⟩, fun _ i hi _ => ⟨i, hi, fun _ _ => rfl⟩⟩

theorem CountsAs.symm (h : m.CountsAs counts resources m') : m'.CountsAs counts resources m :=
  ⟨h.there, h.here⟩

/-- Where an instance that does not count is taken out, the same counts as before. -/
theorem countsAs_erase {k : NumericId} (h : ∀ i, m.get? k = some i → ¬counts i) :
    m.CountsAs counts resources (m.erase k) := by
  refine ⟨fun j i hi hcounts => ⟨i, ?_, fun _ _ => rfl⟩, fun j i hi _ => ⟨i, ?_, fun _ _ => rfl⟩⟩
  · rw [get?_erase, if_neg]
    · exact hi
    · rintro rfl
      exact h i hi hcounts
  · rw [get?_erase] at hi
    split at hi
    · cases hi
    · exact hi

/-- The first instance of a kind that counts is the same in both maps, as far as it counts. -/
theorem IsFirst.of_countsAs {p : ObjectInstance → Prop} {k : NumericId} {i : ObjectInstance}
    (h : m.IsFirst p k i) (hcounts : m.CountsAs counts resources m') (hp : ∀ i, p i → counts i)
    (hagrees : ∀ i j, i.AgreesOn resources j → p i → p j) :
    ∃ j, m'.IsFirst p k j ∧ i.AgreesOn resources j := by
  obtain ⟨j, hj, hij⟩ := hcounts.here k i h.found (hp i h.holds)
  refine ⟨j, ⟨hj, hagrees i j hij h.holds, fun k' u hu hpu => ?_⟩, hij⟩
  obtain ⟨v, hv, huv⟩ := hcounts.there k' u hu (hp u hpu)
  exact h.lowest k' v hv (hagrees u v huv hpu)

/-- What is said of the first instance of a kind that counts is said of it in both maps,
if it goes by what counts. -/
theorem CountsAs.exists_isFirst_iff {p q : ObjectInstance → Prop}
    (h : m.CountsAs counts resources m') (hp : ∀ i, p i → counts i)
    (hagrees : ∀ i j, i.AgreesOn resources j → p i → p j)
    (hq : ∀ i j, i.AgreesOn resources j → q i → q j) :
    (∃ k i, m.IsFirst p k i ∧ q i) ↔ ∃ k i, m'.IsFirst p k i ∧ q i := by
  have hkept : ∀ {m m' : IdMap ObjectInstance}, m.CountsAs counts resources m' →
      (∃ k i, m.IsFirst p k i ∧ q i) → ∃ k i, m'.IsFirst p k i ∧ q i := by
    rintro m m' h ⟨k, i, hfirst, hi⟩
    obtain ⟨j, hfirst', hij⟩ := hfirst.of_countsAs h hp hagrees
    exact ⟨k, j, hfirst', hq i j hij hi⟩
  exact ⟨hkept h, hkept h.symm⟩

end IdMap
end Lwm2mClient
