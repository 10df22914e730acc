import Lwm2mClient.Duration

/-!
Arithmetic of durations: which of two is the later one, and how long a sum is that
stops at the longest duration.
-/
namespace Lwm2mClient.Duration

theorem le_refl (a : Duration) : a ≤ a := Nat.le_refl _

theorem le_trans {a b c : Duration} (hab : a ≤ b) (hbc : b ≤ c) : a ≤ c := Nat.le_trans hab hbc

theorem not_lt {a b : Duration} : ¬ a < b ↔ b ≤ a := Nat.not_lt

theorem nanos_later (a b : Duration) : (a.later b).nanos = Nat.max a.nanos b.nanos := by
  unfold later
  split
  · rename_i hlt
    exact (Nat.max_eq_right (Nat.le_of_lt hlt)).symm
  · rename_i hlt
    exact (Nat.max_eq_left (Nat.le_of_not_lt hlt)).symm

theorem later_of_le {a b : Duration} (h : a ≤ b) : a.later b = b :=
  Duration.ext ((nanos_later a b).trans (Nat.max_eq_right h))

theorem le_later_left (a b : Duration) : a ≤ a.later b := by
  rw [le_def, nanos_later]
  exact Nat.le_max_left _ _

theorem le_later_right (a b : Duration) : b ≤ a.later b := by
  rw [le_def, nanos_later]
  exact Nat.le_max_right _ _

theorem later_le {a b c : Duration} (ha : a ≤ c) (hb : b ≤ c) : a.later b ≤ c := by
  rw [le_def, nanos_later]
  exact Nat.max_le.mpr ⟨ha, hb⟩

theorem later_later {a b c : Duration} (h : b ≤ c) : (a.later b).later c = a.later c := by
  refine Duration.ext ?_
  rw [nanos_later, nanos_later, nanos_later]
  exact (Nat.max_assoc _ _ _).trans (congrArg (Nat.max a.nanos) (Nat.max_eq_right h))

theorem le_saturatingAdd (a b : Duration) : a ≤ a.saturatingAdd b :=
  Nat.le_min.mpr ⟨Nat.le_add_right _ _, a.nanos_le⟩

theorem nanos_saturatingAdd_of_le {a b : Duration} (h : a.nanos + b.nanos ≤ maxNanos) :
    (a.saturatingAdd b).nanos = a.nanos + b.nanos :=
  Nat.min_eq_left h

theorem saturatingAdd_zero (a : Duration) : a.saturatingAdd .zero = a :=
  Duration.ext (Nat.min_eq_left a.nanos_le)

theorem add?_eq_some_iff {a b c : Duration} :
    a.add? b = some c ↔ a.nanos + b.nanos = c.nanos := by
  unfold add?
  split
  · rw [Option.some_inj]
    exact ⟨fun h => congrArg nanos h, fun h => Duration.ext h⟩
  · rename_i hlong
    refine iff_of_false nofun fun h => hlong ?_
    rw [h]
    exact c.nanos_le

theorem nanos_of_add? {a b c : Duration} (h : a.add? b = some c) : c.nanos = a.nanos + b.nanos :=
  (add?_eq_some_iff.mp h).symm

theorem le_of_add? {a b c : Duration} (h : a.add? b = some c) : a ≤ c := by
  rw [le_def, nanos_of_add? h]
  exact Nat.le_add_right _ _

theorem saturatingAdd_of_add? {a b c : Duration} (h : a.add? b = some c) :
    a.saturatingAdd b = c := by
  refine Duration.ext ?_
  rw [nanos_of_add? h]
  refine Nat.min_eq_left ?_
  rw [← nanos_of_add? h]
  exact c.nanos_le

end Lwm2mClient.Duration
