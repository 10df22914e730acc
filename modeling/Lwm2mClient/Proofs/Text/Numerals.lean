import Lwm2mClient.Text.Number
import Mathlib.Tactic.SplitIfs

/-!
Numerals, told without the way in which they are read: which rows of characters denote a
number, and which number that is.
-/
namespace Lwm2mClient.Text

/-- A row of decimal digits, one at least, and the number that it denotes. -/
structure IsRow (digits : List Char) (n : Nat) : Prop where
  nonempty : digits ≠ []
  isDigit : ∀ c ∈ digits, c.isDigit = true
  value : Nat.ofDigitChars 10 digits 0 = n

/-- A number as it may be written: a row of digits, or a plus sign and a row of digits. -/
def IsNumeral (cs : List Char) (n : Nat) : Prop :=
  IsRow cs n ∨ ∃ digits, cs = '+' :: digits ∧ IsRow digits n

variable {bound n : Nat} {c : Char} {cs digits : List Char}

/-- What a number is printed as is a row of digits that denotes it. -/
theorem isRow_toDigits (n : Nat) : IsRow (Nat.toDigits 10 n) n :=
  ⟨Nat.toDigits_ne_nil, fun _ hc => Nat.isDigit_of_mem_toDigits (by decide) (by decide) hc,
    Nat.ofDigitChars_ten_toDigits⟩

theorem digitValue?_ten (c : Char) :
    digitValue? 10 c = if c.isDigit then some (c.toNat - '0'.toNat) else none := by
  have hrange : c.isDigit = true ↔ '0' ≤ c ∧ c ≤ '9' := by
    simp only [Char.isDigit, Bool.and_eq_true, decide_eq_true_iff]
    rfl
  by_cases hdigit : c.isDigit = true
  · have hvalue : c.toNat - '0'.toNat < 10 := by
      have hlast : c.toNat ≤ '9'.toNat := (hrange.mp hdigit).2
      have hnine : '9'.toNat = 57 := rfl
      have hzero : '0'.toNat = 48 := rfl
      omega
    simp only [digitValue?, if_pos (hrange.mp hdigit), if_pos hdigit, if_pos hvalue]
  · -- A letter has a value of ten or more.
    simp only [digitValue?, if_neg (mt hrange.mpr hdigit), if_neg hdigit]
    refine if_neg (Nat.not_lt.mpr ?_)
    split_ifs <;> omega

theorem digits?_ten (cs : List Char) :
    digits? 10 cs =
      if cs.all Char.isDigit then some (cs.map fun c => c.toNat - '0'.toNat) else none := by
  induction cs with
  | nil => rfl
  | cons c cs ih =>
    have hcons : digits? 10 (c :: cs) =
        (digitValue? 10 c).bind fun d => (digits? 10 cs).bind fun ds => some (d :: ds) :=
      List.mapM_cons
    rw [hcons, ih, digitValue?_ten]
    simp only [List.all_cons]
    by_cases hc : c.isDigit = true <;> by_cases hcs :
      cs.all Char.isDigit = true <;> simp only [hc, hcs] <;> rfl

theorem numberOfDigits_ten (cs : List Char) (init : Nat) :
    (cs.map fun c => c.toNat - '0'.toNat).foldl (fun n d => n * 10 + d) init =
      Nat.ofDigitChars 10 cs init := by
  induction cs generalizing init with
  | nil => rfl
  | cons c cs ih => rw [List.map_cons, List.foldl_cons, ih, Nat.ofDigitChars_cons, Nat.mul_comm]

/-- What is read as a number without sign is a row of digits that denotes it. -/
theorem natural?_eq_some_iff : natural? bound cs = some n ↔ IsRow cs n ∧ n ≤ bound := by
  have hrow : IsRow cs n ↔
      cs.all Char.isDigit = true ∧ cs ≠ [] ∧ Nat.ofDigitChars 10 cs 0 = n := by
    rw [List.all_eq_true]
    exact ⟨fun h => ⟨h.isDigit, h.nonempty, h.value⟩, fun ⟨hdigits, hne, hvalue⟩ =>
      ⟨hne, hdigits, hvalue⟩⟩
  unfold natural?
  rw [digits?_ten, hrow]
  cases cs.all Char.isDigit with
  | false => simp
  | true =>
    simp only [if_true, bind, Option.bind_some, List.isEmpty_map, numberOfDigits,
      numberOfDigits_ten, true_and]
    cases cs with
    | nil => simp
    | cons c cs =>
      simp only [List.isEmpty_cons, Bool.false_eq_true, if_false, ne_eq, reduceCtorEq,
        not_false_eq_true, true_and]
      split_ifs with hbound
      · rw [Option.some_inj]
        constructor
        · rintro rfl
          exact ⟨rfl, hbound⟩
        · exact And.left
      · constructor
        · intro h
          cases h
        · rintro ⟨rfl, h⟩
          exact absurd h hbound

/-- What is read as a number is a numeral that denotes it. -/
theorem unsigned?_eq_some_iff : unsigned? bound cs = some n ↔ IsNumeral cs n ∧ n ≤ bound := by
  have hsign : ∀ digits, ¬IsRow ('+' :: digits) n := fun digits h => by
    have hplus := h.isDigit '+' List.mem_cons_self
    revert hplus
    decide
  unfold unsigned?
  split
  · rename_i digits
    rw [natural?_eq_some_iff, IsNumeral, or_iff_right (hsign digits)]
    simp
  · rename_i hunsigned
    rw [natural?_eq_some_iff, IsNumeral, or_iff_left]
    rintro ⟨digits, rfl, -⟩
    exact hunsigned digits rfl

end Lwm2mClient.Text
