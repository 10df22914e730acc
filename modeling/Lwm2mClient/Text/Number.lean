/-!
Reading numbers. An unsigned number is an optional plus sign and one or more ASCII digits whose
value does not exceed a bound; leading zeros are allowed.
-/
namespace Lwm2mClient.Text

/-- The value of a digit in a base up to 36, in either case. -/
def digitValue? (base : Nat) (c : Char) : Option Nat :=
  let v :=
    if '0' ≤ c ∧ c ≤ '9' then c.toNat - '0'.toNat
    else if 'a' ≤ c ∧ c ≤ 'z' then c.toNat - 'a'.toNat + 10
    else if 'A' ≤ c ∧ c ≤ 'Z' then c.toNat - 'A'.toNat + 10
    else base
  if v < base then some v else none

/-- The number that a row of digits denotes, most significant digit first. -/
def numberOfDigits (base : Nat) (digits : List Nat) : Nat :=
  digits.foldl (fun n d => n * base + d) 0

/-- The digits of a text that holds nothing else. -/
def digits? (base : Nat) (cs : List Char) : Option (List Nat) :=
  cs.mapM (digitValue? base)

/-- A decimal number without sign, at most `bound`. -/
def natural? (bound : Nat) (cs : List Char) : Option Nat := do
  let digits ← digits? 10 cs
  if digits.isEmpty then none
  else
    let n := numberOfDigits 10 digits
    if n ≤ bound then some n else none

/-- A decimal number at most `bound`, with an optional plus sign. -/
def unsigned? (bound : Nat) : List Char → Option Nat
  | '+' :: cs => natural? bound cs
  | cs => natural? bound cs

end Lwm2mClient.Text
