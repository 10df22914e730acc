/-!
Spans of time, exact to the nanosecond and bounded by what 64 bits of seconds can hold. Addition
is partial or saturating, subtraction stops at zero or is partial, and the text uses the largest
unit that leaves a whole part.
-/
namespace Lwm2mClient

/-- One nanosecond less than 2^64 seconds. -/
def Duration.maxNanos : Nat := UInt64.size * 1000000000 - 1

structure Duration where
  nanos : Nat
  nanos_le : nanos ≤ Duration.maxNanos
  deriving DecidableEq

namespace Duration

@[ext] theorem ext {a b : Duration} (h : a.nanos = b.nanos) : a = b := by
  cases a; cases b; cases h; rfl

def zero : Duration := ⟨0, by decide⟩

/-- The longest duration, later than which nothing can be due. -/
def max : Duration := ⟨maxNanos, Nat.le_refl _⟩

instance : Inhabited Duration := ⟨zero⟩

instance : LE Duration := ⟨fun a b => a.nanos ≤ b.nanos⟩
instance : LT Duration := ⟨fun a b => a.nanos < b.nanos⟩
instance (a b : Duration) : Decidable (a ≤ b) := inferInstanceAs (Decidable (a.nanos ≤ b.nanos))
instance (a b : Duration) : Decidable (a < b) := inferInstanceAs (Decidable (a.nanos < b.nanos))

theorem le_def {a b : Duration} : a ≤ b ↔ a.nanos ≤ b.nanos := Iff.rfl
theorem lt_def {a b : Duration} : a < b ↔ a.nanos < b.nanos := Iff.rfl

theorem le_max (a : Duration) : a ≤ max := a.nanos_le

/-- The nearest duration to a number of nanoseconds: itself, or the longest one. -/
def ofNanos (n : Nat) : Duration := ⟨min n maxNanos, Nat.min_le_right _ _⟩

def ofSeconds (s : UInt64) : Duration :=
  ⟨s.toNat * 1000000000, by
    have h := s.toNat_lt
    simp only [maxNanos, UInt64.size]
    omega⟩

/-- The larger of two durations. -/
def later (a b : Duration) : Duration := if a < b then b else a

/-- The sum, if it can be represented. -/
def add? (a b : Duration) : Option Duration :=
  if h : a.nanos + b.nanos ≤ maxNanos then some ⟨a.nanos + b.nanos, h⟩ else none

/-- The sum, or the longest duration in its place. -/
def saturatingAdd (a b : Duration) : Duration := ofNanos (a.nanos + b.nanos)

/-- What is left of `a` once `b` has passed, nothing if `b` is longer. -/
def remaining (a b : Duration) : Duration :=
  ⟨a.nanos - b.nanos, Nat.le_trans (Nat.sub_le _ _) a.nanos_le⟩

/-- Whole seconds. -/
def seconds (a : Duration) : Nat := a.nanos / 1000000000

/-- Nanoseconds beyond the whole seconds. -/
def subsecond (a : Duration) : Nat := a.nanos % 1000000000

/-- The digits of a fraction of `width` decimal places, without the zeros it ends in. -/
def fractionDigits (fraction width : Nat) : List Char :=
  let digits := Nat.toDigits 10 fraction
  let padded := List.replicate (width - digits.length) '0' ++ digits
  (padded.reverse.dropWhile (· == '0')).reverse

/-- A whole part, the fraction of `width` places behind a point if it is not zero, and a unit. -/
def decimalText (whole fraction width : Nat) (unit : String) : String :=
  if fraction = 0 then toString whole ++ unit
  else toString whole ++ "." ++ String.ofList (fractionDigits fraction width) ++ unit

/-- The text of a duration, in seconds, milliseconds, microseconds or nanoseconds, whichever is
the largest unit that leaves a whole part. -/
def text (a : Duration) : String :=
  if 0 < a.seconds then decimalText a.seconds a.subsecond 9 "s"
  else if 1000000 ≤ a.nanos then decimalText (a.nanos / 1000000) (a.nanos % 1000000) 6 "ms"
  else if 1000 ≤ a.nanos then decimalText (a.nanos / 1000) (a.nanos % 1000) 3 "µs"
  else decimalText a.nanos 0 0 "ns"

end Duration
end Lwm2mClient
