import Lwm2mClient.Text.Quoted

/-!
Bytes as hexadecimal digits, two for each byte. Digits are written in lower case and read in
either.
-/
namespace Lwm2mClient.Text.Hex

inductive Fault where
  /-- The text has an odd number of bytes. -/
  | oddLength
  /-- A byte that is no digit, with its position. -/
  | badDigit (byte : UInt8) (position : Nat)
  deriving DecidableEq

def Fault.message : Fault → String
  | oddLength => "Odd number of digits"
  | badDigit byte position =>
    "Invalid character " ++ Quoted.encodeChar (Char.ofNat byte.toNat) ++ " at position " ++
      toString position

/-- The value of a digit given as a byte of ASCII text. -/
def digit? (b : UInt8) : Option UInt8 :=
  if 48 ≤ b && b ≤ 57 then some (b - 48)
  else if 97 ≤ b && b ≤ 102 then some (b - 87)
  else if 65 ≤ b && b ≤ 70 then some (b - 55)
  else none

/-- Reads pairs of digits, the first of which stands at a position. -/
def pairs (position : Nat) : List UInt8 → Except Fault (List UInt8)
  | [] => .ok []
  | [_] => .error .oddLength
  | high :: low :: rest =>
    match digit? high, digit? low with
    | none, _ => .error (.badDigit high position)
    | _, none => .error (.badDigit low (position + 1))
    | some h, some l => (pairs (position + 2) rest).map fun bytes => (h * 16 + l) :: bytes

def decode (s : String) : Except Fault (List UInt8) :=
  let bytes := s.toUTF8.toList
  if bytes.length % 2 = 1 then .error .oddLength else pairs 0 bytes

/-- The digits of a byte. -/
def byteDigits (b : UInt8) : List Char :=
  [Nat.digitChar (b.toNat / 16), Nat.digitChar (b.toNat % 16)]

def encode (bytes : List UInt8) : String := String.ofList (bytes.flatMap byteDigits)

end Lwm2mClient.Text.Hex
