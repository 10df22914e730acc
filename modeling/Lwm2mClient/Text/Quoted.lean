import Lwm2mClient.Text.Unprintable
import Lwm2mClient.Text.GraphemeExtend

/-!
Quoted text. A string is written between double quotes; quotes, backslashes and the common
controls get a short escape, and whatever could not be seen on its own is written as its code
point.
-/
namespace Lwm2mClient.Text.Quoted

/-- The code point of a character in braces. -/
def codePoint (c : Char) : List Char :=
  "\\u\x7b".toList ++ Nat.toDigits 16 c.toNat ++ ['\x7d']

/-- A character that is written as its code point. -/
def isHidden (c : Char) : Bool :=
  if ' ' ≤ c && c ≤ '~' then false else Unprintable.holds c || GraphemeExtend.holds c

/-- The written form of a character between two quotes of a kind. -/
def escape (quote c : Char) : List Char :=
  match c with
  | '\x00' => ['\\', '0']
  | '\t' => ['\\', 't']
  | '\r' => ['\\', 'r']
  | '\n' => ['\\', 'n']
  | '\\' => ['\\', '\\']
  | c => if c = quote then ['\\', c] else if isHidden c then codePoint c else [c]

def encode (s : String) : String :=
  "\"" ++ String.ofList (s.toList.flatMap (escape '"')) ++ "\""

/-- A single character between single quotes. -/
def encodeChar (c : Char) : String := "'" ++ String.ofList (escape '\'' c) ++ "'"

/-- A list of quoted strings in square brackets. -/
def encodeList (ss : List String) : String := "[" ++ ", ".intercalate (ss.map encode) ++ "]"

end Lwm2mClient.Text.Quoted
