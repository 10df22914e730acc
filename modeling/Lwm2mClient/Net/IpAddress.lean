import Lwm2mClient.Text.Number

/-!
Internet addresses and their text. Version 4 is read as four strict decimal octets, version 6 as
groups of up to four hexadecimal digits with one optional `::` and an optional version 4 tail. The
text of a version 6 address is its canonical one: lower case, the first longest run of at least
two zero groups shortened, and the version 4 tail shown for mapped addresses only.
-/
namespace Lwm2mClient.Net

open Lwm2mClient.Text

inductive IpAddress where
  | v4 (octets : Vector UInt8 4)
  | v6 (groups : Vector UInt16 8)
  deriving DecidableEq

namespace IpAddress

/-- Reads the longest row of digits: at most `places` of them if that is given, no larger than
`bound`, and with a leading zero only where it is allowed or stands alone. -/
def readNumber (base : Nat) (places : Option Nat) (leadingZero : Bool) (bound : Nat)
    (cs : List Char) : Option (Nat × List Char) :=
  let row := cs.takeWhile fun c => (digitValue? base c).isSome
  let n := numberOfDigits base (row.filterMap (digitValue? base))
  let tooLong := places.any (· < row.length)
  let badZero := !leadingZero && row.head? == some '0' && 1 < row.length
  if row.isEmpty || tooLong || badZero || bound < n then none
  else some (n, cs.drop row.length)

/-- Drops a character that has to come next. -/
def skip (c : Char) : List Char → Option (List Char)
  | d :: cs => if c = d then some cs else none
  | [] => none

def readOctet (cs : List Char) : Option (UInt8 × List Char) :=
  (readNumber 10 (some 3) false 255 cs).map fun (n, rest) => (UInt8.ofNat n, rest)

def readV4 (cs : List Char) : Option (Vector UInt8 4 × List Char) := do
  let (a, cs) ← readOctet cs
  let (b, cs) ← readOctet (← skip '.' cs)
  let (c, cs) ← readOctet (← skip '.' cs)
  let (d, cs) ← readOctet (← skip '.' cs)
  return (#v[a, b, c, d], cs)

/-- The group of two octets. -/
def groupOfOctets (high low : UInt8) : UInt16 := high.toUInt16 * 256 + low.toUInt16

/-- The two groups that hold a version 4 address. -/
def groupsOfOctets (o : Vector UInt8 4) : List UInt16 :=
  [groupOfOctets o[0] o[1], groupOfOctets o[2] o[3]]

def readGroup (cs : List Char) : Option (UInt16 × List Char) :=
  (readNumber 16 (some 4) true 65535 cs).map fun (n, rest) => (UInt16.ofNat n, rest)

/-- What is read at one place of a row of groups. -/
inductive Piece where
  | tail (octets : Vector UInt8 4)
  | group (g : UInt16)

/-- Reads a version 4 tail where two groups fit, else one group. -/
def readPiece (room : Nat) (cs : List Char) : Option (Piece × List Char) :=
  match (if 2 ≤ room then readV4 cs else none) with
  | some (o, rest) => some (.tail o, rest)
  | none => (readGroup cs).map fun (g, rest) => (.group g, rest)

/-- Reads at most `room` groups with colons between them; tells whether they end in a version 4
tail. `first` says that no group stands before them. -/
def readGroups (room : Nat) (first : Bool) (cs : List Char) : List UInt16 × Bool × List Char :=
  match room with
  | 0 => ([], false, cs)
  | room + 1 =>
    match (if first then some cs else skip ':' cs).bind (readPiece (room + 1)) with
    | some (.tail o, rest) => (groupsOfOctets o, true, rest)
    | some (.group g, rest) =>
      let (more, tail, rest) := readGroups room false rest
      (g :: more, tail, rest)
    | none => ([], false, cs)

/-- Eight groups from a row, padded with zeros. -/
def groupsOfList (gs : List UInt16) : Vector UInt16 8 :=
  Vector.ofFn fun i => gs.getD i 0

def readV6 (cs : List Char) : Option (Vector UInt16 8 × List Char) := do
  let (front, tail, rest) := readGroups 8 true cs
  if front.length = 8 then return (groupsOfList front, rest)
  if tail then none
  let rest ← skip ':' (← skip ':' rest)
  let (back, _, rest) := readGroups (7 - front.length) true rest
  let zeros := List.replicate (8 - front.length - back.length) 0
  return (groupsOfList (front ++ zeros ++ back), rest)

/-- The value of a reader that consumes a whole text. -/
def whole {α : Type} : Option (α × List Char) → Option α
  | some (a, []) => some a
  | _ => none

/-- The address that a host name denotes by itself, without any table. -/
def ofLiteral? (host : String) : Option IpAddress :=
  match whole (readV4 host.toList) with
  | some o => some (.v4 o)
  | none => (whole (readV6 host.toList)).map .v6

def v4Text (o : Vector UInt8 4) : String :=
  ".".intercalate (o.toList.map fun n => toString n.toNat)

def groupText (g : UInt16) : String := String.ofList (Nat.toDigits 16 g.toNat)

def groupsText (gs : List UInt16) : String := ":".intercalate (gs.map groupText)

/-- How many zero groups a row starts with. -/
def zeroRun (gs : List UInt16) : Nat := (gs.takeWhile (· == 0)).length

/-- Start and length of the first longest run of zero groups. -/
def longestZeroRun (gs : List UInt16) : Nat × Nat :=
  (List.range gs.length).foldl
    (fun best i => if best.2 < zeroRun (gs.drop i) then (i, zeroRun (gs.drop i)) else best) (0, 0)

/-- The version 4 address that a version 6 address maps. -/
def mapped? (gs : List UInt16) : Option (UInt16 × UInt16) :=
  match gs with
  | [0, 0, 0, 0, 0, 0xffff, a, b] => some (a, b)
  | _ => none

def v6Text (groups : Vector UInt16 8) : String :=
  let gs := groups.toList
  match mapped? gs with
  | some (a, b) =>
    "::ffff:" ++ v4Text #v[(a / 256).toUInt8, a.toUInt8, (b / 256).toUInt8, b.toUInt8]
  | none =>
    let (start, length) := longestZeroRun gs
    if 1 < length then
      groupsText (gs.take start) ++ "::" ++ groupsText (gs.drop (start + length))
    else groupsText gs

def text : IpAddress → String
  | v4 o => v4Text o
  | v6 g => v6Text g

end IpAddress
end Lwm2mClient.Net
