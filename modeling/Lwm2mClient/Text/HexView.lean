/-!
A view of bytes in rows of sixteen: where the row begins, its bytes as hexadecimal digits, and a
glyph for each of them. The glyphs are those of the code page of old terminals: ASCII in the
middle, pictures in place of the controls, and accented letters, box drawing and mathematics
above. The first and the last byte have no glyph and show as points.
-/
namespace Lwm2mClient.Text.HexView

def width : Nat := 16

/-- Upper case digits of a number, padded with zeros. -/
def digits (places n : Nat) : List Char :=
  let ds := (Nat.toDigits 16 n).map Char.toUpper
  List.replicate (places - ds.length) '0' ++ ds

/-- The glyphs of the bytes from 1 to 31. -/
def controlGlyphs : List Char := "☺☻♥♦♣♠•◘○◙♂♀♪♫☼►◄↕‼¶§▬↨↑↓→←∟↔▲▼".toList

/-- The glyphs of the bytes from 127 to 254. -/
def highGlyphs : List Char :=
  "⌂ÇüéâäàåçêëèïîìÄÅÉæÆôöòûùÿÖÜø£Ø×ƒ".toList ++
  "áíóúñÑªº¿⌐¬½¼¡«»░▒▓│┤╡╢╖╕╣║╗╝╜╛┐".toList ++
  "└┴┬├─┼╞╟╚╔╩╦╠═╬╧╨╤╥╙╘╒╕╫╪┘┌█▄▌▐▀".toList ++
  "αßΓ∏∑σµτΦθΩδ∞Øε∩≡±≥≤⌠⌡÷≈▫¨·√ⁿ²■".toList

def glyph (b : UInt8) : Char :=
  let n := b.toNat
  if n = 0 then '.'
  else if n < 32 then controlGlyphs.getD (n - 1) '.'
  else if n < 127 then Char.ofNat n
  else highGlyphs.getD (n - 127) '.'

/-- A text filled up with blanks. -/
def fill (places : Nat) (cs : List Char) : List Char :=
  cs ++ List.replicate (places - cs.length) ' '

/-- One row that begins at an offset. -/
def row (offset : Nat) (bytes : List UInt8) : String :=
  let hex := [' '].intercalate (bytes.map fun b => digits 2 b.toNat)
  String.ofList (digits 8 offset ++ "  ".toList ++ fill (3 * width - 1) hex ++ "  | ".toList ++
    fill width (bytes.map glyph) ++ " |".toList)

/-- Rows of bytes, the first of which begins at an offset; `count` bounds their number. -/
def rowsFrom (offset : Nat) (bytes : List UInt8) : (count : Nat) → List String
  | 0 => []
  | count + 1 =>
    if bytes.isEmpty then []
    else row offset (bytes.take width) :: rowsFrom (offset + width) (bytes.drop width) count

def rows (bytes : List UInt8) : List String := rowsFrom 0 bytes bytes.length

end Lwm2mClient.Text.HexView
