import RefSweep.Text.Digits
import RefSweep.Text.Utf8

/-!
# Percent signs

In an address a percent sign and two hexadecimal digits stand for a byte, and the bytes spell UTF-8.
Bytes that spell no character are shown as one replacement character for each longest piece that
could have begun one. A percent sign without two digits stands for itself. Each stretch of ASCII is
read by itself, and what lies between two of them stays as it is.
-/

namespace RefSweep

namespace Utf8

def replacement : Glyph := .char '\ufffd'

/-- The range of the second byte of a sequence with this first byte. -/
def secondBytes (b : UInt8) : UInt8 × UInt8 :=
  if b = 0xE0 then (0xA0, 0xBF) else if b = 0xED then (0x80, 0x9F)
  else if b = 0xF0 then (0x90, 0xBF) else if b = 0xF4 then (0x80, 0x8F) else (0x80, 0xBF)

/-- The byte begins a character. -/
def begins (b : UInt8) : Bool := b < 0x80 || (0xC2 ≤ b && b ≤ 0xF4)

/-- How many bytes of the rest go with a first byte in a sequence that is broken off. -/
def broken (b : UInt8) (rest : Bytes) : Nat :=
  match rest with
  | second :: more =>
    let (low, high) := secondBytes b
    if begins b && low ≤ second && second ≤ high && 2 ≤ width b then
      1 + ((more.take (width b - 3)).takeWhile fun c => 0x80 ≤ c && c ≤ 0xBF).length
    else 0
  | [] => 0

/-- The text that the bytes spell, with replacement characters for what spells nothing. -/
def decodeReplacing : Bytes → Text
  | [] => []
  | b :: rest =>
    match leading (b :: rest) with
    | some c => .char c :: decodeReplacing (rest.drop ((encodeChar c).length - 1))
    | none => replacement :: decodeReplacing (rest.drop (broken b rest))
termination_by bs => bs.length

end Utf8

namespace Glyph

def isAscii (g : Glyph) : Bool := g.code < 0x80

end Glyph

namespace Text

/-- The bytes of a text in which percent signs stand for bytes. -/
def percentBytes : Text → Bytes
  | .char '%' :: a :: b :: rest =>
    match a.hexDigit?, b.hexDigit? with
    | some high, some low => UInt8.ofNat (16 * high + low) :: percentBytes rest
    | _, _ => Utf8.encodeGlyph '%' ++ percentBytes (a :: b :: rest)
  | g :: rest => Utf8.encodeGlyph g ++ percentBytes rest
  | [] => []

/-- The text that is meant by one with percent signs. -/
def percentDecoded : Text → Text
  | [] => []
  | g :: t =>
    if g.isAscii then
      Utf8.decodeReplacing (percentBytes (g :: t.takeWhile Glyph.isAscii)) ++
        percentDecoded (t.dropWhile Glyph.isAscii)
    else g :: percentDecoded t
termination_by t => t.length
decreasing_by
  · have := (List.dropWhile_sublist (l := t) Glyph.isAscii).length_le
    simp only [List.length_cons]
    omega
  · simp

end Text

end RefSweep
