import RefSweep.Text.Space

/-!
# Integers in text

Reading an integer as people write it: white space around it, a sign, digits of any script, single
underscores between digits.
-/

namespace RefSweep

namespace Glyph

/-- The code points of the digit zero in every script that has decimal digits; the other nine
follow it. -/
def zeroDigits : List Nat :=
  [0x30, 0x660, 0x6F0, 0x7C0, 0x966, 0x9E6, 0xA66, 0xAE6, 0xB66, 0xBE6, 0xC66, 0xCE6, 0xD66, 0xDE6,
    0xE50, 0xED0, 0xF20, 0x1040, 0x1090, 0x17E0, 0x1810, 0x1946, 0x19D0, 0x1A80, 0x1A90, 0x1B50,
    0x1BB0, 0x1C40, 0x1C50, 0xA620, 0xA8D0, 0xA900, 0xA9D0, 0xA9F0, 0xAA50, 0xABF0, 0xFF10, 0x104A0,
    0x10D30, 0x11066, 0x110F0, 0x11136, 0x111D0, 0x112F0, 0x11450, 0x114D0, 0x11650, 0x116C0,
    0x11730, 0x118E0, 0x11950, 0x11C50, 0x11D50, 0x11DA0, 0x16A60, 0x16AC0, 0x16B50, 0x1D7CE,
    0x1D7D8, 0x1D7E2, 0x1D7EC, 0x1D7F6, 0x1E140, 0x1E2F0, 0x1E950, 0x1FBF0]

/-- The value of a decimal digit of any script. -/
def digit? (g : Glyph) : Option Nat :=
  (zeroDigits.find? fun first => first ≤ g.code && g.code < first + 10).map (g.code - ·)

/-- The value of an ASCII digit. -/
def asciiDigit? (g : Glyph) : Option Nat :=
  if 0x30 ≤ g.code ∧ g.code ≤ 0x39 then some (g.code - 0x30) else none

/-- The value of a hexadecimal digit in either case. -/
def hexDigit? (g : Glyph) : Option Nat :=
  if g.code < 0x41 then g.asciiDigit?
  else if g.within [(0x41, 0x46)] then some (g.code - 0x37)
  else if g.within [(0x61, 0x66)] then some (g.code - 0x57)
  else none

end Glyph

namespace Text

/-- Reads on from a digit: more digits, each with at most one underscore before it. -/
def moreDigits? (digit? : Glyph → Option Nat) (n : Nat) : Text → Option Nat
  | [] => some n
  | [g] => (digit? g).map (10 * n + ·)
  | g :: h :: t =>
    match digit? g with
    | some d => moreDigits? digit? (10 * n + d) (h :: t)
    | none =>
      if g = '_' then
        match digit? h with
        | some d => moreDigits? digit? (10 * n + d) t
        | none => none
      else none

/-- A number of at least one digit, with single underscores allowed between digits. -/
def nat? (digit? : Glyph → Option Nat) : Text → Option Nat
  | [] => none
  | g :: t =>
    match digit? g with
    | some d => moreDigits? digit? d t
    | none => none

/-- An integer with an optional sign. -/
def signed? (digit? : Glyph → Option Nat) : Text → Option Int
  | .char '-' :: t => (nat? digit? t).map fun n => -(n : Int)
  | .char '+' :: t => (nat? digit? t).map Int.ofNat
  | t => (nat? digit? t).map Int.ofNat

/-- The most digits that an integer may have. -/
def digitLimit : Nat := 4300

/-- An integer in digits of any script, with white space around it. Zeros in front count as
digits. -/
def int? (t : Text) : Option Int :=
  if digitLimit < t.countP (fun g => g.digit?.isSome) then none else signed? Glyph.digit? t.strip

end Text

end RefSweep
