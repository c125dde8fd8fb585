import RefSweep.Text.Digits
import RefSweep.Number.Quantity

/-!
# Decimal numerals

Reading a number with a fraction and an exponent, as settings spell it: `1.5`, `.5e-3`, `inf`. What
a numeral denotes is the quantity that stores it.
-/

namespace RefSweep

namespace Decimal

/-- The digits at the start of a text, and what follows them. -/
def leadingDigits (t : Text) : List Nat × Text :=
  ((t.takeWhile (·.asciiDigit?.isSome)).filterMap Glyph.asciiDigit?,
    t.dropWhile (·.asciiDigit?.isSome))

/-- The number of some decimal digits. -/
def ofDigits (digits : List Nat) : Nat := digits.foldl (10 * · + ·) 0

/-- An exponent: digits with an optional sign. -/
def exponent? : Text → Option Int
  | .char '-' :: t => natural t |>.map fun n => -(n : Int)
  | .char '+' :: t => natural t |>.map Int.ofNat
  | t => natural t |>.map Int.ofNat
where
  natural (t : Text) : Option Nat :=
    match leadingDigits t with
    | ([], _) => none
    | (digits, []) => some (ofDigits digits)
    | _ => none

/-- The quantity `digits · 10 ^ e`. An exponent out of reach gives zero or infinity at once. -/
def scaled (digits : List Nat) (e : Int) : Quantity :=
  let n := ofDigits digits
  if n = 0 then .zero
  else if 400 < e then .infinite
  else if (digits.length : Int) + e < -400 then .zero
  else .ofRat (if 0 ≤ e then (n * Nat.pow 10 e.toNat : Nat) else mkRat n (Nat.pow 10 (-e).toNat))

/-- A numeral without a sign: at least one digit, a point anywhere among the digits, an exponent. -/
def unsigned? (t : Text) : Option Quantity :=
  let (whole, rest) := leadingDigits t
  let (fraction, rest) := match rest with
    | .char '.' :: t => leadingDigits t
    | _ => ([], rest)
  if whole = [] ∧ fraction = [] then none
  else
    let digits := whole ++ fraction
    match rest with
    | [] => some (scaled digits (-(fraction.length : Int)))
    | g :: t =>
      if g = 'e' || g = 'E' then (exponent? t).map fun e => scaled digits (e - fraction.length)
      else none

/-- A numeral without a sign, or the word for infinity or for no number, in any letter case. -/
def magnitude? (t : Text) : Option Quantity :=
  let word := t.map Glyph.lowerAscii
  if word = Text.of "inf" || word = Text.of "infinity" then some .infinite
  else if word = Text.of "nan" then some .undefined
  else unsigned? t

/-- A numeral with an optional sign. -/
def read? : Text → Option Quantity
  | .char '-' :: t => (magnitude? t).map Quantity.neg
  | .char '+' :: t => magnitude? t
  | t => magnitude? t

end Decimal

end RefSweep
