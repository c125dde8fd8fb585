import RefSweep.Text.Basic
import RefSweep.Number.Quantity

/-!
# Durations

A duration in seconds is a stored number. It is shown with six decimals.
-/

namespace RefSweep

abbrev Seconds := Quantity

namespace Seconds

/-- The first duration, or the second if that is shorter. -/
protected def min (a b : Seconds) : Seconds := if b.less a then b else a

/-- The duration, or none at all if it is not positive. -/
def nonneg (a : Seconds) : Seconds := if Quantity.zero.less a then a else .zero

/-- The duration is a number that is not below zero; either zero is such. -/
def isNonneg (a : Seconds) : Bool := a ≠ .undefined && !a.less .zero

/-- Digits of `n` millionths: the whole part, a point and six decimals. -/
def millionths (n : Nat) : Text :=
  let decimals := Text.ofNat (n % 1000000)
  let zeros := List.replicate (6 - decimals.length) (Glyph.char '0')
  Text.ofNat (n / 1000000) ++ .char '.' :: (zeros ++ decimals)

/-- The duration as shown: six decimals, a tie to the even digit. -/
def text : Seconds → Text
  | .infinite => Text.of "inf"
  | .minusInfinite => Text.of "-inf"
  | .undefined => Text.of "nan"
  | .minusZero => .char '-' :: millionths 0
  | .finite r =>
    let shown := millionths (roundDiv (r.num.natAbs * 1000000) r.den)
    if r < 0 then .char '-' :: shown else shown

end Seconds

end RefSweep
