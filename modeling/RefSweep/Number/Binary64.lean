/-!
# Binary floating point

Durations are given and shown as binary numbers of 64 bits. `nearest` is the value such a number
has when a rational is stored in it: 53 binary digits, ties to even, no exponent below -1074, and no
value from `2 ^ 1024` on.
-/

namespace RefSweep

/-- The quotient of two naturals rounded to the nearest integer, a half to the even neighbour. -/
def roundDiv (num den : Nat) : Nat :=
  let low := num / den
  let rest := 2 * (num % den)
  if rest < den then low else if den < rest then low + 1 else low + low % 2

namespace Binary64

/-- The exponent of the last binary digit that a positive quotient keeps. -/
def lastPlace (num den : Nat) : Int :=
  let guess : Int := (Nat.log2 num : Int) - (Nat.log2 den : Int)
  let reached :=
    if 0 ≤ guess then den * Nat.pow 2 guess.toNat ≤ num else den ≤ num * Nat.pow 2 (-guess).toNat
  max (-1074) ((if reached then guess else guess - 1) - 52)

/-- The stored value of a quotient, or none if it is too large. -/
def nearestQuotient (num den : Nat) : Option Rat :=
  let e := lastPlace num den
  let stored : Rat :=
    if 0 ≤ e then ((roundDiv num (den * Nat.pow 2 e.toNat) * Nat.pow 2 e.toNat : Nat) : Rat)
    else mkRat (roundDiv (num * Nat.pow 2 (-e).toNat) den) (Nat.pow 2 (-e).toNat)
  if stored < ((Nat.pow 2 1024 : Nat) : Rat) then some stored else none

/-- The stored value of a rational, or none if its size is too large. -/
def nearest (r : Rat) : Option Rat :=
  if r.num < 0 then (nearestQuotient r.num.natAbs r.den).map (- ·)
  else nearestQuotient r.num.natAbs r.den

end Binary64

end RefSweep
