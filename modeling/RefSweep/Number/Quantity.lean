import RefSweep.Number.Binary64

/-!
# Quantities

What a binary number of 64 bits can hold: a rational that such a number stores exactly, a zero that
is reached from below, the two infinities, and no number at all. `Quantity.less` is their order, in
which both zeros are equal and the undefined quantity is neither below nor above any other.
-/

namespace RefSweep

/-- A stored number. -/
inductive Quantity where
  | finite (r : Rat)
  | minusZero
  | infinite
  | minusInfinite
  | undefined
  deriving DecidableEq, Repr

namespace Quantity

def zero : Quantity := finite 0

/-- The quantity of a rational once it is stored; one that is too large is infinite, and one that
vanishes below zero is the zero reached from there. -/
def ofRat (r : Rat) : Quantity :=
  match Binary64.nearest r with
  | some stored => if stored = 0 ∧ r < 0 then minusZero else finite stored
  | none => if r < 0 then minusInfinite else infinite

def neg : Quantity → Quantity
  | finite r => if r = 0 then minusZero else finite (-r)
  | minusZero => zero
  | infinite => minusInfinite
  | minusInfinite => infinite
  | undefined => undefined

/-- The rational that a finite quantity holds. -/
def value? : Quantity → Option Rat
  | finite r => some r
  | minusZero => some 0
  | _ => none

def less (a b : Quantity) : Bool :=
  match a.value?, b.value? with
  | some r, some s => r < s
  | some _, none => b = infinite
  | none, some _ => a = minusInfinite
  | none, none => a = minusInfinite && b = infinite

end Quantity

end RefSweep
