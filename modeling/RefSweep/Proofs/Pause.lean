import Mathlib.Tactic.FieldSimp
import Mathlib.Tactic.NormNum
import Mathlib.Tactic.Positivity
import Mathlib.Tactic.Ring
import Mathlib.Algebra.Order.Field.Rat
import RefSweep.Retry

/-!
# How long the pauses are

A pause is a tenth of a second, doubled each time. Neither is exact for free: a tenth has no end in
binary digits, so what is doubled is the number stored for it, and a power of two is stored only
below `2 ^ 1024`. What is stored for a tenth of such a power is the stored tenth with its digits
moved, so each pause is known as a rational. Main statement: `RetryPolicy.pause_eq`.
-/

namespace RefSweep

/-- The number that is stored for a tenth. -/
def tenth : Rat := 3602879701896397 / 2 ^ 55

/-- Rounding a quotient to the nearest integer does not depend on how the quotient is written: a
common factor cancels. -/
theorem roundDiv_mul_right (a b : Nat) {c : Nat} (hc : 0 < c) :
    roundDiv (a * c) (b * c) = roundDiv a b := by
  have hrest : 2 * (a * c % (b * c)) = 2 * (a % b) * c := by
    rw [Nat.mul_mod_mul_right, Nat.mul_assoc]
  simp only [roundDiv, hrest, Nat.mul_div_mul_right a b hc, Nat.mul_lt_mul_right hc]

namespace Binary64

/-! ## Powers of two and their quotients -/

variable {i j : Nat}

/-- The last binary digit that a power of two keeps is 52 places below it. -/
theorem lastPlace_two_pow (i : Nat) : lastPlace (2 ^ i) 1 = (i : Int) - 52 := by
  have hone : Nat.log2 1 = 0 := by decide
  unfold lastPlace
  dsimp only
  rw [Nat.log2_two_pow, hone]
  simp only [Nat.cast_zero, sub_zero, Int.natCast_nonneg, if_true, Int.toNat_natCast, Nat.pow_eq,
    Nat.one_mul, Nat.le_refl]
  omega

/-- The last binary digit that a fifth of a power of two keeps is 55 places below it. -/
theorem lastPlace_fifth (i : Nat) : lastPlace (2 ^ i) 5 = (i : Int) - 55 := by
  have hfive : Nat.log2 5 = 2 := by decide
  -- a fifth of the power lies just below a quarter of it: the power two places down is not reached
  have hreached : ¬ (if (0 : Int) ≤ i - 2 then 5 * Nat.pow 2 ((i : Int) - 2).toNat ≤ 2 ^ i
      else 5 ≤ 2 ^ i * Nat.pow 2 (-((i : Int) - 2)).toNat) := by
    split
    next h =>
      have hpow : 2 ^ i = 4 * 2 ^ ((i : Int) - 2).toNat := by
        rw [← Nat.pow_add' 2 _ 2]
        congr 1
        omega
      rw [Nat.pow_eq, hpow]
      have := Nat.two_pow_pos ((i : Int) - 2).toNat
      omega
    next h =>
      have hpow : 2 ^ i * 2 ^ (-((i : Int) - 2)).toNat = 4 := by
        rw [← Nat.pow_add]
        have : i + (-((i : Int) - 2)).toNat = 2 := by omega
        rw [this]
      rw [Nat.pow_eq, hpow]
      omega
  unfold lastPlace
  dsimp only
  rw [Nat.log2_two_pow, hfive]
  push_cast
  rw [if_neg hreached]
  omega

/-- A quotient of a power of two is rounded as if the power had the digits that are kept: what is
stored is the rounded quotient of that power, moved back into place. -/
theorem nearestQuotient_two_pow {d c : Nat} (hplace : lastPlace (2 ^ i) d = (i : Int) - c) :
    nearestQuotient (2 ^ i) d =
      if (roundDiv (2 ^ c) d : Rat) / 2 ^ c * 2 ^ i < ((Nat.pow 2 1024 : Nat) : Rat) then
        some ((roundDiv (2 ^ c) d : Rat) / 2 ^ c * 2 ^ i)
      else none := by
  have hstored : (if (0 : Int) ≤ i - c then
      ((roundDiv (2 ^ i) (d * Nat.pow 2 ((i : Int) - c).toNat) *
        Nat.pow 2 ((i : Int) - c).toNat : Nat) : Rat)
      else mkRat (roundDiv (2 ^ i * Nat.pow 2 (-((i : Int) - c)).toNat) d)
        (Nat.pow 2 (-((i : Int) - c)).toNat)) = (roundDiv (2 ^ c) d : Rat) / 2 ^ c * 2 ^ i := by
    split
    next h =>
      -- the places beyond the kept ones are whole powers of two
      obtain ⟨k, rfl⟩ : ∃ k, i = c + k := ⟨i - c, by omega⟩
      have hk : ((c + k : Nat) : Int) - c = k := by omega
      rw [hk, Int.toNat_natCast, Nat.pow_eq, Nat.pow_add,
        roundDiv_mul_right _ _ (Nat.two_pow_pos k)]
      push_cast
      field_simp
      ring
    next h =>
      obtain ⟨k, rfl⟩ : ∃ k, c = i + k := ⟨c - i, by omega⟩
      have hneg : (-((i : Int) - (i + k : Nat))).toNat = k := by omega
      rw [hneg, Nat.pow_eq, ← Nat.pow_add, Rat.mkRat_eq_div, pow_add]
      push_cast
      field_simp
      ring
  unfold nearestQuotient
  rw [hplace]
  dsimp only
  rw [hstored]

theorem two_pow_lt_iff {n : Nat} : (2 ^ j : Rat) < ((Nat.pow 2 n : Nat) : Rat) ↔ j < n := by
  rw [Nat.pow_eq, Nat.cast_pow, Nat.cast_ofNat]
  exact pow_lt_pow_iff_right₀ (by norm_num)

/-- A power of two is stored as it is, or not at all. -/
theorem nearest_two_pow (j : Nat) :
    nearest ((2 ^ j : Nat) : Rat) = if j < 1024 then some (2 ^ j) else none := by
  have hround : roundDiv (2 ^ 52) 1 = 2 ^ 52 := by decide
  have hvalue : ((2 ^ 52 : Nat) : Rat) / 2 ^ 52 * 2 ^ j = 2 ^ j := by norm_num
  have hpos : ¬ ((2 ^ j : Nat) : Int) < 0 := Int.not_lt.2 (Int.natCast_nonneg _)
  rw [nearest, Rat.num_natCast, Rat.den_natCast, if_neg hpos, Int.natAbs_natCast,
    nearestQuotient_two_pow (lastPlace_two_pow j), hround, hvalue]
  simp only [two_pow_lt_iff]

/-- The double next to a tenth, times a power of two, stays below every larger power of two. -/
theorem tenth_mul_lt {n : Nat} (hj : j < n) : tenth * 2 ^ j < ((Nat.pow 2 n : Nat) : Rat) := by
  have htenth : tenth < 1 := by norm_num [tenth]
  calc tenth * 2 ^ j < 1 * 2 ^ j := mul_lt_mul_of_pos_right htenth (by positivity)
    _ = 2 ^ j := one_mul _
    _ < ((Nat.pow 2 n : Nat) : Rat) := two_pow_lt_iff.2 hj

theorem nearest_tenth : nearest (mkRat 1 10) = some tenth := by decide +kernel

/-- A tenth of a power of two is stored as that power of two times the stored tenth. -/
theorem nearest_tenths (hj : j < 1024) :
    nearest (mkRat ((Nat.pow 2 j : Nat) : Int) 10) = some (tenth * 2 ^ j) := by
  cases j with
  | zero =>
    rw [pow_zero, mul_one]
    exact nearest_tenth
  | succ i =>
    -- in lowest terms a tenth of a power is a fifth of the one below it, so one rounding serves all
    have hround : roundDiv (2 ^ 55) 5 = 7205759403792794 := by decide
    have hvalue : ((7205759403792794 : Nat) : Rat) / 2 ^ 55 * 2 ^ i = tenth * 2 ^ (i + 1) := by
      rw [tenth]
      push_cast
      ring
    have hcoprime : ((2 ^ i : Nat) : Int).natAbs.Coprime 5 := by
      rw [Int.natAbs_natCast]
      exact Nat.Coprime.pow_left i (by decide)
    have hlowest : mkRat ((Nat.pow 2 (i + 1) : Nat) : Int) 10 =
        ⟨((2 ^ i : Nat) : Int), 5, by decide, hcoprime⟩ := by
      rw [Rat.mk_eq_mkRat, Nat.pow_eq, Nat.pow_succ, Nat.cast_mul]
      exact Rat.mkRat_mul_right (d := 5) (a := 2) (by decide)
    have hpos : ¬ ((2 ^ i : Nat) : Int) < 0 := Int.not_lt.2 (Int.natCast_nonneg _)
    rw [hlowest, nearest, if_neg hpos, Int.natAbs_natCast,
      nearestQuotient_two_pow (lastPlace_fifth i), hround, hvalue]
    split
    · rfl
    next hlarge =>
      refine absurd (tenth_mul_lt ?_) hlarge
      exact hj

end Binary64

/-! ## Pauses -/

namespace Seconds

/-- The duration `r`, but no longer than the limit and not below zero. What is no number at all
limits nothing. -/
def capped (limit : Seconds) (r : Rat) : Rat :=
  match limit with
  | .finite w => max 0 (min r w)
  | .minusZero | .minusInfinite => 0
  | .infinite | .undefined => max 0 r

/-- A pause that was capped is at least zero, since zero is the floor of every cap. -/
theorem capped_nonneg (limit : Seconds) (r : Rat) : 0 ≤ limit.capped r := by
  cases limit with
  | finite | infinite | undefined => exact le_max_left _ _
  | minusZero | minusInfinite => exact le_refl 0

theorem isNonneg_finite {r : Rat} (h : 0 ≤ r) : isNonneg (.finite r) = true := by
  simp [isNonneg, Quantity.less, Quantity.value?, Quantity.zero, h]

/-- Raising a finite number of seconds to zero is taking the larger of the two. -/
theorem nonneg_finite (r : Rat) : nonneg (.finite r) = .finite (max 0 r) := by
  simp only [nonneg, Quantity.less, Quantity.value?, Quantity.zero, decide_eq_true_eq]
  split
  next h => rw [max_eq_right h.le]
  next h => rw [max_eq_left (not_lt.1 h)]

/-- Taking the shorter of two durations and cutting it off at zero is exact. No rounding comes in,
whatever kind of number the limit is. -/
theorem nonneg_min_finite (limit : Seconds) (r : Rat) :
    nonneg (Seconds.min (.finite r) limit) = .finite (limit.capped r) := by
  -- by the kind of the limit: only a finite one and the negative zero are compared as numbers
  cases limit with
  | finite w =>
    have hmin : Seconds.min (.finite r) (.finite w) = .finite (min r w) := by
      simp only [Seconds.min, Quantity.less, Quantity.value?, decide_eq_true_eq]
      split
      next h => rw [min_eq_right h.le]
      next h => rw [min_eq_left (not_lt.1 h)]
    rw [hmin, nonneg_finite, capped]
  | minusZero =>
    by_cases h : 0 < r
    · simp [Seconds.min, Quantity.less, Quantity.value?, h, nonneg, Quantity.zero, capped]
    · simp [Seconds.min, Quantity.less, Quantity.value?, h, nonneg, Quantity.zero, capped]
  | infinite => exact nonneg_finite r
  | minusInfinite => rfl
  | undefined => exact nonneg_finite r

end Seconds

namespace RetryPolicy

/-- The pause after the `k`-th attempt is the stored tenth times the stored power of two, capped.
If that power is too large to be stored, it is the limit. -/
theorem pause_eq (p : RetryPolicy) (k : Nat) :
    p.pause k = match Binary64.nearest ((2 ^ (k - 1) : Nat) : Rat) with
      | some doubled => .finite (p.waitMax.capped (tenth * doubled))
      | none => p.waitMax := by
  rw [Binary64.nearest_two_pow, pause]
  -- below that the power can be stored, and the product is exact; from there on it cannot
  by_cases h : k - 1 < 1024
  · have hnonneg : ¬ (tenth * 2 ^ (k - 1) = 0 ∧
        mkRat ((Nat.pow 2 (k - 1) : Nat) : Int) 10 < 0) := by
      rintro ⟨hzero, -⟩
      have : 0 < tenth * 2 ^ (k - 1) := by
        have : 0 < tenth := by norm_num [tenth]
        positivity
      exact this.ne' hzero
    rw [if_neg (Nat.not_le.2 h), if_pos h, Quantity.ofRat, Binary64.nearest_tenths h]
    simp only [if_neg hnonneg]
    exact Seconds.nonneg_min_finite _ _
  · rw [if_pos (Nat.not_lt.1 h), if_neg h]

/-- Up to the 1024th pause a limit below zero is not seen as such: the pause is none at all. -/
theorem pause_of_neg {p : RetryPolicy} {w : Rat} (hlimit : p.waitMax = .finite w) (hw : w ≤ 0)
    {k : Nat} (hk : k ≤ 1024) : p.pause k = .finite 0 := by
  have hstored : k - 1 < 1024 := by omega
  rw [pause_eq, Binary64.nearest_two_pow, if_pos hstored, hlimit]
  exact congrArg Quantity.finite (max_eq_left ((min_le_right _ _).trans hw))

/-- From the 1025th pause on the limit is asked for as it is. -/
theorem pause_of_late (p : RetryPolicy) {k : Nat} (hk : 1024 < k) : p.pause k = p.waitMax :=
  if_pos (Nat.le_sub_one_of_lt hk)

/-- Only the limit itself can be below zero, and it is no pause before the 1025th. -/
theorem isNonneg_pause {p : RetryPolicy} {k : Nat} (h : p.waitMax.isNonneg = true ∨ k ≤ 1024) :
    (p.pause k).isNonneg = true := by
  rw [pause_eq, Binary64.nearest_two_pow]
  by_cases hk : k - 1 < 1024
  · rw [if_pos hk]
    exact Seconds.isNonneg_finite (Seconds.capped_nonneg _ _)
  · rw [if_neg hk]
    exact h.resolve_right fun hle => hk (by omega)

end RetryPolicy

end RefSweep
