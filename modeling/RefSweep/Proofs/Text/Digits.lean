import RefSweep.Proofs.Text.Space
import RefSweep.Text.Digits

/-!
# Digits

A number is printed in digits, at least one, and in nothing else. Reading such digits as an integer,
whatever white space stands around them, gives the number back (`int?_of_strip`).
-/

namespace RefSweep

namespace Glyph

variable {g : Glyph}

/-- The hexadecimal digits lie between `0` and `f` in the order of the codes. -/
theorem code_of_hexDigit (h : g.hexDigit?.isSome) : 0x30 ≤ g.code ∧ g.code ≤ 0x66 := by
  unfold hexDigit? asciiDigit? at h
  simp only [within, List.any_cons, List.any_nil, Bool.or_false, Bool.and_eq_true,
    decide_eq_true_eq] at h
  split at h
  · split at h
    · omega
    · cases h
  · split at h
    · omega
    · split at h
      · omega
      · cases h

/-- A decimal digit is read as its distance from `0`. -/
theorem digit?_char {c : Char} (hc : c.isDigit) :
    digit? (.char c) = some (c.toNat - '0'.toNat) := by
  have hrange : 0x30 ≤ c.toNat ∧ c.toNat ≤ 0x39 := by
    rw [Char.isDigit_iff_toNat] at hc
    exact hc
  rw [digit?, zeroDigits, List.find?_cons_of_pos]
  · rfl
  · rw [code]
    simp only [Bool.and_eq_true, decide_eq_true_eq]
    omega

/-- No script has a digit among its white space. -/
theorem digit?_of_isSpace (h : g.isSpace) : g.digit? = none := by
  have hapart : ∀ first ∈ zeroDigits, first = 0x30 ∨ 0x660 ≤ first ∧ first + 10 ≤ 0x1680 ∨
      0x1680 < first ∧ first + 10 ≤ 0x2000 ∨ 0x3000 < first := by decide
  rw [isSpace_iff] at h
  refine Option.map_eq_none_iff.2 (List.find?_eq_none.2 fun first hfirst hin => ?_)
  have hfirst := hapart first hfirst
  simp only [Bool.and_eq_true, decide_eq_true_eq] at hin
  omega

end Glyph

namespace Text

/-- A number is written with decimal digits only. -/
theorem isDigit_of_mem_ofNat {n : Nat} {g : Glyph} (h : g ∈ Text.ofNat n) :
    ∃ c : Char, g = .char c ∧ c.isDigit := by
  obtain ⟨c, hc, rfl⟩ := List.mem_map.1 h
  exact ⟨c, rfl, Nat.isDigit_of_mem_toDigits (by decide) (by decide) hc⟩

/-- A number begins with a digit. -/
theorem ofNat_eq_cons (n : Nat) :
    ∃ c rest, Text.ofNat n = .char c :: rest ∧ c.isDigit = true := by
  cases hdigits : Text.ofNat n with
  | nil => exact absurd (List.map_eq_nil_iff.1 hdigits) Nat.toDigits_ne_nil
  | cons g rest =>
    obtain ⟨c, rfl, hc⟩ : ∃ c : Char, g = .char c ∧ c.isDigit :=
      isDigit_of_mem_ofNat (n := n) (hdigits ▸ .head _)
    exact ⟨c, rest, rfl, hc⟩

/-- So a character that is no digit does not occur in a written number. -/
theorem notMem_ofNat {n : Nat} {c : Char} (hc : c.isDigit = false) :
    Glyph.char c ∉ Text.ofNat n := fun hmem => by
  obtain ⟨d, heq, hd⟩ := isDigit_of_mem_ofNat hmem
  rw [← Glyph.char.inj heq, hc] at hd
  cases hd

/-- Reading digits onto a number that was begun gives what the digits are worth behind it. -/
theorem moreDigits?_chars {cs : List Char} (hcs : ∀ c ∈ cs, c.isDigit) (n : Nat) :
    moreDigits? Glyph.digit? n (cs.map .char) = some (Nat.ofDigitChars 10 cs n) := by
  induction cs generalizing n with
  | nil => rw [List.map_nil, moreDigits?, Nat.ofDigitChars_nil]
  | cons c rest ih =>
    have hdigit := Glyph.digit?_char (hcs c (.head _))
    have hrest := ih (fun d hd => hcs d (.tail _ hd)) (10 * n + (c.toNat - '0'.toNat))
    rw [Nat.ofDigitChars_cons, ← hrest]
    cases rest with
    | nil => rw [List.map_cons, List.map_nil, moreDigits?, moreDigits?, hdigit, Option.map_some]
    | cons d rest => rw [List.map_cons, List.map_cons, moreDigits?, hdigit]

/-- A written number is read back. -/
theorem nat?_ofNat (n : Nat) : nat? Glyph.digit? (ofNat n) = some n := by
  have hdigits : ∀ c ∈ Nat.toDigits 10 n, c.isDigit := fun c hc =>
    Nat.isDigit_of_mem_toDigits (by decide) (by decide) hc
  have hvalue : Nat.ofDigitChars 10 (Nat.toDigits 10 n) 0 = n := Nat.ofDigitChars_ten_toDigits
  rw [ofNat]
  cases hcs : Nat.toDigits 10 n with
  | nil => exact absurd hcs Nat.toDigits_ne_nil
  | cons c rest =>
    rw [hcs] at hdigits hvalue
    rw [Nat.ofDigitChars_cons, Nat.mul_zero, Nat.zero_add] at hvalue
    rw [List.map_cons, nat?, Glyph.digit?_char (hdigits c (.head _))]
    dsimp only
    rw [moreDigits?_chars (fun d hd => hdigits d (.tail _ hd)), hvalue]

/-- Also where a sign would be allowed. -/
theorem signed?_ofNat (n : Nat) : signed? Glyph.digit? (ofNat n) = some (n : Int) := by
  obtain ⟨c, rest, hcons, hc⟩ := ofNat_eq_cons n
  have hnat := nat?_ofNat n
  rw [hcons] at hnat ⊢
  unfold signed?
  -- the first character is a digit, so it is neither of the signs
  split
  next heq =>
    obtain ⟨hsign, -⟩ := List.cons.inj heq
    rw [Glyph.char.inj hsign] at hc
    cases hc
  next heq =>
    obtain ⟨hsign, -⟩ := List.cons.inj heq
    rw [Glyph.char.inj hsign] at hc
    cases hc
  · rw [hnat]
    rfl

/-- A number is read back from its digits, with white space around them, unless they are too
many. -/
theorem int?_of_strip {t : Text} {n : Nat} (ht : t.strip = ofNat n)
    (hshort : (ofNat n).length ≤ digitLimit) : t.int? = some (n : Int) := by
  obtain ⟨lead, tail, hparts, hlead, htail⟩ := exists_strip t
  have hnone : ∀ {s : Text}, (∀ g ∈ s, g.isSpace) → s.countP (fun g => g.digit?.isSome) = 0 :=
    fun hs => List.countP_eq_zero.2 fun g hg => by
      rw [Glyph.digit?_of_isSpace (hs g hg)]
      exact Bool.false_ne_true
  have hcount : t.countP (fun g => g.digit?.isSome) ≤ digitLimit := by
    conv => lhs; rw [hparts]
    rw [List.countP_append, List.countP_append, hnone hlead, hnone htail, ht, Nat.zero_add,
      Nat.add_zero]
    exact List.countP_le_length.trans hshort
  rw [int?, if_neg (Nat.not_lt.2 hcount), ht, signed?_ofNat]

theorem isStray_of_mem_ofNat {n : Nat} {g : Glyph} (h : g ∈ ofNat n) : isStray g = false := by
  obtain ⟨c, rfl, -⟩ := isDigit_of_mem_ofNat h
  rfl

end Text

end RefSweep
