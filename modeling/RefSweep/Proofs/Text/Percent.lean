import Mathlib.Data.List.TakeWhile
import RefSweep.Proofs.Text.Digits
import RefSweep.Proofs.Text.Utf8
import RefSweep.Text.Percent

/-!
# Texts that percent signs change

A percent sign that stands for a byte is three ASCII glyphs, and at most one takes their place:
other glyphs come and go, but none of ASCII (`ascii_percentDecoded`). A text without such percent
signs stays as it is (`percentDecoded_of_escapes`).
-/

namespace RefSweep

/-! ## Low bytes -/

namespace Utf8

variable {b : UInt8} {rest : Bytes} {c : Char}

/-- How many of the bytes are below `0x80`. -/
def low (bytes : Bytes) : Nat := bytes.countP (· < 0x80)

theorem low_append (bytes bytes' : Bytes) : low (bytes ++ bytes') = low bytes + low bytes' :=
  List.countP_append

theorem low_eq_zero {bytes : Bytes} (h : ∀ x ∈ bytes, 0x80 ≤ x) : low bytes = 0 := by
  refine List.countP_eq_zero.2 fun x hx hlow => ?_
  exact absurd (of_decide_eq_true hlow) (UInt8.not_lt.2 (h x hx))

/-- A character of ASCII is encoded as one low byte, and any other one as high bytes only. -/
theorem low_encodeChar (c : Char) : low (encodeChar c) = if c.toNat < 0x80 then 1 else 0 := by
  have hmax := char_toNat_lt c
  have hhigh : ∀ n, 0x80 ≤ n → n < 256 → (0x80 : UInt8) ≤ UInt8.ofNat n := fun _ => le_ofNat
  unfold encodeChar
  dsimp only
  split
  next h1 =>
    have hlow : UInt8.ofNat c.toNat < 0x80 := by
      rw [UInt8.lt_iff_toNat_lt, toNat_ofNat_of_lt (by omega)]
      exact h1
    simp [low, hlow]
  · -- all bytes of a longer character are high
    split
    · refine low_eq_zero fun x hx => ?_
      simp only [List.mem_cons, List.not_mem_nil, or_false] at hx
      rcases hx with rfl | rfl <;> exact hhigh _ (by omega) (by omega)
    · split
      · refine low_eq_zero fun x hx => ?_
        simp only [List.mem_cons, List.not_mem_nil, or_false] at hx
        rcases hx with rfl | rfl | rfl <;> exact hhigh _ (by omega) (by omega)
      · refine low_eq_zero fun x hx => ?_
        simp only [List.mem_cons, List.not_mem_nil, or_false] at hx
        rcases hx with rfl | rfl | rfl | rfl <;> exact hhigh _ (by omega) (by omega)

/-- What goes with the first byte of a broken sequence is high, so no glyph of ASCII is swallowed
when it is replaced. -/
theorem low_take_broken (b : UInt8) (rest : Bytes) : low (rest.take (broken b rest)) = 0 := by
  unfold broken
  split
  next second more =>
    dsimp only
    split
    next hgoes =>
      simp only [Bool.and_eq_true, decide_eq_true_eq] at hgoes
      obtain ⟨⟨⟨-, hsecond⟩, -⟩, -⟩ := hgoes
      -- the second byte of a sequence is in a range that begins at 0x80 for every first byte
      have hrange : (0x80 : UInt8) ≤ (secondBytes b).1 := by
        unfold secondBytes
        split
        · decide
        · split
          · decide
          · split
            · decide
            · split <;> decide
      -- the other bytes are taken as long as they continue a sequence, which high bytes only do
      have hprefix : (more.take (width b - 3)).takeWhile (fun c => 0x80 ≤ c && c ≤ 0xBF) <+: more :=
        (List.takeWhile_prefix _).trans (List.take_prefix _ _)
      rw [Nat.add_comm, List.take_succ_cons, ← List.prefix_iff_eq_take.1 hprefix]
      refine low_eq_zero fun x hx => ?_
      obtain rfl | hx := List.mem_cons.1 hx
      · exact UInt8.le_trans hrange hsecond
      · have hcontinues := List.mem_takeWhile_imp hx
        simp only [Bool.and_eq_true, decide_eq_true_eq] at hcontinues
        exact hcontinues.1
    · rfl
  · rfl

end Utf8

theorem Glyph.isAscii_iff {g : Glyph} : g.isAscii ↔ g.code < 0x80 := decide_eq_true_iff

namespace Text

variable {t : Text}

/-- How many of the glyphs are of ASCII. -/
def ascii (t : Text) : Nat := t.countP Glyph.isAscii

theorem ascii_append (s t : Text) : ascii (s ++ t) = ascii s + ascii t := List.countP_append

theorem ascii_cons (g : Glyph) (t : Text) :
    ascii (g :: t) = ascii t + if g.isAscii then 1 else 0 := List.countP_cons

/-- Encoding keeps the count: a glyph of ASCII gives one low byte and any other glyph none. -/
theorem low_encodeGlyph (g : Glyph) :
    Utf8.low (Utf8.encodeGlyph g) = if g.isAscii then 1 else 0 := by
  cases g with
  | char c =>
    rw [Utf8.encodeGlyph, Utf8.low_encodeChar]
    have hascii : (Glyph.char c).isAscii ↔ c.toNat < 0x80 := Glyph.isAscii_iff
    exact if_congr hascii.symm rfl rfl
  | stray low =>
    -- a stray byte is written as the high byte it stands for
    have hhigh : ∀ x ∈ [UInt8.ofNat (0x80 + low.val)], (0x80 : UInt8) ≤ x := by
      have := low.isLt
      exact List.forall_mem_singleton.2 (Utf8.le_ofNat (by omega) (by omega))
    have hcode : ¬ Glyph.code (.stray low) < 0x80 := by
      simp only [Glyph.code]
      omega
    rw [if_neg (mt Glyph.isAscii_iff.1 hcode)]
    exact Utf8.low_eq_zero hhigh

/-- Reading bytes gives one glyph of ASCII for each low byte. -/
theorem ascii_decodeReplacing (bytes : Bytes) :
    ascii (Utf8.decodeReplacing bytes) = Utf8.low bytes := by
  fun_induction Utf8.decodeReplacing bytes with
  | case1 => rfl
  | case2 b rest c h ih =>
    -- the bytes of the character go together, and they are low if it is of ASCII
    obtain ⟨hc, hwidth, -⟩ := Utf8.leading_eq_some h
    have hlength : (Utf8.encodeChar c).length - 1 = Utf8.width b - 1 := by
      rw [hc, List.length_cons]
      omega
    have hbytes : b :: rest = Utf8.encodeGlyph (.char c) ++ rest.drop (Utf8.width b - 1) := by
      rw [Utf8.encodeGlyph, hc, List.cons_append, List.take_append_drop]
    rw [hlength] at ih ⊢
    rw [hbytes, Utf8.low_append, low_encodeGlyph, ascii_cons, ih, Nat.add_comm]
  | case3 b rest h ih =>
    have hhigh : Utf8.low [b] = 0 := by
      refine Utf8.low_eq_zero (List.forall_mem_singleton.2 (UInt8.not_lt.1 fun hlow => ?_))
      cases h.symm.trans (Utf8.leading_of_lt hlow rest)
    have hrest : rest = rest.take (Utf8.broken b rest) ++ rest.drop (Utf8.broken b rest) :=
      (List.take_append_drop _ _).symm
    have hreplacement : Utf8.replacement.isAscii = false := rfl
    rw [ascii_cons, hreplacement, ih]
    conv => rhs; rw [← List.singleton_append, hrest]
    rw [Utf8.low_append, Utf8.low_append, hhigh, Utf8.low_take_broken]
    simp

/-! ## Percent signs that stand for bytes -/

/-- The text begins with a percent sign and two hexadecimal digits. -/
def opensEscape : Text → Bool
  | .char '%' :: a :: b :: _ => a.hexDigit?.isSome && b.hexDigit?.isSome
  | _ => false

/-- How many percent signs in the text stand for bytes. -/
def escapes : Text → Nat
  | [] => 0
  | g :: t => escapes t + if opensEscape (g :: t) then 1 else 0

theorem escapes_cons (g : Glyph) (t : Text) :
    escapes (g :: t) = escapes t + if opensEscape (g :: t) then 1 else 0 := rfl

/-- Only a percent sign opens an escape. -/
theorem opensEscape_cons {g : Glyph} (hg : g ≠ '%') (t : Text) : opensEscape (g :: t) = false := by
  unfold opensEscape
  split
  next heq => exact absurd (List.cons.inj heq).1 hg
  · rfl

theorem ne_percent_of_hexDigit {g : Glyph} (h : g.hexDigit?.isSome) : g ≠ '%' := by
  rintro rfl
  exact absurd (Glyph.code_of_hexDigit h).1 (by decide)

/-- The digits of an escape are glyphs of ASCII. -/
theorem isAscii_of_hexDigit {g : Glyph} (h : g.hexDigit?.isSome) : g.isAscii := by
  have := (Glyph.code_of_hexDigit h).2
  exact Glyph.isAscii_iff.2 (by omega)

/-- Each of those percent signs makes three glyphs into one byte. -/
theorem low_percentBytes (t : Text) : Utf8.low t.percentBytes + 2 * t.escapes ≤ ascii t := by
  fun_induction percentBytes t with
  | case1 a b rest high low hlow hhigh ih =>
    have ha : a.hexDigit?.isSome := by rw [hhigh]; rfl
    have hb : b.hexDigit?.isSome := by rw [hlow]; rfl
    -- three glyphs of ASCII are spent on at most one low byte
    have hopens : opensEscape (.char '%' :: a :: b :: rest) = true := by
      simp [opensEscape, ha, hb]
    have hpercent : Glyph.isAscii '%' = true := rfl
    have hbyte : Utf8.low [UInt8.ofNat (16 * high + low)] ≤ 1 := List.countP_le_length
    rw [← List.singleton_append, Utf8.low_append]
    simp only [escapes_cons, ascii_cons, hopens, opensEscape_cons (ne_percent_of_hexDigit ha),
      opensEscape_cons (ne_percent_of_hexDigit hb), hpercent, isAscii_of_hexDigit ha,
      isAscii_of_hexDigit hb, if_true, Bool.false_eq_true, if_false]
    omega
  | case2 a b rest hnone ih =>
    -- a percent sign without two digits is a glyph like any other
    have hopens : opensEscape (.char '%' :: a :: b :: rest) = false := by
      refine Bool.eq_false_iff.2 fun hboth => ?_
      obtain ⟨ha, hb⟩ := Bool.and_eq_true_iff.1 (hboth : (_ && _) = true)
      obtain ⟨high, hhigh⟩ := Option.isSome_iff_exists.1 ha
      obtain ⟨low, hlow⟩ := Option.isSome_iff_exists.1 hb
      exact hnone high low hhigh hlow
    rw [Utf8.low_append, low_encodeGlyph, escapes_cons, hopens, ascii_cons]
    simp only [Bool.false_eq_true, if_false]
    omega
  | case3 g rest hother ih =>
    have hopens : opensEscape (g :: rest) = false := by
      unfold opensEscape
      split
      next heq =>
        obtain ⟨hg, hrest⟩ := List.cons.inj heq
        exact (hother _ _ _ hg hrest).elim
      · rfl
    rw [Utf8.low_append, low_encodeGlyph, escapes_cons, hopens, ascii_cons]
    simp only [Bool.false_eq_true, if_false]
    omega
  | case4 => exact Nat.le_refl 0

/-- What comes after a text opens no escape within it, if it does not begin with a glyph of ASCII:
both digits of an escape are. -/
theorem opensEscape_append (g : Glyph) (s : Text) {rest : Text}
    (hrest : ∀ x ∈ rest.head?, Glyph.isAscii x = false) :
    opensEscape (g :: (s ++ rest)) = opensEscape (g :: s) := by
  have hdigit : ∀ x ∈ rest.head?, x.hexDigit?.isSome = false := fun x hx =>
    Bool.eq_false_iff.2 fun hsome => by
      have hascii := hrest x hx
      rw [isAscii_of_hexDigit hsome] at hascii
      cases hascii
  by_cases hg : g = '%'
  · subst hg
    -- of the three glyphs that count, some may lie beyond
    match s, rest, hdigit with
    | _ :: _ :: _, _, _ => rfl
    | [], [], _ => rfl
    | [], [_], _ => rfl
    | [], x :: _ :: _, hdigit => simp [opensEscape, hdigit x rfl]
    | [_], [], _ => rfl
    | [_], x :: _, hdigit => simp [opensEscape, hdigit x rfl]
  · rw [opensEscape_cons hg, opensEscape_cons hg]

/-- No percent sign that stands for a byte reaches over a glyph that is not of ASCII. -/
theorem escapes_append (s : Text) {rest : Text}
    (hrest : ∀ x ∈ rest.head?, Glyph.isAscii x = false) :
    escapes (s ++ rest) = escapes s + escapes rest := by
  induction s with
  | nil => exact (Nat.zero_add _).symm
  | cons g s ih =>
    rw [List.cons_append, escapes_cons, escapes_cons, opensEscape_append g s hrest, ih]
    omega

/-- What comes after a stretch of ASCII does not begin with it. -/
theorem isAscii_head_dropWhile (t : Text) :
    ∀ x ∈ (t.dropWhile Glyph.isAscii).head?, Glyph.isAscii x = false := by
  intro x hx
  have hne : t.dropWhile Glyph.isAscii ≠ [] := fun heq => by rw [heq] at hx; cases hx
  have hhead := List.head_dropWhile_not Glyph.isAscii hne
  rw [List.head?_eq_some_head hne] at hx
  rwa [Option.some.inj hx] at hhead

/-- A glyph that is not one of ASCII opens no escape and can be left out of the count. -/
theorem escapes_of_not_isAscii {g : Glyph} (hg : ¬ g.isAscii) (t : Text) :
    escapes (g :: t) = escapes t := by
  have hopens := opensEscape_cons (g := g) (fun heq => hg (heq ▸ rfl)) t
  rw [escapes_cons, hopens]
  rfl

/-- A stretch of ASCII is read by itself. -/
theorem escapes_stretch (g : Glyph) (t : Text) : escapes (g :: t) =
    escapes (g :: t.takeWhile Glyph.isAscii) + escapes (t.dropWhile Glyph.isAscii) := by
  rw [← escapes_append _ (isAscii_head_dropWhile t), List.cons_append,
    List.takeWhile_append_dropWhile]

/-- Decoding takes two glyphs of ASCII for each escape, and replaces bytes that make no character by
a glyph that is not one of ASCII; so it never adds any. -/
theorem ascii_percentDecoded (t : Text) : ascii t.percentDecoded + 2 * t.escapes ≤ ascii t := by
  fun_induction percentDecoded t with
  | case1 => exact Nat.le_refl 0
  | case2 g t hg ih =>
    have hstretch := low_percentBytes (g :: t.takeWhile Glyph.isAscii)
    have hsplit : ascii (g :: t) = ascii (g :: t.takeWhile Glyph.isAscii) +
        ascii (t.dropWhile Glyph.isAscii) := by
      rw [← ascii_append, List.cons_append, List.takeWhile_append_dropWhile]
    rw [ascii_append, ascii_decodeReplacing, escapes_stretch, hsplit]
    omega
  | case3 g t hg ih =>
    rw [ascii_cons, ascii_cons, escapes_of_not_isAscii hg]
    omega

/-! ## Texts that stay -/

/-- A text without escapes stands for its own bytes. -/
theorem percentBytes_of_escapes (h : t.escapes = 0) : t.percentBytes = Utf8.encode t := by
  fun_induction percentBytes t with
  | case1 a b rest high low hlow hhigh ih =>
    rw [escapes_cons, opensEscape, hhigh, hlow] at h
    cases h
  | case2 a b rest hnone ih =>
    rw [ih (Nat.eq_zero_of_add_eq_zero_right h)]
    rfl
  | case3 g rest hother ih =>
    rw [ih (Nat.eq_zero_of_add_eq_zero_right h)]
    rfl
  | case4 => rfl

/-- Glyphs of ASCII survive being encoded and decoded, as nothing has to be replaced. -/
theorem decodeReplacing_encode (h : ∀ g ∈ t, g.isAscii) :
    Utf8.decodeReplacing (Utf8.encode t) = t := by
  induction t with
  | nil => simp [Utf8.encode, Utf8.decodeReplacing]
  | cons g t ih =>
    have hg := Glyph.isAscii_iff.1 (h g (.head _))
    have htail := ih fun x hx => h x (.tail _ hx)
    cases g with
    | stray low =>
      simp only [Glyph.code] at hg
      omega
    | char c =>
      -- the glyph is one low byte, which is decoded on its own
      have hc : Utf8.encodeChar c = [UInt8.ofNat c.toNat] := if_pos hg
      have hfront : Utf8.encode (.char c :: t) = UInt8.ofNat c.toNat :: Utf8.encode t := by
        show Utf8.encodeChar c ++ Utf8.encode t = _
        rw [hc]
        rfl
      have hleading := Utf8.leading_encodeChar c (Utf8.encode t)
      rw [hc, List.singleton_append] at hleading
      rw [hfront, Utf8.decodeReplacing, hleading]
      simp only [hc]
      show _ :: Utf8.decodeReplacing (Utf8.encode t) = _
      rw [htail]

/-- A text in which no percent sign stands for a byte is the one that is meant. -/
theorem percentDecoded_of_escapes (h : t.escapes = 0) : t.percentDecoded = t := by
  fun_induction percentDecoded t with
  | case1 => rfl
  | case2 g t hg ih =>
    rw [escapes_stretch] at h
    obtain ⟨hstretch, hrest⟩ := Nat.add_eq_zero_iff.1 h
    -- a stretch of ASCII without an escape is encoded and decoded again, and so unchanged
    have hascii : ∀ x ∈ g :: t.takeWhile Glyph.isAscii, x.isAscii := by
      intro x hx
      obtain rfl | hx := List.mem_cons.1 hx
      · exact hg
      · exact List.mem_takeWhile_imp hx
    rw [percentBytes_of_escapes hstretch, decodeReplacing_encode hascii, ih hrest, List.cons_append,
      List.takeWhile_append_dropWhile]
  | case3 g t hg ih =>
    rw [ih (escapes_of_not_isAscii hg t ▸ h)]

end Text

end RefSweep
