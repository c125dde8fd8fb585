import Mathlib.Data.List.TakeWhile
import RefSweep.Text.Space

/-!
# Stripped text

Stripping takes white space from both ends of a text and nothing else. So a part that begins and
ends with other glyphs occurs in the stripped text exactly if it occurs in the text itself
(`isInfix_strip_iff`), in searches that ignore letter case too: white space has no case.
-/

namespace RefSweep

namespace Glyph

variable {g : Glyph}

theorem isSpace_iff : g.isSpace ↔
    (0x09 ≤ g.code ∧ g.code ≤ 0x0D ∨ 0x1C ≤ g.code ∧ g.code ≤ 0x20) ∨ g.code = 0x85 ∨
      g.code = 0xA0 ∨ g.code = 0x1680 ∨ 0x2000 ≤ g.code ∧ g.code ≤ 0x200A ∨
      0x2028 ≤ g.code ∧ g.code ≤ 0x2029 ∨ g.code = 0x202F ∨ g.code = 0x205F ∨ g.code = 0x3000 := by
  simp only [isSpace, within, List.any_cons, List.any_nil, Bool.or_eq_true, Bool.and_eq_true,
    decide_eq_true_eq, Bool.false_eq_true, or_false]
  omega

/-- White space stands for itself alone in a search that ignores letter case. -/
theorem caseless_of_isSpace (h : g.isSpace) : g.caseless = g := by
  rw [isSpace_iff] at h
  unfold caseless
  split
  · omega
  · omega
  · omega
  · omega
  · cases g with
    | stray low => rfl
    | char c =>
      -- no white space is a capital letter
      have hcapital : ¬ (c.val ≥ 'A'.val ∧ c.val ≤ 'Z'.val) := by
        rintro ⟨hlow, hhigh⟩
        have hlow : 0x41 ≤ c.toNat := hlow
        have hhigh : c.toNat ≤ 0x5A := hhigh
        rw [code] at h
        omega
      exact congrArg char (dif_neg hcapital)

/-- No other glyph stands for a line feed in such a search. -/
theorem caseless_eq_feed_iff : g.caseless = .char '\n' ↔ g = .char '\n' := by
  refine ⟨fun h => ?_, fun h => by rw [h]; rfl⟩
  unfold caseless at h
  split at h
  · cases h
  · cases h
  · cases h
  · cases h
  · cases g with
    | stray low => cases h
    | char c =>
      have hlower : c.toLower = '\n' := char.inj h
      unfold Char.toLower at hlower
      split at hlower
      next hcapital =>
        -- the small letters come after the line feed
        have hcode : (c.val + ('a'.val - 'A'.val)).toNat = 10 := congrArg Char.toNat hlower
        have hshift : ('a'.val - 'A'.val).toNat = 32 := rfl
        have hlow : 65 ≤ c.val.toNat := hcapital.1
        have hhigh : c.val.toNat ≤ 90 := hcapital.2
        rw [UInt32.toNat_add, hshift] at hcode
        omega
      next => rw [hlower]

end Glyph

namespace Text

variable {t part lead tail : Text}

theorem exists_strip (t : Text) : ∃ lead tail, t = lead ++ t.strip ++ tail ∧
    (∀ g ∈ lead, g.isSpace) ∧ ∀ g ∈ tail, g.isSpace := by
  let rest := t.dropWhile Glyph.isSpace
  refine ⟨t.takeWhile Glyph.isSpace, (rest.reverse.takeWhile Glyph.isSpace).reverse, ?_,
    fun g hg => List.mem_takeWhile_imp hg,
    fun g hg => List.mem_takeWhile_imp (List.mem_reverse.1 hg)⟩
  have hrest : t.strip ++ (rest.reverse.takeWhile Glyph.isSpace).reverse = rest := by
    rw [strip, ← List.reverse_append, List.takeWhile_append_dropWhile, List.reverse_reverse]
  rw [List.append_assoc, hrest, List.takeWhile_append_dropWhile]

/-! ## Parts of a stripped text -/

/-- The text begins and ends with glyphs that are no white space. -/
structure Bounded (t : Text) : Prop where
  first : ∃ g rest, t = g :: rest ∧ g.isSpace = false
  last : ∃ front g, t = front ++ [g] ∧ g.isSpace = false

/-- What does not begin with white space does not begin in white space. -/
theorem isInfix_of_spaces_append (hpart : ∃ g rest, part = g :: rest ∧ g.isSpace = false)
    (hlead : ∀ g ∈ lead, g.isSpace) (h : part <:+: lead ++ t) : part <:+: t := by
  induction lead with
  | nil => exact h
  | cons space lead ih =>
    obtain hfirst | hlater := List.infix_cons_iff.1 h
    · obtain ⟨g, rest, rfl, hg⟩ := hpart
      obtain rfl : g = space := (List.cons_prefix_cons.1 hfirst).1
      rw [hlead g (.head _)] at hg
      cases hg
    · exact ih (fun g hg => hlead g (.tail _ hg)) hlater

theorem isInfix_padded_iff (hpart : part.Bounded) (hlead : ∀ g ∈ lead, g.isSpace)
    (htail : ∀ g ∈ tail, g.isSpace) : part <:+: lead ++ t ++ tail ↔ part <:+: t := by
  constructor
  · intro h
    rw [List.append_assoc] at h
    have hfrom := isInfix_of_spaces_append hpart.first hlead h
    -- the same from the other end
    obtain ⟨front, g, hback, hg⟩ := hpart.last
    have hreverse : part.reverse = g :: front.reverse := by simp [hback]
    rw [← List.reverse_infix, List.reverse_append] at hfrom
    exact List.reverse_infix.1 (isInfix_of_spaces_append ⟨g, front.reverse, hreverse, hg⟩
      (fun g hg => htail g (List.mem_reverse.1 hg)) hfrom)
  · exact fun h => h.trans (List.infix_append lead t tail)

theorem isInfix_strip_iff (hpart : part.Bounded) :
    part <:+: t.strip.map Glyph.caseless ↔ part <:+: t.map Glyph.caseless := by
  obtain ⟨lead, tail, ht, hlead, htail⟩ := exists_strip t
  have hspaces : ∀ {s : Text}, (∀ g ∈ s, g.isSpace) → s.map Glyph.caseless = s := fun hs =>
    (List.map_congr_left fun g hg => Glyph.caseless_of_isSpace (hs g hg)).trans (List.map_id _)
  have hmap : t.map Glyph.caseless = lead ++ t.strip.map Glyph.caseless ++ tail := by
    conv => lhs; rw [ht]
    rw [List.map_append, List.map_append, hspaces hlead, hspaces htail]
  rw [hmap, isInfix_padded_iff hpart hlead htail]

end Text

end RefSweep
