import Mathlib.Data.List.TakeWhile
import RefSweep.Text.Basic

/-!
# The pieces of a split text

A piece is a stretch without separators that begins at the start of the text or after a separator,
and ends at the end of the text or before one (`mem_split_iff`). So a part without separators that
occurs in a text occurs in one of its pieces, and one that occurs at the start or the end of a piece
can be told from the text alone.
-/

namespace RefSweep.Text

variable {sep : Glyph} {t part piece : Text}

/-- Two lists of pieces are joined each by itself, with one separator between them. -/
theorem joined_append (sep : Text) {first rest : List Text} (hfirst : first ≠ [])
    (hrest : rest ≠ []) :
    joined sep (first ++ rest) = joined sep first ++ sep ++ joined sep rest := by
  -- by induction on the first list, whose last piece is followed by one more separator
  induction first with
  | nil => exact absurd rfl hfirst
  | cons t more ih =>
    cases more with
    | nil =>
      obtain ⟨u, others, rfl⟩ := List.exists_cons_of_ne_nil hrest
      rfl
    | cons u others =>
      have htail := ih (List.cons_ne_nil u others)
      simp only [List.cons_append, joined] at htail ⊢
      rw [htail]
      simp only [List.append_assoc]

/-- A separator in a text parts the pieces before it from those after it, so a text can be cut at
any of its separators. -/
theorem split_append (sep : Glyph) (s t : Text) :
    split sep (s ++ sep :: t) = split sep s ++ split sep t := by
  induction s with
  | nil => simp [split]
  | cons g s ih =>
    have hne := split_ne_nil sep s
    rw [List.cons_append, split, split, ih]
    by_cases hg : g = sep
    · simp [hg]
    · cases hs : split sep s with
      | nil => exact absurd hs hne
      | cons p rest => simp [hg]

/-- A text without the separator is one piece. -/
theorem split_eq_singleton (h : sep ∉ t) : split sep t = [t] := by
  induction t with
  | nil => rfl
  | cons g t ih =>
    have hg : g ≠ sep := fun heq => h (heq ▸ .head _)
    have ht : sep ∉ t := fun hmem => h (.tail _ hmem)
    simp [split, hg, ih ht]

/-- What is put in front of a text without a separator goes into the first piece. -/
theorem split_append_of_notMem {s : Text} (h : sep ∉ s) (t : Text) :
    ∃ piece rest, split sep t = piece :: rest ∧ split sep (s ++ t) = (s ++ piece) :: rest := by
  obtain ⟨piece, rest, ht⟩ := List.exists_cons_of_ne_nil (split_ne_nil sep t)
  refine ⟨piece, rest, ht, ?_⟩
  induction s with
  | nil => exact ht
  | cons g s ih =>
    have hg : g ≠ sep := fun heq => h (heq ▸ .head _)
    have hs := ih fun hmem => h (.tail _ hmem)
    simp [split, hg, hs]

/-- Pieces without the separator are found again after they were joined. There has to be at least
one, as the empty text has one piece too. -/
theorem split_joined {pieces : List Text} (hne : pieces ≠ []) (h : ∀ p ∈ pieces, sep ∉ p) :
    split sep (joined [sep] pieces) = pieces := by
  fun_induction joined [sep] pieces with
  | case1 => exact absurd rfl hne
  | case2 p => exact split_eq_singleton (h p (.head _))
  | case3 p q rest ih =>
    have hrest := ih (List.cons_ne_nil q rest) fun r hr => h r (.tail _ hr)
    have hp : split sep p = [p] := split_eq_singleton (h p (.head _))
    rw [List.append_assoc, List.singleton_append, split_append, hp, hrest]
    rfl

/-- A text in which every piece is followed by a separator splits into these pieces and an empty
one. -/
theorem split_terminated {pieces : List Text} (h : ∀ p ∈ pieces, sep ∉ p) :
    split sep (pieces.flatMap (· ++ [sep])) = pieces ++ [[]] := by
  induction pieces with
  | nil => rfl
  | cons p rest ih =>
    have hp : split sep p = [p] := split_eq_singleton (h p (.head _))
    have hrest := ih fun q hq => h q (.tail _ hq)
    rw [List.flatMap_cons, List.append_assoc, List.singleton_append, split_append, hp, hrest]
    rfl

/-- A text is cut at its first separator. -/
theorem cut_append {sep : Glyph} {t : Text} (h : sep ∉ t) (u : Text) :
    (t ++ sep :: u).cut sep = (t, u) := by
  have hfront : ∀ g ∈ t, decide (g ≠ sep) = true := fun g hg =>
    decide_eq_true fun heq => h (heq ▸ hg)
  rw [cut, List.takeWhile_append_of_pos hfront, List.dropWhile_append_of_pos hfront,
    List.takeWhile_cons_of_neg (by simp), List.dropWhile_cons_of_neg (by simp), List.append_nil]
  rfl

/-- A text without the separator is not cut. -/
theorem cut_of_notMem {sep : Glyph} {t : Text} (h : sep ∉ t) : t.cut sep = (t, []) := by
  have hall : ∀ g ∈ t, decide (g ≠ sep) = true := fun g hg =>
    decide_eq_true fun heq => h (heq ▸ hg)
  rw [cut, List.takeWhile_eq_self_iff.2 hall, List.dropWhile_eq_nil_iff.2 hall]
  rfl

/-! ## Where a piece stands -/

/-- A piece can begin after this text. -/
def EndsPiece (sep : Glyph) (t : Text) : Prop := t = [] ∨ ∃ u, t = u ++ [sep]

/-- A piece can end before this text. -/
def StartsPiece (sep : Glyph) (t : Text) : Prop := t = [] ∨ ∃ u, t = sep :: u

/-- A text begins with a stretch without separators, up to the first one or to its end. -/
theorem exists_stretch_before (sep : Glyph) (t : Text) :
    ∃ stretch rest, t = stretch ++ rest ∧ sep ∉ stretch ∧ StartsPiece sep rest := by
  by_cases hmem : sep ∈ t
  · obtain ⟨stretch, u, ht, hstretch⟩ := List.eq_append_cons_of_mem hmem
    exact ⟨stretch, sep :: u, ht, hstretch, .inr ⟨u, rfl⟩⟩
  · exact ⟨t, [], (List.append_nil t).symm, hmem, .inl rfl⟩

/-- A text ends with a stretch without separators, from the last one or from its beginning on. -/
theorem exists_stretch_after (sep : Glyph) (t : Text) :
    ∃ rest stretch, t = rest ++ stretch ∧ sep ∉ stretch ∧ EndsPiece sep rest := by
  obtain ⟨stretch, rest, ht, hstretch, hrest⟩ := exists_stretch_before sep t.reverse
  refine ⟨rest.reverse, stretch.reverse, ?_, by simpa using hstretch, ?_⟩
  · rw [← List.reverse_append, ← ht, List.reverse_reverse]
  · obtain rfl | ⟨u, rfl⟩ := hrest
    · exact .inl rfl
    · exact .inr ⟨u.reverse, List.reverse_cons⟩

/-- A piece stands between two separators, or at an end of the text: in front of it another piece
has ended, and behind it another one begins. -/
theorem mem_split_of_mem {t piece : Text} (h : piece ∈ split sep t) :
    ∃ before after, t = before ++ piece ++ after ∧ EndsPiece sep before ∧ StartsPiece sep after := by
  -- the text up to its first separator is the first piece
  obtain ⟨stretch, rest, ht, hstretch, rfl | ⟨u, rfl⟩⟩ := exists_stretch_before sep t
  · rw [List.append_nil] at ht
    rw [ht, split_eq_singleton hstretch, List.mem_singleton] at h
    exact ⟨[], [], by simp [ht, h], .inl rfl, .inl rfl⟩
  · rw [ht, split_append, split_eq_singleton hstretch, List.singleton_append, List.mem_cons] at h
    obtain rfl | h := h
    · exact ⟨[], sep :: u, ht, .inl rfl, .inr ⟨u, rfl⟩⟩
    · -- the piece is one of what follows the first separator
      have hshorter : u.length < t.length := by
        simp only [ht, List.length_append, List.length_cons]
        omega
      obtain ⟨before, after, hu, hbefore, hafter⟩ := mem_split_of_mem h
      refine ⟨stretch ++ sep :: before, after, by simp [ht, hu], .inr ?_, hafter⟩
      obtain rfl | ⟨v, rfl⟩ := hbefore
      · exact ⟨stretch, rfl⟩
      · exact ⟨stretch ++ sep :: v, by simp⟩
termination_by t.length

/-- The pieces are exactly the parts without separators that stand between two of them or at an end
of the text. -/
theorem mem_split_iff :
    piece ∈ split sep t ↔ sep ∉ piece ∧
      ∃ before after, t = before ++ piece ++ after ∧ EndsPiece sep before ∧ StartsPiece sep after := by
  constructor
  · intro h
    exact ⟨mem_split h, mem_split_of_mem h⟩
  · rintro ⟨hpiece, before, after, rfl, hbefore, hafter⟩
    -- the part is the first piece of what follows it, and a piece of the whole behind a separator
    have hfrom : piece ∈ split sep (piece ++ after) := by
      obtain rfl | ⟨v, rfl⟩ := hafter
      · simp [split_eq_singleton hpiece]
      · simp [split_append, split_eq_singleton hpiece]
    obtain rfl | ⟨u, rfl⟩ := hbefore
    · exact hfrom
    · have hcut : u ++ [sep] ++ piece ++ after = u ++ sep :: (piece ++ after) := by simp
      rw [hcut, split_append]
      exact List.mem_append_right _ hfrom

/-! ## Where a part without separators occurs -/

/-- What is no separator is found in a piece exactly if it is found in the text. -/
theorem exists_piece_mem {g : Glyph} (hg : g ≠ sep) :
    (∃ piece ∈ split sep t, g ∈ piece) ↔ g ∈ t := by
  constructor
  · rintro ⟨piece, hpiece, hin⟩
    obtain ⟨-, before, after, rfl, -⟩ := mem_split_iff.1 hpiece
    simp [hin]
  · intro h
    rw [← joined_split sep t] at h
    obtain hsep | hin := mem_joined h
    · exact absurd (List.mem_singleton.1 hsep) hg
    · exact hin

/-- A part without separators stands within a piece exactly if it stands in the text, as it cannot
reach over a separator. -/
theorem exists_piece_isInfix (hpart : sep ∉ part) :
    (∃ piece ∈ split sep t, part <:+: piece) ↔ part <:+: t := by
  constructor
  · rintro ⟨piece, hpiece, hin⟩
    obtain ⟨-, before, after, rfl, -⟩ := mem_split_iff.1 hpiece
    exact hin.trans (List.infix_append before piece after)
  · rintro ⟨left, right, rfl⟩
    -- the piece reaches from the last separator before the part to the first one after it
    obtain ⟨before, start, rfl, hstart, hbefore⟩ := exists_stretch_after sep left
    obtain ⟨tail, after, rfl, htail, hafter⟩ := exists_stretch_before sep right
    refine ⟨start ++ part ++ tail, mem_split_iff.2 ⟨by simp [hstart, hpart, htail], before, after,
      by simp, hbefore, hafter⟩, List.infix_append start part tail⟩

/-- A piece begins with such a part exactly if the text does, or if the part follows a separator. -/
theorem exists_piece_isPrefix (hpart : sep ∉ part) :
    (∃ piece ∈ split sep t, part <+: piece) ↔ part <+: t ∨ sep :: part <:+: t := by
  constructor
  · rintro ⟨piece, hpiece, tail, rfl⟩
    obtain ⟨-, before, after, rfl, rfl | ⟨u, rfl⟩, -⟩ := mem_split_iff.1 hpiece
    · exact .inl ⟨tail ++ after, by simp⟩
    · exact .inr ⟨u, tail ++ after, by simp⟩
  · intro h
    -- the part begins a piece; what is left of that piece is a stretch up to the next separator
    obtain ⟨before, right, rfl, hbefore⟩ :
        ∃ before right, t = before ++ part ++ right ∧ EndsPiece sep before := by
      obtain ⟨right, rfl⟩ | ⟨u, right, rfl⟩ := h
      · exact ⟨[], right, rfl, .inl rfl⟩
      · exact ⟨u ++ [sep], right, by simp, .inr ⟨u, rfl⟩⟩
    obtain ⟨tail, after, rfl, htail, hafter⟩ := exists_stretch_before sep right
    exact ⟨part ++ tail, mem_split_iff.2 ⟨by simp [hpart, htail], before, after, by simp, hbefore,
      hafter⟩, List.prefix_append part tail⟩

/-- A piece ends with such a part exactly if the text does, or if a separator follows the part. -/
theorem exists_piece_isSuffix (hpart : sep ∉ part) :
    (∃ piece ∈ split sep t, part <:+ piece) ↔ part <:+ t ∨ part ++ [sep] <:+: t := by
  constructor
  · rintro ⟨piece, hpiece, start, rfl⟩
    obtain ⟨-, before, after, rfl, -, rfl | ⟨u, rfl⟩⟩ := mem_split_iff.1 hpiece
    · exact .inl ⟨before ++ start, by simp⟩
    · exact .inr ⟨before ++ start, u, by simp⟩
  · intro h
    -- the same from the other side
    obtain ⟨left, after, rfl, hafter⟩ :
        ∃ left after, t = left ++ part ++ after ∧ StartsPiece sep after := by
      obtain ⟨left, rfl⟩ | ⟨left, u, rfl⟩ := h
      · exact ⟨left, [], by simp, .inl rfl⟩
      · exact ⟨left, sep :: u, by simp, .inr ⟨u, rfl⟩⟩
    obtain ⟨before, start, rfl, hstart, hbefore⟩ := exists_stretch_after sep left
    exact ⟨start ++ part, mem_split_iff.2 ⟨by simp [hpart, hstart], before, after, by simp, hbefore,
      hafter⟩, List.suffix_append start part⟩

/-- A piece is empty where two separators meet each other or one of them an end of the text. -/
theorem nil_mem_split :
    [] ∈ split sep t ↔ t = [] ∨ [sep] <+: t ∨ [sep] <:+ t ∨ [sep, sep] <:+: t := by
  -- an empty piece stands between two borders that meet
  rw [mem_split_iff]
  constructor
  · rintro ⟨-, before, after, rfl, rfl | ⟨u, rfl⟩, rfl | ⟨v, rfl⟩⟩
    · exact .inl rfl
    · exact .inr (.inl ⟨v, rfl⟩)
    · exact .inr (.inr (.inl ⟨u, by simp⟩))
    · exact .inr (.inr (.inr ⟨u, v, by simp⟩))
  · rintro (rfl | ⟨v, rfl⟩ | ⟨u, rfl⟩ | ⟨u, v, rfl⟩)
    · exact ⟨List.not_mem_nil, [], [], rfl, .inl rfl, .inl rfl⟩
    · exact ⟨List.not_mem_nil, [], sep :: v, rfl, .inl rfl, .inr ⟨v, rfl⟩⟩
    · exact ⟨List.not_mem_nil, u ++ [sep], [], by simp, .inr ⟨u, rfl⟩, .inl rfl⟩
    · exact ⟨List.not_mem_nil, u ++ [sep], sep :: v, by simp, .inr ⟨u, rfl⟩, .inr ⟨v, rfl⟩⟩

end RefSweep.Text
