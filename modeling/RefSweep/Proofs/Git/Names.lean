import RefSweep.Host.GitRepository
import RefSweep.Proofs.Text.Utf8

/-!
# Where the names in a listing come from

A name that a listing yields went through decoding, line endings, cutting into lines, and reading.
None of these steps invents anything: the name, encoded again, stands in the bytes that the tool
printed. Main statements: `Git.mem_parseListing` and `Git.encode_isInfix_of_line`.
-/

namespace RefSweep

namespace Utf8

theorem encode_isInfix {part t : Text} (h : part <:+: t) : encode part <:+: encode t := by
  obtain ⟨before, after, rfl⟩ := h
  rw [encode_append, encode_append]
  exact ⟨encode before, encode after, rfl⟩

end Utf8

namespace Text

/-! ## Line endings -/

/-- Reading line endings puts nothing into a text but line feeds: a part of what it gives that holds
none was a part before, and so was a beginning. -/
theorem parts_withLineFeeds (t : Text) : ∀ part : Text, Glyph.char '\n' ∉ part →
    (part <+: t.withLineFeeds → part <+: t) ∧ (part <:+: t.withLineFeeds → part <:+: t) := by
  -- a part of a line feed and what follows it begins after the line feed, or is empty
  have hskip {part u : Text} (hpart : Glyph.char '\n' ∉ part) (h : part <+: .char '\n' :: u) :
      part = [] := by
    cases part with
    | nil => rfl
    | cons first rest =>
      obtain ⟨rfl, -⟩ := List.cons_prefix_cons.1 h
      exact absurd List.mem_cons_self hpart
  fun_induction withLineFeeds t with
  | case1 t ih =>
    intro part hpart
    refine ⟨fun h => hskip hpart h ▸ List.nil_prefix, fun h => ?_⟩
    rcases List.infix_cons_iff.1 h with h | h
    · exact hskip hpart h ▸ List.nil_infix
    · exact ((ih part hpart).2 h).trans ⟨[.char '\r', .char '\n'], [], by simp⟩
  | case2 t _ ih =>
    intro part hpart
    refine ⟨fun h => hskip hpart h ▸ List.nil_prefix, fun h => ?_⟩
    rcases List.infix_cons_iff.1 h with h | h
    · exact hskip hpart h ▸ List.nil_infix
    · exact ((ih part hpart).2 h).trans (List.suffix_cons _ _).isInfix
  | case3 g t _ _ ih =>
    intro part hpart
    have hbeginning : part <+: g :: withLineFeeds t → part <+: g :: t := by
      intro h
      cases part with
      | nil => exact List.nil_prefix
      | cons first rest =>
        obtain ⟨rfl, hrest⟩ := List.cons_prefix_cons.1 h
        exact List.cons_prefix_cons.2 ⟨rfl, (ih rest fun hmem => hpart (.tail _ hmem)).1 hrest⟩
    refine ⟨hbeginning, fun h => ?_⟩
    rcases List.infix_cons_iff.1 h with h | h
    · exact (hbeginning h).isInfix
    · exact ((ih part hpart).2 h).trans (List.suffix_cons _ _).isInfix
  | case4 => exact fun part _ => ⟨id, id⟩

/-! ## Lines -/

theorem afterEnd_isSuffix (t : Text) : afterEnd t <:+ t := by
  unfold afterEnd
  split
  · exact ⟨[.char '\r', .char '\n'], rfl⟩
  · exact List.tail_suffix _

/-- The lines are parts of the text, and hold nothing that ends a line. -/
theorem line_isInfix {t line : Text} (h : line ∈ t.lines) :
    line <:+: t ∧ ∀ g ∈ line, g.endsLine = false := by
  fun_induction lines t with
  | case1 => exact absurd h List.not_mem_nil
  | case2 g t ih =>
    rcases List.mem_cons.1 h with rfl | h
    · refine ⟨(List.takeWhile_prefix _).isInfix, fun c hc => ?_⟩
      have hall := List.all_eq_true.1 (List.all_takeWhile (p := (!·.endsLine))) c hc
      simpa using hall
    · obtain ⟨hwithin, hends⟩ := ih h
      have hrest := (afterEnd_isSuffix ((g :: t).dropWhile (!·.endsLine))).trans
        (List.dropWhile_suffix _)
      exact ⟨hwithin.trans hrest.isInfix, hends⟩

theorem cut_isSuffix (sep : Glyph) (t : Text) : (t.cut sep).2 <:+ t :=
  (List.tail_suffix _).trans (List.dropWhile_suffix _)

end Text

namespace Git

/-- A part of a line that was read from bytes stands in the bytes. -/
theorem encode_isInfix_of_line {bytes : Bytes} {line part : Text}
    (hline : line ∈ (read bytes).lines) (hpart : part <:+: line) : Utf8.encode part <:+: bytes := by
  obtain ⟨hwithin, hends⟩ := Text.line_isInfix hline
  have hfeed : Glyph.char '\n' ∉ part := fun hmem =>
    absurd (hends _ (hpart.subset hmem)) (by decide)
  have hdecoded := (Text.parts_withLineFeeds (Utf8.decode bytes) part hfeed).2 (hpart.trans hwithin)
  rw [← Utf8.encode_decode bytes]
  exact Utf8.encode_isInfix hdecoded

/-- Each reference of a listing has a name that can be read, at the end of one of the lines. -/
theorem mem_parseListing {lines : List Text} {r : Reference}
    (h : r ∈ (parseListing lines).references) :
    RefName.parse r.name.text = .ok r.name ∧ ∃ line ∈ lines, r.name.text <:+ line := by
  fun_induction parseListing lines with
  | case1 => exact absurd h List.not_mem_nil
  | case2 rest ih =>
    obtain ⟨hparse, other, hother, hsuffix⟩ := ih h
    exact ⟨hparse, other, .tail _ hother, hsuffix⟩
  | case3 => exact absurd h List.not_mem_nil
  -- the name is what stands behind the first blank of its line
  | case4 line rest _ target name hcut parsed hparse tail ih =>
    rcases List.mem_cons.1 h with rfl | h
    · have htext : parsed.text = name := RefName.text_parse hparse
      refine ⟨by rw [← hparse, htext], line, .head _, ?_⟩
      have hsuffix := Text.cut_isSuffix ' ' line
      rw [hcut] at hsuffix
      rwa [← htext] at hsuffix
    · obtain ⟨hparsed, other, hother, hsuffix⟩ := ih h
      exact ⟨hparsed, other, .tail _ hother, hsuffix⟩

end Git

/-- What git storage lists has names that can be read. -/
theorem Host.parse_of_mem_gitReferences {h : Host} {handle : Handle} {r : Reference}
    (hr : r ∈ (h.gitReferences handle).1.references) : RefName.parse r.name.text = .ok r.name := by
  unfold gitReferences at hr
  split at hr
  · cases hr
  · split at hr
    · exact (Git.mem_parseListing hr).1
    · cases hr

end RefSweep
