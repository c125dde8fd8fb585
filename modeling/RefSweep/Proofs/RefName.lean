import RefSweep.Proofs.Text.Split
import RefSweep.RefName

/-!
# The grammar of reference names

Reading a name checks the text as a whole first and then its segments one by one. `Grammatical` says
what is accepted without cutting the text into segments: each rule on segments is one on what may
stand beside a slash or at an end of the text. Main statements: `parse_exact`, a text is accepted
exactly if it is grammatical, and reading and writing names are inverse to each other;
`not_forbidden`, an accepted name holds no control character, no space and no wildcard anywhere.
-/

namespace RefSweep

namespace Segment

/-- The forbidden glyphs are the controls, the space and seven signs. Stray bytes are never
forbidden, so a name may hold bytes that spell nothing. -/
theorem isForbidden_iff {g : Glyph} :
    isForbidden g ↔ ∃ c : Char, g = .char c ∧
      (c ≤ ' ' ∨ c = '\x7f' ∨ c ∈ ['~', '^', ':', '?', '*', '[', '\x5c']) := by
  -- the two ranges are the controls with the space, and the delete character
  have hcodes : g.within [(0x00, 0x20), (0x7F, 0x7F)] ↔ g.code ≤ 0x20 ∨ g.code = 0x7F := by
    simp only [Glyph.within, List.any_cons, List.any_nil, Bool.or_eq_true, Bool.and_eq_true,
      decide_eq_true_eq, Bool.false_eq_true, or_false]
    omega
  rw [isForbidden, Bool.or_eq_true, hcodes]
  cases g with
  | char c =>
    have hspace : c ≤ ' ' ↔ c.toNat ≤ 0x20 := Iff.rfl
    have hdelete : c = '\x7f' ↔ c.toNat = 0x7F := Char.toNat_inj.symm
    simp [Glyph.code, Glyph.isOneOf, hspace, hdelete, or_assoc]
  | stray low =>
    have hhigh : ¬ (0xDC80 + low.val ≤ 0x20 ∨ 0xDC80 + low.val = 0x7F) := by omega
    simp [Glyph.code, Glyph.isOneOf, hhigh]

theorem fault?_eq_none_iff {s : Text} :
    fault? s = none ↔ s ≠ [] ∧ ¬ Text.of "." <+: s ∧ ¬ Text.of ".lock" <:+ s ∧
      ¬ Text.of ".." <:+: s ∧ ¬ Text.of "@\x7b" <:+: s ∧ ¬ ∃ g ∈ s, isForbidden g := by
  have hdot : s.startsWith ['.'] = true ↔ Text.of "." <+: s := List.isPrefixOf_iff_prefix
  have hlock : s.endsWith (Text.of ".lock") = true ↔ Text.of ".lock" <:+ s :=
    List.isSuffixOf_iff_suffix
  rw [← hdot, ← hlock, ← Text.includes_iff, ← Text.includes_iff, ← List.any_eq_true]
  unfold fault?
  grind

end Segment

/-- What is not forbidden is above the control characters and the space. -/
theorem Glyph.code_of_not_forbidden {g : Glyph} (h : Segment.isForbidden g = false) :
    0x20 < g.code := by
  have hcode := (Bool.or_eq_false_iff.1 h).1
  rw [← Bool.not_eq_true] at hcode
  simp only [within, List.any_cons, List.any_nil, Bool.or_eq_true, Bool.and_eq_true,
    decide_eq_true_eq, Bool.false_eq_true, or_false] at hcode
  omega

namespace RefName

theorem fault?_eq_none_iff {t : Text} :
    fault? t = none ↔ t ≠ [] ∧ ¬ Text.of "/" <+: t ∧ ¬ Text.of "/" <:+ t ∧ ¬ Text.of "//" <:+: t ∧
      ¬ Text.of "." <:+ t ∧ ∀ s ∈ t.split '/', Segment.fault? s = none := by
  have hstart : t.startsWith ['/'] = true ↔ Text.of "/" <+: t := List.isPrefixOf_iff_prefix
  have hend : t.endsWith ['/'] = true ↔ Text.of "/" <:+ t := List.isSuffixOf_iff_suffix
  have hdot : t.endsWith ['.'] = true ↔ Text.of "." <:+ t := List.isSuffixOf_iff_suffix
  have hsegments : ((t.split '/').findSome? Segment.fault?).map NameFault.segment = none ↔
      ∀ s ∈ t.split '/', Segment.fault? s = none := by
    rw [Option.map_eq_none_iff, List.findSome?_eq_none_iff]
  rw [← hstart, ← hend, ← hdot, ← Text.includes_iff, ← hsegments]
  unfold fault?
  grind

/-! ## The grammar -/

/-- What makes a text a reference name. -/
structure Grammatical (t : Text) : Prop where
  nonempty : t ≠ []
  noSlashAtStart : ¬ Text.of "/" <+: t
  noSlashAtEnd : ¬ Text.of "/" <:+ t
  noDoubleSlash : ¬ Text.of "//" <:+: t
  noDotAtStart : ¬ Text.of "." <+: t
  noDotAfterSlash : ¬ Text.of "/." <:+: t
  noLockAtEnd : ¬ Text.of ".lock" <:+ t
  noLockBeforeSlash : ¬ Text.of ".lock/" <:+: t
  noDoubleDot : ¬ Text.of ".." <:+: t
  noAtBrace : ¬ Text.of "@\x7b" <:+: t
  /-- Neither a control character nor a space, and none of `~ ^ : ? * [ \`. -/
  characters : ∀ c : Char, .char c ∈ t →
    ¬ (c ≤ ' ' ∨ c = '\x7f' ∨ c ∈ ['~', '^', ':', '?', '*', '[', '\x5c'])
  noDotAtEnd : ¬ Text.of "." <:+ t

/-- What makes a sequence of segments a reference name. -/
structure WellFormed (n : RefName) : Prop where
  nonempty : n.segments ≠ []
  separate : ∀ s ∈ n.segments, .char '/' ∉ s
  accepted : ∀ s ∈ n.segments, Segment.fault? s = none
  noDotAtEnd : ∀ s ∈ n.segments.getLast?, ¬ Text.of "." <:+ s

/-- The rules on segments as rules on the whole text: a segment ends at a slash or at the end of the
text, and begins after a slash or at its beginning. -/
theorem segments_accepted_iff {t : Text} :
    (∀ s ∈ t.split '/', Segment.fault? s = none) ↔
      ¬ (t = [] ∨ Text.of "/" <+: t ∨ Text.of "/" <:+ t ∨ Text.of "//" <:+: t) ∧
      ¬ (Text.of "." <+: t ∨ Text.of "/." <:+: t) ∧
      ¬ (Text.of ".lock" <:+ t ∨ Text.of ".lock/" <:+: t) ∧
      ¬ Text.of ".." <:+: t ∧ ¬ Text.of "@\x7b" <:+: t ∧ ¬ ∃ g ∈ t, Segment.isForbidden g := by
  -- a rule on the pieces reads the same on the text unless it is about one end of a piece
  have hempty : [] ∈ t.split '/' ↔ t = [] ∨ Text.of "/" <+: t ∨ Text.of "/" <:+ t ∨
      Text.of "//" <:+: t := Text.nil_mem_split
  have hdot : (∃ s ∈ t.split '/', Text.of "." <+: s) ↔ Text.of "." <+: t ∨ Text.of "/." <:+: t :=
    Text.exists_piece_isPrefix (by decide)
  have hlock : (∃ s ∈ t.split '/', Text.of ".lock" <:+ s) ↔
      Text.of ".lock" <:+ t ∨ Text.of ".lock/" <:+: t := Text.exists_piece_isSuffix (by decide)
  have hdots : (∃ s ∈ t.split '/', Text.of ".." <:+: s) ↔ Text.of ".." <:+: t :=
    Text.exists_piece_isInfix (by decide)
  have hbrace : (∃ s ∈ t.split '/', Text.of "@\x7b" <:+: s) ↔ Text.of "@\x7b" <:+: t :=
    Text.exists_piece_isInfix (by decide)
  have hchars : (∃ s ∈ t.split '/', ∃ g ∈ s, Segment.isForbidden g) ↔
      ∃ g ∈ t, Segment.isForbidden g := by
    have hslash : ∀ g, Segment.isForbidden g → g ≠ .char '/' := by
      rintro g hg rfl
      exact absurd hg (by decide)
    constructor
    · rintro ⟨s, hs, g, hgs, hg⟩
      exact ⟨g, (Text.exists_piece_mem (hslash g hg)).1 ⟨s, hs, hgs⟩, hg⟩
    · rintro ⟨g, hgt, hg⟩
      obtain ⟨s, hs, hgs⟩ := (Text.exists_piece_mem (hslash g hg)).2 hgt
      exact ⟨s, hs, g, hgs, hg⟩
  rw [← hempty, ← hdot, ← hlock, ← hdots, ← hbrace, ← hchars]
  simp only [Segment.fault?_eq_none_iff]
  grind

theorem fault?_eq_none_iff_grammatical {t : Text} : fault? t = none ↔ Grammatical t := by
  have hchars : (¬ ∃ g ∈ t, Segment.isForbidden g) ↔ ∀ c : Char, .char c ∈ t →
      ¬ (c ≤ ' ' ∨ c = '\x7f' ∨ c ∈ ['~', '^', ':', '?', '*', '[', '\x5c']) := by
    simp only [Segment.isForbidden_iff]
    constructor
    · intro h c hc hbad
      exact h ⟨.char c, hc, c, rfl, hbad⟩
    · rintro h ⟨g, hg, c, rfl, hbad⟩
      exact h c hg hbad
  rw [fault?_eq_none_iff, segments_accepted_iff, hchars]
  constructor
  · rintro ⟨hne, hstart, hend, hslashes, hlast, -, hdot, hlock, hdots, hbrace, hgood⟩
    obtain ⟨hdot, hslashdot⟩ := not_or.1 hdot
    obtain ⟨hlock, hlockslash⟩ := not_or.1 hlock
    exact ⟨hne, hstart, hend, hslashes, hdot, hslashdot, hlock, hlockslash, hdots, hbrace, hgood,
      hlast⟩
  · intro h
    refine ⟨h.nonempty, h.noSlashAtStart, h.noSlashAtEnd, h.noDoubleSlash, h.noDotAtEnd, ?_,
      not_or.2 ⟨h.noDotAtStart, h.noDotAfterSlash⟩, not_or.2 ⟨h.noLockAtEnd, h.noLockBeforeSlash⟩,
      h.noDoubleDot, h.noAtBrace, h.characters⟩
    -- an empty segment means an empty text, a slash at an end or two slashes in a row
    rintro (hnil | hstart | hend | hslashes)
    · exact h.nonempty hnil
    · exact h.noSlashAtStart hstart
    · exact h.noSlashAtEnd hend
    · exact h.noDoubleSlash hslashes

theorem not_forbidden {t : Text} {n : RefName} (h : parse t = .ok n) {g : Glyph} (hg : g ∈ t) :
    Segment.isForbidden g = false := by
  obtain ⟨hfault, -⟩ := parse_eq_ok_iff.1 h
  obtain ⟨-, -, -, -, -, hsegments⟩ := fault?_eq_none_iff.1 hfault
  obtain ⟨-, -, -, -, -, hnone⟩ := segments_accepted_iff.1 hsegments
  exact Bool.eq_false_iff.2 fun hforbidden => hnone ⟨g, hg, hforbidden⟩

/-! ## Reading and writing -/

theorem getLast_isSuffix_text {n : RefName} {s : Text} (h : s ∈ n.segments.getLast?) :
    s <:+ n.text := by
  obtain ⟨segments⟩ := n
  show s <:+ Text.joined ['/'] segments
  change s ∈ segments.getLast? at h
  fun_induction Text.joined ['/'] segments with
  | case1 => cases h
  | case2 t =>
    obtain rfl := Option.some.inj h
    exact List.suffix_rfl
  | case3 t u rest ih =>
    rw [List.getLast?_cons_cons] at h
    exact (ih h).trans (List.suffix_append _ _)

/-- A name that is well formed ends with a dot exactly if its last segment does. -/
theorem noDotAtEnd_iff {n : RefName} (hne : n.segments ≠ []) (hfull : ∀ s ∈ n.segments, s ≠ []) :
    (∀ s ∈ n.segments.getLast?, ¬ Text.of "." <:+ s) ↔ ¬ Text.of "." <:+ n.text := by
  have hlast := List.getLast?_eq_some_getLast hne
  have hsuffix := getLast_isSuffix_text hlast
  have hlength : (Text.of ".").length ≤ (n.segments.getLast hne).length :=
    List.length_pos_iff.2 (hfull _ (List.getLast_mem hne))
  constructor
  · intro h hdot
    exact h _ hlast (List.suffix_of_suffix_length_le hdot hsuffix hlength)
  · intro h s hs hdot
    exact h (hdot.trans (getLast_isSuffix_text hs))

theorem parse_text_iff {n : RefName} : parse n.text = .ok n ↔ n.WellFormed := by
  have hfull : (∀ s ∈ n.segments, Segment.fault? s = none) → ∀ s ∈ n.segments, s ≠ [] :=
    fun h s hs => (Segment.fault?_eq_none_iff.1 (h s hs)).1
  rw [parse_eq_ok_iff, fault?_eq_none_iff]
  constructor
  · rintro ⟨⟨-, -, -, -, hdot, hsegments⟩, hn⟩
    have hsplit : n.segments = n.text.split '/' := congrArg segments hn
    have hne : n.segments ≠ [] := hsplit ▸ Text.split_ne_nil '/' n.text
    rw [← hsplit] at hsegments
    exact ⟨hne, fun s hs => Text.mem_split (hsplit ▸ hs), hsegments,
      (noDotAtEnd_iff hne (hfull hsegments)).2 hdot⟩
  · intro h
    have hsplit : n.text.split '/' = n.segments := Text.split_joined h.nonempty h.separate
    -- no segment is empty, so there is no slash at an end and no two slashes meet
    have hslashes : [] ∉ n.text.split '/' := fun hnil => hfull h.accepted [] (hsplit ▸ hnil) rfl
    rw [Text.nil_mem_split, not_or, not_or, not_or] at hslashes
    obtain ⟨hne, hstart, hend, hdouble⟩ := hslashes
    have hdot := (noDotAtEnd_iff h.nonempty (hfull h.accepted)).1 h.noDotAtEnd
    rw [hsplit]
    exact ⟨⟨hne, hstart, hend, hdouble, hdot, h.accepted⟩, rfl⟩

/-- A text can be read exactly if it is grammatical, and what is read from it is written as it was.
A sequence of segments is what is read from its text exactly if it is well formed. -/
theorem parse_exact (t : Text) (n : RefName) :
    ((∃ parsed, parse t = .ok parsed) ↔ Grammatical t) ∧
      (parse t = .ok n → n.text = t) ∧
      (parse n.text = .ok n ↔ n.WellFormed) := by
  refine ⟨?_, text_parse, parse_text_iff⟩
  rw [← fault?_eq_none_iff_grammatical]
  constructor
  · rintro ⟨parsed, hparsed⟩
    exact (parse_eq_ok_iff.1 hparsed).1
  · intro h
    exact ⟨_, parse_eq_ok_iff.2 ⟨h, rfl⟩⟩

end RefName

end RefSweep
