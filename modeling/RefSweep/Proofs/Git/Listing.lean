import Mathlib.Data.List.Forall2
import RefSweep.Proofs.Git.Names
import RefSweep.Proofs.RefName
import RefSweep.Proofs.Text.Digits

/-!
# Reading back what the tool prints

The tool prints a line for each reference: the target, a space, the bytes of the name, a line feed.
Reading such a listing gives the references back as long as no name holds a character that ends a
line too. Control characters are not accepted in names, but three line ends of Unicode are: a name
with one of them is torn apart. Main statement: `Host.gitReferences_inverts`.
-/

namespace RefSweep

/-! ## Lines -/

namespace Text

/-- Without carriage returns there is nothing to translate. -/
theorem withLineFeeds_eq_self {t : Text} (h : Glyph.char '\r' ∉ t) : t.withLineFeeds = t := by
  fun_induction withLineFeeds t with
  | case1 t ih => exact absurd List.mem_cons_self h
  | case2 t _ ih => exact absurd List.mem_cons_self h
  | case3 g t _ _ ih => rw [ih fun hmem => h (.tail _ hmem)]
  | case4 => rfl

/-- Any line end but a carriage return, which may be half of one, ends the line in front of it. -/
theorem lines_append_end {line : Text} (h : ∀ g ∈ line, g.endsLine = false) {e : Glyph}
    (he : e.endsLine) (hreturn : e ≠ .char '\r') (rest : Text) :
    lines (line ++ e :: rest) = line :: lines rest := by
  have hfront : ∀ g ∈ line, (!g.endsLine) = true := fun g hg => by rw [h g hg]; rfl
  have hstop : (e :: rest).takeWhile (!·.endsLine) = [] ∧
      (e :: rest).dropWhile (!·.endsLine) = e :: rest := by simp [he]
  -- only a carriage return may take a second glyph along with it
  have hafter : afterEnd (e :: rest) = rest := by
    unfold afterEnd
    split
    next heq => exact absurd (List.cons.inj heq).1 hreturn
    · rfl
  obtain ⟨g, t, hcons⟩ : ∃ g t, line ++ e :: rest = g :: t :=
    List.exists_cons_of_ne_nil (by simp)
  rw [hcons, lines, ← hcons, List.takeWhile_append_of_pos hfront,
    List.dropWhile_append_of_pos hfront, hstop.1, hstop.2, hafter, List.append_nil]

/-- A line feed ends the line in front of it. -/
theorem lines_append {line : Text} (h : ∀ g ∈ line, g.endsLine = false) (rest : Text) :
    lines (line ++ .char '\n' :: rest) = line :: lines rest :=
  lines_append_end h (by decide) (by decide) rest

end Text

/-! ## Characters by their codes -/

namespace Glyph

/-- The line ends that a name may hold: next line, line separator, paragraph separator. -/
def isNamedLineEnd (g : Glyph) : Bool := g.within [(0x85, 0x85), (0x2028, 0x2029)]

variable {g : Glyph}

/-- The line ends that a name may hold, by their codes. -/
theorem isNamedLineEnd_iff :
    g.isNamedLineEnd ↔ g.code = 0x85 ∨ 0x2028 ≤ g.code ∧ g.code ≤ 0x2029 := by
  simp only [isNamedLineEnd, within, List.any_cons, List.any_nil, Bool.or_eq_true,
    Bool.and_eq_true, decide_eq_true_eq, Bool.false_eq_true, or_false]
  omega

/-- All line ends by their codes: the control characters among them, which no name holds, and the
three that a name may hold. -/
theorem endsLine_iff :
    g.endsLine ↔ (0x0A ≤ g.code ∧ g.code ≤ 0x0D ∨ 0x1C ≤ g.code ∧ g.code ≤ 0x1E) ∨
      g.isNamedLineEnd := by
  rw [isNamedLineEnd_iff]
  simp only [endsLine, within, List.any_cons, List.any_nil, Bool.or_eq_true, Bool.and_eq_true,
    decide_eq_true_eq, Bool.false_eq_true, or_false]
  omega

end Glyph

/-! ## The printed listing -/

namespace Git

/-- A reference as the tool prints it: its target, and the bytes of its name. -/
structure Printed where
  target : Text
  name : Bytes

/-- The line of a reference: target, space, name, line feed. -/
def Printed.line (p : Printed) : Bytes := Utf8.encode p.target ++ 0x20 :: (p.name ++ [0x0A])

/-- What the tool prints for these references. -/
def printed (entries : List Printed) : Bytes := entries.flatMap Printed.line

/-- What is printed stands for this reference: the target is hexadecimal, and the bytes of the name
spell a name that is accepted. -/
structure Printed.Spells (p : Printed) (r : Reference) : Prop where
  target : r.target = p.target
  hexadecimal : ∀ g ∈ p.target, g.hexDigit?.isSome
  name : RefName.parse (Utf8.decode p.name) = .ok r.name

/-- The line of a reference as it is read. -/
def lineOf (r : Reference) : Text := r.target ++ .char ' ' :: r.name.text

/-- A reference whose line is read as it was printed. -/
structure Legible (r : Reference) : Prop where
  target : ∀ g ∈ r.target, g.hexDigit?.isSome
  parsed : RefName.parse r.name.text = .ok r.name

variable {p : Printed} {r : Reference} {entries : List Printed} {refs : List Reference}

namespace Printed.Spells

theorem text_name (h : p.Spells r) : r.name.text = Utf8.decode p.name := RefName.text_parse h.name

/-- A reference that is printed by its hexadecimal target and an accepted name is read as it was
printed, unless its line is torn. -/
theorem legible (h : p.Spells r) : Legible r where
  target := h.target ▸ h.hexadecimal
  parsed := h.text_name ▸ h.name

/-- The bytes of a name are those of the reference. -/
theorem encode_name (h : p.Spells r) : Utf8.encode r.name.text = p.name := by
  rw [h.text_name, Utf8.encode_decode]

/-- The line of a reference is decoded by itself, as it ends in a line feed, which belongs to no
other character. -/
theorem decode_line (h : p.Spells r) (rest : Bytes) :
    Utf8.decode (p.line ++ rest) = lineOf r ++ .char '\n' :: Utf8.decode rest := by
  -- a target is hexadecimal, so its glyphs are characters of ASCII
  have hcharacters : ∀ g ∈ p.target, Text.isStray g = false := fun g hg => by
    have hlow := Glyph.code_of_hexDigit (h.hexadecimal g hg)
    cases g with
    | char c => rfl
    | stray low =>
      rw [Glyph.code] at hlow
      omega
  -- the blank after the target and the line feed after the name are low bytes, at which one may cut
  have hbytes : p.line ++ rest = Utf8.encode p.target ++ 0x20 :: (p.name ++ 0x0A :: rest) := by
    simp [Printed.line]
  have hname : Utf8.decode (p.name ++ 0x0A :: rest) =
      r.name.text ++ .char '\n' :: Utf8.decode rest := by
    rw [Utf8.decode_append (by decide), Utf8.decode_cons (by decide), h.text_name]
    rfl
  rw [hbytes, Utf8.decode_encode_append hcharacters, Utf8.decode_cons (by decide), hname, lineOf,
    h.target, List.append_assoc]
  rfl

end Printed.Spells

/-- The printed bytes are read as the lines of the references. -/
theorem decode_printed (h : List.Forall₂ Printed.Spells entries refs) :
    Utf8.decode (printed entries) = refs.flatMap fun r => lineOf r ++ [.char '\n'] := by
  induction h with
  | nil => simp [printed, Utf8.decode]
  | cons hfirst _ ih =>
    rw [printed, List.flatMap_cons, hfirst.decode_line, List.flatMap_cons, ← ih, List.append_assoc]
    rfl

namespace Legible

theorem allowed (h : Legible r) {g : Glyph} (hg : g ∈ r.name.text) :
    Segment.isForbidden g = false := RefName.not_forbidden h.parsed hg

/-- No line of a legible reference holds a carriage return, so none is translated. -/
theorem return_not_mem (h : Legible r) : Glyph.char '\r' ∉ lineOf r ++ [.char '\n'] := by
  have htarget : Glyph.char '\r' ∉ r.target := fun hmem =>
    absurd (Glyph.code_of_hexDigit (h.target _ hmem)).1 (by decide)
  have hname : Glyph.char '\r' ∉ r.name.text := fun hmem =>
    absurd (h.allowed hmem) (by decide)
  simp [lineOf, htarget, hname]

/-- A legible line is torn at most at one of the three line ends that a name may hold. -/
theorem endsLine_eq_false (h : Legible r) (hname : ∀ g ∈ r.name.text, g.isNamedLineEnd = false) :
    ∀ g ∈ lineOf r, g.endsLine = false := by
  intro g hg
  rcases List.mem_append.1 hg with htarget | hrest
  · refine Bool.eq_false_iff.2 fun hend => ?_
    -- a digit is no line end; an allowed glyph of a name is none of the control characters
    have hcode := Glyph.code_of_hexDigit (h.target g htarget)
    rw [Glyph.endsLine_iff, Glyph.isNamedLineEnd_iff] at hend
    omega
  · rcases List.mem_cons.1 hrest with rfl | hmem
    · decide
    · refine Bool.eq_false_iff.2 fun hend => ?_
      have hcode := Glyph.code_of_not_forbidden (h.allowed hmem)
      rcases Glyph.endsLine_iff.1 hend with hcontrol | hnamed
      · omega
      · exact Bool.eq_false_iff.1 (hname g hmem) hnamed

end Legible

/-- Lines that hold no line end are found again as they were printed. -/
theorem lines_flatMap (h : ∀ r ∈ refs, ∀ g ∈ lineOf r, g.endsLine = false) :
    Text.lines (refs.flatMap fun r => lineOf r ++ [.char '\n']) = refs.map lineOf := by
  induction refs with
  | nil => simp [Text.lines]
  | cons r rest ih =>
    have hrest := ih fun r hr => h r (.tail _ hr)
    rw [List.flatMap_cons, List.append_assoc, List.singleton_append,
      Text.lines_append (h r (.head _)), hrest, List.map_cons]

/-- The lines of legible references are read as these references, in their order. -/
theorem parseListing_map_lineOf (h : ∀ r ∈ refs, Legible r) :
    parseListing (refs.map lineOf) = ⟨refs, none⟩ := by
  induction refs with
  | nil => rfl
  | cons r rest ih =>
    have hr := h r (.head _)
    have hspace : Glyph.char ' ' ∉ r.target := fun hmem =>
      absurd (Glyph.code_of_hexDigit (hr.target _ hmem)).1 (by decide)
    have hcut : (lineOf r).cut ' ' = (r.target, r.name.text) := Text.cut_append hspace _
    have hne : lineOf r ≠ [] := by simp [lineOf]
    rw [List.map_cons, parseListing, if_neg hne, hcut]
    dsimp only
    rw [hr.parsed, ih fun r hr => h r (.tail _ hr)]

/-- Lines that hold no other line end are read as the references that they were printed for. -/
theorem parseListing_printed (h : List.Forall₂ Printed.Spells entries refs)
    (hlegible : ∀ r ∈ refs, Legible r)
    (hnames : ∀ r ∈ refs, ∀ g ∈ r.name.text, g.isNamedLineEnd = false) :
    parseListing (read (printed entries)).lines = ⟨refs, none⟩ := by
  have hreturn : Glyph.char '\r' ∉ refs.flatMap fun r => lineOf r ++ [.char '\n'] := by
    intro hmem
    obtain ⟨r, hr, hmem⟩ := List.mem_flatMap.1 hmem
    exact (hlegible r hr).return_not_mem hmem
  rw [read, decode_printed h, Text.withLineFeeds_eq_self hreturn,
    lines_flatMap fun r hr => (hlegible r hr).endsLine_eq_false (hnames r hr),
    parseListing_map_lineOf hlegible]

end Git

/-- A listing that the tool prints is read as the references that it was printed for, and none of
their bytes is lost, exactly if no name holds a line end of its own. -/
theorem Host.gitReferences_inverts (h : Host) (handle : Handle) {entries : List Git.Printed}
    {refs : List Reference} {stderr : Text}
    (hspelled : List.Forall₂ Git.Printed.Spells entries refs)
    (hran : (h.runGit handle.path Git.enumeration).1 =
      .ok ⟨0, Git.read (Git.printed entries), stderr⟩) :
    refs.map (fun r => Utf8.encode r.name.text) = entries.map (·.name) ∧
      ((h.gitReferences handle).1 = ⟨refs, none⟩ ↔
        ∀ r ∈ refs, ∀ g ∈ r.name.text, g.isNamedLineEnd = false) := by
  -- the bytes of the names survive whether or not the lines are torn
  have hbytes : refs.map (fun r => Utf8.encode r.name.text) = entries.map (·.name) := by
    clear hran
    induction hspelled with
    | nil => rfl
    | cons hfirst _ ih => rw [List.map_cons, List.map_cons, ih, hfirst.encode_name]
  have hlegible : ∀ r ∈ refs, Git.Legible r := by
    clear hran hbytes
    induction hspelled with
    | nil => exact fun r hr => absurd hr List.not_mem_nil
    | cons hfirst _ ih => exact List.forall_mem_cons.2 ⟨hfirst.legible, ih⟩
  -- the command ran with status zero, so the listing is what its output is parsed to
  have hlisting : (h.gitReferences handle).1 =
      Git.parseListing (Git.read (Git.printed entries)).lines := by
    unfold gitReferences
    split
    next heq => rw [heq] at hran; cases hran
    next heq =>
      rw [heq] at hran
      rw [Except.ok.inj hran]
      rfl
  refine ⟨hbytes, fun hsame r hr g hg => ?_, fun hnames => ?_⟩
  · -- a name that was read is the end of a line, and holds no line end
    have hmem : r ∈ (Git.parseListing (Git.read (Git.printed entries)).lines).references := by
      rw [← hlisting, hsame]
      exact hr
    obtain ⟨-, line, hline, hsuffix⟩ := Git.mem_parseListing hmem
    have hline := (Text.line_isInfix hline).2 g (hsuffix.subset hg)
    refine Bool.eq_false_iff.2 fun hend => ?_
    rw [Glyph.endsLine_iff.2 (.inr hend)] at hline
    cases hline
  · rw [hlisting]
    exact Git.parseListing_printed hspelled hlegible hnames

namespace Git.Sample

def repository : Handle := ⟨.git, ⟨"rid", by decide⟩, ⟨.workingDirectory, ["rid"]⟩⟩

/-- A host whose tool prints these references next. -/
def host (entries : List Printed) : Host where
  files := ⟨[(repository.path, .directory)]⟩
  git := ⟨true, [⟨0, printed entries, []⟩], []⟩
  refusals := []

/-- A name with a byte that spells nothing, and one with a character of three bytes. -/
def entries : List Printed :=
  [⟨"e69de29b", Utf8.encode "refs/heads/caf" ++ [0xE9]⟩, ⟨"4B825DC6", Utf8.encode "refs/tags/€"⟩]

def references : List Reference :=
  [⟨⟨["refs", "heads", Text.of "caf" ++ [.stray 0x69]]⟩, "e69de29b"⟩,
    ⟨⟨["refs", "tags", "€"]⟩, "4B825DC6"⟩]

/-- A name with the character U+0085 in it, in two bytes. -/
def torn : Printed := ⟨"e69de29b", Utf8.encode "refs/heads/a" ++ [0xC2, 0x85] ++ Utf8.encode "b"⟩

def tornReference : Reference :=
  ⟨⟨["refs", "heads", Text.of "a" ++ .char '\u0085' :: Text.of "b"]⟩, "e69de29b"⟩

end Git.Sample

open Git.Sample in
theorem Host.gitReferences_inverts_bytes :
    List.Forall₂ Git.Printed.Spells entries references ∧
      ((host entries).gitReferences repository).1 = ⟨references, none⟩ := by
  have hspelled : List.Forall₂ Git.Printed.Spells entries references :=
    .cons ⟨rfl, by decide, by decide +kernel⟩ (.cons ⟨rfl, by decide, by decide +kernel⟩ .nil)
  obtain ⟨-, hlisting⟩ := Host.gitReferences_inverts (host entries) repository hspelled rfl
  exact ⟨hspelled, hlisting.2 (by decide)⟩

open Git.Sample in
/-- A name that holds a line end of its own is torn apart: what follows the line end is taken for a
line without a name. -/
theorem Host.gitReferences_torn :
    List.Forall₂ Git.Printed.Spells [torn] [tornReference] ∧
      ((host [torn]).gitReferences repository).1.failure =
        some (Error.unreadable (.unexpectedName [] .empty)) :=
  ⟨.cons ⟨rfl, by decide, by decide +kernel⟩ .nil, by decide +kernel⟩

end RefSweep
