import RefSweep.Proofs.Git.Listing
import RefSweep.Proofs.Git.Talk

/-!
# Which reference a deletion aims at

Before a reference is deleted, the tool is asked for its name, and prints that and every name below
it, each on a line. The deletion follows if the name is one of the lines that are read. A printed
name is read as the pieces between the line ends that it holds: so a stored name may be missed, and
a piece of a name below may be taken for it. Main statement: `Host.gitDelete_aim`.
-/

namespace RefSweep

/-! ## Lines of printed names -/

/-- The pieces of a text between the line ends that a name may hold. -/
def Text.linePieces (t : Text) : List Text := t.splitOnP Glyph.isNamedLineEnd

namespace Text

variable {t : Text}

theorem splitOnP_congr {p q : Glyph → Bool} (h : ∀ g ∈ t, p g = q g) :
    t.splitOnP p = t.splitOnP q := by
  induction t with
  | nil => rw [List.splitOnP_nil, List.splitOnP_nil]
  | cons g t ih =>
    rw [List.splitOnP_cons_eq_if_modifyHead, List.splitOnP_cons_eq_if_modifyHead, h g (.head _),
      ih fun g hg => h g (.tail _ hg)]

theorem exists_lineEnd (h : ∃ g ∈ t, g.endsLine) :
    ∃ line e rest, t = line ++ e :: rest ∧ (∀ g ∈ line, g.endsLine = false) ∧ e.endsLine := by
  obtain ⟨e, line, rest, hline, he, ht, -⟩ := List.exists_of_eraseP (p := Glyph.endsLine)
    h.choose_spec.1 h.choose_spec.2
  exact ⟨line, e, rest, ht, fun g hg => Bool.eq_false_iff.2 (hline g hg), he⟩

/-- A text without carriage returns that a line feed follows is read as its pieces. -/
theorem lines_append_feed {t : Text} (h : Glyph.char '\r' ∉ t) (rest : Text) :
    lines (t ++ .char '\n' :: rest) = t.splitOnP Glyph.endsLine ++ lines rest := by
  by_cases hend : ∃ g ∈ t, g.endsLine
  · -- what follows the first line end is shorter
    obtain ⟨line, e, u, rfl, hline, he⟩ := exists_lineEnd hend
    have hreturn : e ≠ .char '\r' := by
      rintro rfl
      exact h (by simp)
    have hu := lines_append_feed (t := u) (fun hmem => h (by simp [hmem])) rest
    rw [List.append_assoc, List.cons_append, lines_append_end hline he hreturn, hu,
      List.splitOnP_append_cons_of_forall_mem hline e he, List.cons_append]
  · have hnone : ∀ g ∈ t, g.endsLine = false := by simpa using hend
    rw [lines_append hnone, List.splitOnP_eq_singleton hnone, List.singleton_append]
termination_by t.length

theorem lines_flatMap_feed {names : List Text} (h : ∀ t ∈ names, Glyph.char '\r' ∉ t) :
    lines (names.flatMap (· ++ [.char '\n'])) = names.flatMap (·.splitOnP Glyph.endsLine) := by
  induction names with
  | nil => simp [lines]
  | cons t rest ih =>
    rw [List.flatMap_cons, List.flatMap_cons, List.append_assoc, List.singleton_append,
      lines_append_feed (h t (.head _)), ih fun u hu => h u (.tail _ hu)]

end Text

namespace Git

/-- What the tool prints for names alone: each with a line feed. -/
def printedNames (names : List Bytes) : Bytes := names.flatMap (· ++ [0x0A])

/-- A query for `name` finds this stored name: it is the same one or lies below it. -/
def covers (name stored : Bytes) : Bool := stored == name || (name ++ [0x2F]).isPrefixOf stored

variable {names : List Bytes}

theorem decode_printedNames (names : List Bytes) :
    Utf8.decode (printedNames names) = (names.map Utf8.decode).flatMap (· ++ [.char '\n']) := by
  induction names with
  | nil => simp [printedNames, Utf8.decode]
  | cons b rest ih =>
    have hbytes : printedNames (b :: rest) = b ++ 0x0A :: printedNames rest := by
      simp [printedNames]
    rw [hbytes, Utf8.decode_append (by decide), Utf8.decode_cons (by decide), ih, List.map_cons,
      List.flatMap_cons, List.append_assoc]
    rfl

/-- Accepted names are read as their pieces: each printed name is followed by a line feed, and torn
at the line ends that it holds itself. -/
theorem lines_printedNames (h : ∀ b ∈ names, ∃ m, RefName.parse (Utf8.decode b) = .ok m) :
    (read (printedNames names)).lines = (names.map Utf8.decode).flatMap Text.linePieces := by
  have hallowed : ∀ b ∈ names, ∀ g ∈ Utf8.decode b, Segment.isForbidden g = false := by
    intro b hb g hg
    obtain ⟨m, hm⟩ := h b hb
    exact RefName.not_forbidden hm hg
  have hreturn : ∀ t ∈ names.map Utf8.decode, Glyph.char '\r' ∉ t := by
    intro t ht hmem
    obtain ⟨b, hb, rfl⟩ := List.mem_map.1 ht
    exact absurd (hallowed b hb _ hmem) (by decide)
  have hnone : Glyph.char '\r' ∉ (names.map Utf8.decode).flatMap (· ++ [.char '\n']) := by
    intro hmem
    obtain ⟨t, ht, hmem⟩ := List.mem_flatMap.1 hmem
    exact hreturn t ht (by simpa using hmem)
  rw [read, decode_printedNames, Text.withLineFeeds_eq_self hnone, Text.lines_flatMap_feed hreturn]
  -- the control characters among the line ends are in no name
  refine List.flatMap_congr fun t ht => Text.splitOnP_congr fun g hg => ?_
  obtain ⟨b, hb, rfl⟩ := List.mem_map.1 ht
  have hcode := Glyph.code_of_not_forbidden (hallowed b hb g hg)
  rw [Bool.eq_iff_iff, Glyph.endsLine_iff]
  exact ⟨fun hend => hend.resolve_left (by omega), .inr⟩

end Git

/-! ## The deletion -/

namespace Host

variable {h : Host} {handle : Handle} {n : RefName} {found : Finished}

/-- Where the query for a name reaches the tool, so does the deletion of this name after it. -/
theorem runGit_deletion {path : Path} {name : Text}
    (hran : (h.runGit path (Git.existenceQuery name)).1 = .ok found) :
    let asked := h.spoke ⟨path, Git.existenceQuery name⟩
    asked.runGit path (Git.deletion name) =
      (.ok asked.nextReply.finished, asked.spoke ⟨path, Git.deletion name⟩) := by
  refine h.runGit_again path hran ?_
  have hok : (h.runGit path (Git.existenceQuery name)).1.isOk := by rw [hran]; rfl
  have hnone := ((h.runGit_isOk_iff _ _).1 hok).1
  have hname : name.contains (Glyph.char '\x00') = false := by
    have hall := List.any_eq_false.1 hnone name (by simp [Git.existenceQuery])
    simpa using hall
  simp only [Git.deletion, List.forall_mem_cons]
  exact ⟨by decide, by decide, by decide, hname, nofun⟩

/-- Once the tool was asked for a name, what it found decides alone whether the deletion follows. -/
theorem gitDelete_of_query
    (hran : (h.runGit handle.path (Git.existenceQuery n.text)).1 = .ok found) :
    let answer := gitDelete handle n h
    let asked := h.git.issued ++ [⟨handle.path, Git.existenceQuery n.text⟩]
    if found.code = 0 ∧ n.text ∈ found.out.lines then
      answer.state.git.issued = asked ++ [⟨handle.path, Git.deletion n.text⟩]
    else
      answer.state.git.issued = asked ∧
        answer.result = .error (Error.undeletable n.text .absent) := by
  -- if the query could be run, then the deletion can, since the name stands in both
  have hagain := runGit_deletion hran
  obtain ⟨f, hfailed⟩ | hrun := h.runGit_cases handle.path (Git.existenceQuery n.text)
  · rw [hfailed] at hran
    cases hran
  · rw [hrun] at hran
    obtain rfl := Except.ok.inj hran
    unfold gitDelete
    dsimp only
    rw [hrun]
    dsimp only
    split
    · rw [hagain]
      dsimp only
      split <;> rfl
    · exact ⟨rfl, rfl⟩

/-- When the tool, asked for a name, prints the stored names that are this one or lie below it, the
deletion follows exactly if the name is a piece of one of them: between two line ends that the
printed name holds, or between such a line end and one of its own ends. Otherwise nothing more is
run, and the reference counts as absent. Where none of the printed names holds a line end, and the
name is spelled as its bytes are read, the deletion follows exactly if the name is stored. -/
theorem gitDelete_aim (h : Host) (handle : Handle) (n : RefName) {stored : List Bytes}
    {stderr : Text} (hstored : ∀ b ∈ stored, ∃ m, RefName.parse (Utf8.decode b) = .ok m)
    (hran : (h.runGit handle.path (Git.existenceQuery n.text)).1 = .ok ⟨0, Git.read
      (Git.printedNames (stored.filter (Git.covers (Utf8.encode n.text)))), stderr⟩) :
    let answer := gitDelete handle n h
    let asked := h.git.issued ++ [⟨handle.path, Git.existenceQuery n.text⟩]
    let covered := fun b => b ∈ stored ∧ Git.covers (Utf8.encode n.text) b
    let found := ∃ b, covered b ∧ n.text ∈ (Utf8.decode b).linePieces
    (found → answer.state.git.issued = asked ++ [⟨handle.path, Git.deletion n.text⟩]) ∧
    (¬ found → answer.state.git.issued = asked ∧
      answer.result = .error (Error.undeletable n.text .absent)) ∧
    ((∀ b, covered b → ∀ g ∈ Utf8.decode b, g.isNamedLineEnd = false) →
      Utf8.decode (Utf8.encode n.text) = n.text → (found ↔ Utf8.encode n.text ∈ stored)) := by
  intro answer asked covered found
  have hcovered : ∀ b, b ∈ stored.filter (Git.covers (Utf8.encode n.text)) ↔ covered b :=
    fun b => List.mem_filter
  -- the lines that are compared are the pieces of the printed names, line ends in them included
  have hlines : n.text ∈ (Git.read (Git.printedNames
      (stored.filter (Git.covers (Utf8.encode n.text))))).lines ↔ found := by
    rw [Git.lines_printedNames fun b hb => hstored b (List.mem_filter.1 hb).1]
    simp only [List.mem_flatMap, List.mem_map, exists_exists_and_eq_and, hcovered]
    rfl
  have hquery := gitDelete_of_query hran
  refine ⟨fun hfound => ?_, fun hfound => ?_, fun hwhole hspelled => ?_⟩
  · rwa [if_pos ⟨rfl, hlines.2 hfound⟩] at hquery
  · rwa [if_neg fun hlisted => hfound (hlines.1 hlisted.2)] at hquery
  · -- each printed name is its only piece
    constructor
    · rintro ⟨b, hb, hpiece⟩
      rw [Text.linePieces, List.splitOnP_eq_singleton (hwhole b hb), List.mem_singleton] at hpiece
      rw [hpiece, Utf8.encode_decode]
      exact hb.1
    · intro hmem
      have hb : covered (Utf8.encode n.text) := ⟨hmem, by simp [Git.covers]⟩
      refine ⟨_, hb, ?_⟩
      rw [Text.linePieces, List.splitOnP_eq_singleton (hwhole _ hb), List.mem_singleton, hspelled]

end Host

namespace Git.Sample

/-- A host whose tool prints these names next and then does what it is told. -/
def queried (names : List Bytes) : Host :=
  { host [] with git := ⟨true, [⟨0, printedNames names, []⟩, ⟨0, [], []⟩], []⟩ }

/-- A name that a line end splits. -/
def split : RefName := ⟨["refs", "heads", Text.of "a" ++ .char '\u0085' :: Text.of "b"]⟩

def branch : RefName := ⟨["refs", "heads", "a"]⟩

/-- A name below `refs/heads/a` that ends in a line end and `refs/heads/a`. -/
def below : Bytes := Utf8.encode "refs/heads/a/x\u2028refs/heads/a"

end Git.Sample

open Git.Sample in
/-- A stored name with a line end in it is missed, and a name that is not stored is deleted if one
below it holds it between line ends. -/
theorem Host.gitDelete_aim_missed :
    (Utf8.encode split.text ∈ [Utf8.encode split.text] ∧
      (gitDelete repository split (queried [Utf8.encode split.text])).result =
        .error (Error.undeletable split.text .absent)) ∧
    (Utf8.encode branch.text ∉ [below] ∧
      (gitDelete repository branch (queried [below])).state.git.issued =
        [⟨repository.path, Git.existenceQuery branch.text⟩,
          ⟨repository.path, Git.deletion branch.text⟩]) := by
  have hsplit : ∀ b ∈ [Utf8.encode split.text], ∃ m, RefName.parse (Utf8.decode b) = .ok m := by
    intro b hb
    rw [List.mem_singleton.1 hb]
    exact ⟨split, by decide +kernel⟩
  have hbelow : ∀ b ∈ [below], ∃ m, RefName.parse (Utf8.decode b) = .ok m := by
    intro b hb
    rw [List.mem_singleton.1 hb]
    exact ⟨⟨Utf8.decode below |>.split '/'⟩, by decide +kernel⟩
  -- the query prints the one stored name in both cases
  have hall : [Utf8.encode split.text].filter (Git.covers (Utf8.encode split.text)) =
      [Utf8.encode split.text] := by decide +kernel
  have hlower : [below].filter (Git.covers (Utf8.encode branch.text)) = [below] := by
    decide +kernel
  obtain ⟨-, hmissed, -⟩ := Host.gitDelete_aim (queried [Utf8.encode split.text]) repository split
    hsplit (by rw [hall]; rfl)
  obtain ⟨htaken, -, -⟩ := Host.gitDelete_aim (queried [below]) repository branch hbelow
    (by rw [hlower]; rfl)
  refine ⟨⟨List.mem_singleton.2 rfl, (hmissed ?_).2⟩, by decide +kernel, htaken ?_⟩
  · rintro ⟨b, ⟨hb, -⟩, hpiece⟩
    rw [List.mem_singleton.1 hb] at hpiece
    exact absurd hpiece (by decide +kernel)
  · exact ⟨below, ⟨List.mem_singleton.2 rfl, by decide +kernel⟩, by decide +kernel⟩

end RefSweep
