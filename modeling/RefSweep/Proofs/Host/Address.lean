import RefSweep.Proofs.FileTree

/-!
# Where addresses lead

The text of a path is also the address of its file. A question mark in it ends the path there, and a
percent sign may stand for a byte. Without those the address leads where the path leads
(`read_of_literal`, `leadsTo_normal`). With one of them what the address names has fewer glyphs of
ASCII than the text, whatever becomes of the options, so that it leads to another place
(`not_leadsTo`).
-/

namespace RefSweep.Address

variable {t : Text} {p place : Path} {address : Address} {tree : FileTree}

/-- No question mark ends the path, and no percent sign in it stands for a byte. -/
structure Literal (t : Text) : Prop where
  whole : Glyph.char '?' ∉ t
  unescaped : t.escapes = 0

/-- The path with its two dots carried out. -/
def normal (p : Path) : Path := ⟨p.root, (resolved p.parts).reverse⟩

/-- A name that is neither empty nor the one for memory is that of a file, with the two dots in its
path carried out. -/
theorem ofName_eq (hname : t ≠ []) (hmemory : t ≠ Text.of ":memory:") :
    ofName t = .file (normal (Path.parse t)) := if_neg (not_or.2 ⟨hname, hmemory⟩)

/-- An address without options names its file as it stands. -/
theorem read_of_literal (h : Literal t) : read t = .ok (ofName t) := by
  have hoptions : options [] = [] := rfl
  have hfault : fault? [] = none := rfl
  unfold read
  rw [Text.cut_of_notMem h.whole]
  dsimp only
  rw [Text.percentDecoded_of_escapes h.unescaped, hoptions, hfault]
  simp

/-! ## What is left of an address -/

/-- Decoding an option adds no glyph of ASCII: a plus becomes a space, and three glyphs become at
most one. -/
theorem ascii_optionText (t : Text) : Text.ascii (optionText t) ≤ Text.ascii t := by
  -- a plus and a space are both one glyph of ASCII
  have hblank : Text.ascii (t.map fun g => if g = Glyph.char '+' then .char ' ' else g) =
      Text.ascii t := by
    unfold Text.ascii
    rw [List.countP_map]
    refine List.countP_congr fun g _ => ?_
    by_cases hg : g = Glyph.char '+'
    · subst hg
      exact Iff.rfl
    · simp [hg]
  have hdecoded := Text.ascii_percentDecoded
    (t.map fun g => if g = Glyph.char '+' then .char ' ' else g)
  unfold optionText
  omega

/-- How many glyphs of ASCII the options take, with an equals sign and a separator for each. -/
def weight (options : List (Text × Text)) : Nat :=
  (options.map fun o => Text.ascii o.1 + Text.ascii o.2 + 2).sum

theorem weight_cons (o : Text × Text) (options : List (Text × Text)) :
    weight (o :: options) = Text.ascii o.1 + Text.ascii o.2 + 2 + weight options := by simp [weight]

/-- Cutting a text takes away the separator and nothing else. -/
theorem ascii_cut {sep : Glyph} (hsep : sep.isAscii) (hmem : sep ∈ t) :
    Text.ascii (t.cut sep).1 + 1 + Text.ascii (t.cut sep).2 = Text.ascii t := by
  obtain ⟨front, back, rfl, hfront⟩ := List.eq_append_cons_of_mem hmem
  rw [Text.cut_append hfront, Text.ascii_append, Text.ascii_cons, if_pos hsep]
  dsimp only
  omega

/-- An option takes no more than the piece that it is read from. -/
theorem ascii_option {pair : Text} {o : Text × Text} (h : option? pair = some o) :
    Text.ascii o.1 + Text.ascii o.2 + 1 ≤ Text.ascii pair := by
  unfold option? at h
  dsimp only at h
  split at h
  · cases h
  next hvalue =>
    obtain rfl := Option.some.inj h
    -- an option has a value, so there is an equals sign between its parts
    have hmem : Glyph.char '=' ∈ pair := by
      by_contra hnot
      rw [Text.cut_of_notMem hnot] at hvalue
      exact hvalue rfl
    have hequals : Glyph.isAscii '=' = true := rfl
    have hcut := ascii_cut hequals hmem
    have hname := ascii_optionText (pair.cut '=').1
    have hvalue' := ascii_optionText (pair.cut '=').2
    dsimp only
    omega

/-- The options of a query take no more than the pieces from which they are read. A piece that is no
option takes something and gives nothing. -/
theorem weight_filterMap (pieces : List Text) :
    weight (pieces.filterMap option?) ≤ Text.extent pieces := by
  -- by induction on the pieces, each of which gives one option or none
  induction pieces with
  | nil => exact Nat.le_refl 0
  | cons pair rest ih =>
    rw [Text.extent_cons]
    cases hoption : option? pair with
    | none =>
      rw [List.filterMap_cons_none hoption]
      omega
    | some o =>
      have := ascii_option hoption
      rw [List.filterMap_cons_some hoption, weight_cons]
      omega

/-- So they take at most one glyph of ASCII more than the query, for the separator that is not there
after the last piece. -/
theorem weight_options (query : Text) : weight (options query) ≤ Text.ascii query + 1 := by
  have hpieces := weight_filterMap (Text.split '&' (query.takeWhile (· ≠ Glyph.char '\n')))
  have hline : Text.ascii (query.takeWhile (· ≠ Glyph.char '\n')) ≤ Text.ascii query :=
    (List.takeWhile_sublist _).countP_le
  have hand : Glyph.isAscii '&' = true := rfl
  rw [Text.extent_split hand] at hpieces
  exact hpieces.trans (by omega)

/-- Leaving out an option leaves out what it takes. This is what an address gets shorter by when an
option of it is used up. -/
theorem weight_filter {options : List (Text × Text)} {o : Text × Text} (ho : o ∈ options)
    (keep : Text × Text → Bool) (hkeep : keep o = false) :
    weight (options.filter keep) + (Text.ascii o.1 + Text.ascii o.2 + 2) ≤ weight options := by
  have hall : ∀ rest : List (Text × Text), weight (rest.filter keep) ≤ weight rest := fun rest =>
    (List.filter_sublist.map _).sum_le_sum fun _ _ => Nat.zero_le _
  induction options with
  | nil => cases ho
  | cons first rest ih =>
    rw [weight_cons]
    -- the option that is left out is the first one, or one of the rest
    obtain rfl | ho := List.mem_cons.1 ho
    · rw [List.filter_cons_of_neg (by rw [hkeep]; exact Bool.false_ne_true)]
      have := hall rest
      omega
    · have hrest := ih ho
      by_cases hfirst : keep first = true
      · rw [List.filter_cons_of_pos hfirst, weight_cons]
        omega
      · rw [List.filter_cons_of_neg hfirst]
        omega

/-- Options that are written again take what they weigh, less the separator after the last. -/
theorem ascii_rewritten {options : List (Text × Text)} (hne : options ≠ []) :
    Text.ascii (rewritten options) + 1 = weight options := by
  have hand : Glyph.isAscii '&' = true := rfl
  have hequals : Glyph.isAscii '=' = true := rfl
  -- what is written of an option is its two parts and the sign between them
  have hwritten : ∀ rest : List (Text × Text),
      Text.extent (rest.map fun o => o.1 ++ .char '=' :: o.2) = weight rest := by
    intro rest
    induction rest with
    | nil => rfl
    | cons o rest ih =>
      rw [List.map_cons, Text.extent_cons, weight_cons, ih, Text.ascii_append, Text.ascii_cons,
        if_pos hequals]
      omega
  -- sorting changes the order of the options only, which a sum does not see
  have hsorted := List.mergeSort_perm options fun a b => Text.le a.1 b.1
  have hmap : (options.mergeSort fun a b => Text.le a.1 b.1).map (fun o : Text × Text =>
      o.1 ++ Glyph.char '=' :: o.2) ≠ [] := fun heq =>
    hne (List.map_eq_nil_iff.1 heq ▸ hsorted).nil_eq.symm
  unfold rewritten
  dsimp only
  rw [Text.ascii_joined hand hmap, hwritten]
  exact (hsorted.map _).sum_eq

/-- What an address names takes as much of its text as is left for it by the options that are taken
out and the glyphs that are decoded. -/
theorem exists_name_of_read (h : read t = .ok address) :
    ∃ name, address = ofName name ∧
      (Text.ascii name + 2 * Text.escapes (t.cut '?').1 ≤ Text.ascii (t.cut '?').1 ∨
        Text.ascii name + 3 ≤ Text.ascii (t.cut '?').1 + Text.ascii (t.cut '?').2) := by
  have hname := Text.ascii_percentDecoded (t.cut '?').1
  unfold read at h
  dsimp only at h
  split at h
  · cases h
  · split at h
    next hliteral =>
      obtain ⟨hasked, hothers⟩ := hliteral
      obtain ⟨value, hvalue, -⟩ := Option.bind_eq_some_iff.1 hasked
      -- the option that asked for it is not written
      have hmem : (literalOption, value) ∈ options (t.cut '?').2 := by
        obtain ⟨before, after, hoptions, -⟩ := List.lookup_eq_some_iff.1 hvalue
        rw [hoptions]
        exact List.mem_append_right _ (.head _)
      have hleft := weight_filter hmem (fun o => !ownOptions.contains o.1) rfl
      have hall := weight_options (t.cut '?').2
      have hwritten := ascii_rewritten hothers
      dsimp only at hleft
      have hasks : Text.ascii literalOption = 3 := rfl
      have hmark : Glyph.isAscii '?' = true := rfl
      refine ⟨_, (Except.ok.inj h).symm, .inr ?_⟩
      rw [Text.ascii_append, Text.ascii_cons, if_pos hmark]
      omega
    · exact ⟨_, (Except.ok.inj h).symm, .inl hname⟩

/-- The text goes on after every question mark in it. -/
def GoesOn (t : Text) : Prop :=
  ∃ (front : Text) (last : Glyph), t = front ++ [last] ∧ last.isAscii ∧ last ≠ '?'

/-- The name of the file is at least two glyphs of ASCII shorter than an address that is not
literal: a question mark and something after it are gone, or the digits of an escape. -/
theorem exists_shorter_name (hend : GoesOn t) (hliteral : ¬ Literal t) (h : read t = .ok address) :
    ∃ name, address = ofName name ∧ Text.ascii name + 2 ≤ Text.ascii t := by
  obtain ⟨name, haddress, hname⟩ := exists_name_of_read h
  refine ⟨name, haddress, ?_⟩
  have hmark : Glyph.isAscii '?' = true := rfl
  by_cases hmem : Glyph.char '?' ∈ t
  · have hcut := ascii_cut hmark hmem
    -- what stands after the first question mark is not empty
    have hquery : 1 ≤ Text.ascii (t.cut '?').2 := by
      obtain ⟨front, last, rfl, hascii, hlast⟩ := hend
      obtain hfront | hlast' := List.mem_append.1 hmem
      · obtain ⟨before, after, rfl, hbefore⟩ := List.eq_append_cons_of_mem hfront
        rw [List.append_assoc, List.cons_append, Text.cut_append hbefore, Text.ascii_append,
          Text.ascii_cons, if_pos hascii]
        omega
      · exact absurd (List.mem_singleton.1 hlast').symm hlast
    omega
  · have hescapes : t.escapes ≠ 0 := fun hzero => hliteral ⟨hmem, hzero⟩
    rw [Text.cut_of_notMem hmem] at hname
    have hnil : Text.ascii [] = 0 := rfl
    dsimp only at hname
    omega

/-! ## Where paths and their addresses lead -/

/-- A path starts at the root of its own kind, or in the working directory, and no part has been
walked yet. -/
theorem start_root (p : Path) :
    (FileTree.start p).parts = [] ∧ ((FileTree.start p).root = .workingDirectory ↔
      p.root = .workingDirectory) := by
  unfold FileTree.start
  cases p.root <;> simp

/-- Carrying out one part adds at most this part. -/
theorem extent_resolve (above : List Text) (part : Text) :
    Text.extent (resolve above part) ≤ Text.extent above + (Text.ascii part + 1) := by
  -- at worst the part is put on top of what is above
  have hpush : Text.extent (part :: above) ≤ Text.extent above + (Text.ascii part + 1) := by
    rw [Text.extent_cons]
    omega
  unfold resolve
  split
  · split
    · split
      · exact hpush
      · rw [Text.extent_cons]
        omega
    · exact hpush
  · exact hpush

/-- Carrying out the two dots of a path makes it no longer. -/
theorem extent_foldl_resolve (above parts : List Text) :
    Text.extent (parts.foldl resolve above) ≤ Text.extent above + Text.extent parts := by
  induction parts generalizing above with
  | nil => exact Nat.le_add_right _ _
  | cons part rest ih =>
    have hrest := ih (resolve above part)
    have hpart := extent_resolve above part
    rw [List.foldl_cons, Text.extent_cons]
    omega

/-- Another place than that of a path is where its text leads as an address that is not read as it
stands. -/
theorem not_leadsTo (hp : p.Proper) (hne : p.parts ≠ []) (hdown : Text.of ".." ∉ p.parts)
    (hend : GoesOn p.text) (hplace : tree.place p = .ok place) (hliteral : ¬ Literal p.text)
    (hread : read p.text = .ok address) : ¬ tree.LeadsTo place address := by
  rintro ⟨-, -, found⟩
  rename_i path
  obtain ⟨name, haddress, hshorter⟩ := exists_shorter_name hend hliteral hread
  have hpath : path = normal (Path.parse name) := by
    unfold ofName at haddress
    split at haddress
    · cases haddress
    · exact Address.file.inj haddress
  -- the place has the parts of the path, and no more than the name can give
  obtain ⟨-, -, hwalk⟩ := FileTree.place_eq_ok_iff.1 hplace
  obtain ⟨-, -, hfound⟩ := FileTree.place_eq_ok_iff.1 found
  have hparts := FileTree.walk_down hdown hwalk
  obtain ⟨hroot, hextent⟩ := FileTree.extent_walk hfound
  obtain ⟨hnil, hstart⟩ := start_root p
  obtain ⟨hnil', hstart'⟩ := start_root path
  have htext := hp.ascii_text hne
  have hname := Path.extent_parse name
  have hresolved : Text.extent path.parts ≤ Text.extent (Path.parse name).parts := by
    rw [hpath, normal, Text.extent_reverse]
    exact (extent_foldl_resolve [] _).trans (Nat.zero_add _).le
  have hsame : Text.extent place.parts = Text.extent p.parts := by
    rw [hparts, hnil, List.nil_append]
  have hroots : p.root = .workingDirectory ↔ (Path.parse name).root = .workingDirectory := by
    have hpathRoot : path.root = (Path.parse name).root := by rw [hpath]; rfl
    rw [← hstart, ← hpathRoot, ← hstart', ← hroot, hparts]
  rw [hnil'] at hextent
  have hzero : Text.extent [] = 0 := rfl
  -- the root takes at most one slash more in the text than in the name
  have hslashes : p.root.slashes ≤ min 1 (Path.parse name).root.slashes + 1 := by
    revert hroots
    cases p.root <;> cases (Path.parse name).root <;> simp [PathRoot.slashes]
  omega

/-- No part comes in that was not there. -/
theorem mem_of_mem_foldl_resolve {above parts : List Text} {part : Text}
    (h : part ∈ parts.foldl resolve above) : part ∈ above ∨ part ∈ parts := by
  induction parts generalizing above with
  | nil => exact .inl h
  | cons first rest ih =>
    obtain habove | hrest := ih h
    · -- a part that is above after one step was above before, or is the part of this step
      have hstep : part = first ∨ part ∈ above := by
        unfold resolve at habove
        split at habove
        · split at habove
          · split at habove
            · exact List.mem_cons.1 habove
            · exact .inr (.tail _ habove)
          · exact .inl (List.mem_singleton.1 habove)
        · exact List.mem_cons.1 habove
      exact hstep.elim (fun heq => .inr (heq ▸ .head _)) .inl
    · exact .inr (.tail _ hrest)

/-- An address that is read as it stands leads where the path leads, unless its text is too long for
the database. -/
theorem leadsTo_normal (hplace : tree.place p = .ok place)
    (hshort : ¬ FileTree.databasePathLimit < (Utf8.encode (normal p).text).length) :
    tree.LeadsTo place (.file (normal p)) := by
  obtain ⟨hplain, -, hwalk⟩ := FileTree.place_eq_ok_iff.1 hplace
  -- carrying out two dots brings no glyphs in
  have hnot : Glyph.char '\x00' ∉ (normal p).text := by
    intro hzero
    obtain heq | heq | ⟨part, hpart, hin⟩ := Path.of_mem_text hzero
    · cases heq
    · cases heq
    · obtain hnil | hpart := mem_of_mem_foldl_resolve (List.mem_reverse.1 hpart)
      · cases hnil
      · exact hplain (Path.mem_text hpart hin)
  have hlong : ¬ FileTree.pathLimit < (Utf8.encode (normal p).text).length := by
    unfold FileTree.pathLimit
    unfold FileTree.databasePathLimit at hshort
    omega
  exact .file (Bool.eq_false_iff.2 fun hzero => hnot (List.contains_iff_mem.1 hzero)) hshort
    (FileTree.place_eq_ok_iff.2 ⟨hnot, hlong, FileTree.walk_resolved hwalk⟩)

end RefSweep.Address
