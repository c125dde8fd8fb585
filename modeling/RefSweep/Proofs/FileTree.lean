import RefSweep.Host.Database
import RefSweep.Proofs.Entries
import RefSweep.Proofs.Path

/-!
# Databases in the file tree

Replacing a database moves nothing: every path leads where it led before (`Extends`). So a database
that was saved at an address is what the next connection to this address finds, and connecting to
one address leaves what stands at other places alone. Main statements: `Holds.connect`, `Holds.save`
and `save_elsewhere`; on the way, a path leads where it leads once its two dots are carried out
(`walk_resolved`), and a directory that was made is there (`isDirectory_of_makeDirectory`).
-/

namespace RefSweep.FileTree

variable {t : FileTree} {d d' : Database}

/-! ## Putting an entry -/

/-- The root is a directory by itself, so a place that is none has at least one part, and an entry
put there is found again. -/
theorem parts_ne_nil {q : Path} (h : t.hasDirectory q = false) : q.parts ≠ [] := by
  intro hnil
  rw [hasDirectory, entry?, if_pos hnil] at h
  cases h

/-- Putting an entry changes what stands at its place, and nothing else. The root is no place for an
entry, as it is a directory without being listed. -/
theorem entry?_put {place : Path} (hplace : place.parts ≠ []) (e : Entry) (q : Path) :
    FileTree.entry? (t.put place e) q = if q = place then some e else t.entry? q := by
  have hlookup : (t.put place e).entries.lookup q =
      if q = place then some e else t.entries.lookup q := by
    -- putting replaces an entry that is there and adds one that is not: the list of entries is
    -- changed in two ways, and both answer alike
    have hset := Entries.lookup_set t.entries place q e
    unfold put
    split
    next hthere =>
      rw [if_pos hthere] at hset
      exact hset
    next hnew =>
      rw [if_neg hnew] at hset
      exact hset
  unfold entry?
  -- the root has no entry in the list, so the place must not be the root
  by_cases hq : q = place
  · subst hq
    rw [if_neg hplace, if_pos rfl, hlookup, if_pos rfl]
  · rw [hlookup, if_neg hq, if_neg hq]

/-! ## Places -/

/-- A path leads where it leads as long as the directories stay. Other entries play no part in it,
since a path leads through directories only. -/
theorem walk_of_directories {t t' : FileTree}
    (h : ∀ q, t.hasDirectory q = true → t'.hasDirectory q = true) {parts : List Text} {p q : Path}
    (hwalk : t.walk p parts = .ok q) : t'.walk p parts = .ok q := by
  -- by induction on the parts: each step looks at directories only, and these are still there
  induction parts generalizing p with
  | nil => exact hwalk
  | cons part rest ih =>
    rw [walk] at hwalk ⊢
    split at hwalk
    next hdirectory =>
      rw [if_pos (h p hdirectory)]
      split at hwalk
      -- two dots lead up, the same way in both trees
      next hup =>
        rw [if_pos hup]
        split at hwalk
        next up habove => exact ih hwalk
        · cases hwalk
      -- any other part leads down, and its length is checked first
      next hdown =>
        rw [if_neg hdown]
        split at hwalk
        · cases hwalk
        next hshort =>
          rw [if_neg hshort]
          exact ih hwalk
    · cases hwalk

/-- A path that leads to a place leads to it in every tree with the same directories. What stands at
the place itself plays no part in finding it. -/
theorem place_of_directories {t t' : FileTree} (h : ∀ q, t'.hasDirectory q = t.hasDirectory q)
    {p q : Path} (hplace : t.place p = .ok q) : t'.place p = .ok q := by
  unfold place at hplace ⊢
  split at hplace
  · cases hplace
  next hplain =>
    rw [if_neg hplain]
    split at hplace
    · cases hplace
    next hshort =>
      rw [if_neg hshort]
      exact walk_of_directories (fun q hq => (h q).trans hq) hplace

/-- Where a path leads to, and whether it leads anywhere, is the same in trees with the same
directories. -/
theorem place_toOption {t t' : FileTree} (h : ∀ q, t'.hasDirectory q = t.hasDirectory q)
    (p : Path) : (t'.place p).toOption = (t.place p).toOption := by
  cases hplace : t.place p with
  | ok q =>
    rw [place_of_directories h hplace]
  | error problem =>
    cases hplace' : t'.place p with
    | ok q => cases hplace.symm.trans (place_of_directories (fun q => (h q).symm) hplace')
    | error problem' => rfl

section Walking

variable {p q cur next : Path} {parts above : List Text}

/-- Walking along two lists of parts is walking along the second from where the first has led, or
failing as the first does. -/
theorem walk_append (t : FileTree) (p : Path) (parts parts' : List Text) :
    t.walk p (parts ++ parts') =
      match t.walk p parts with
      | .ok q => t.walk q parts'
      | .error problem => .error problem := by
  -- by induction on the first parts: each check is made on both sides, and the rest is the
  -- hypothesis
  induction parts generalizing p with
  | nil => rfl
  | cons part rest ih =>
    rw [List.cons_append, walk, walk]
    split
    · split
      · split
        · exact ih _
        · rfl
      · split
        · rfl
        · exact ih _
    · rfl

theorem walk_append_ok {parts' : List Text} (hwalk : t.walk p parts = .ok cur) :
    t.walk p (parts ++ parts') = t.walk cur parts' := by
  rw [walk_append, hwalk]

/-- Walking down leads to a place with these parts, put behind those of the start. -/
theorem walk_down (hdown : Text.of ".." ∉ parts) (hwalk : t.walk p parts = .ok q) :
    q = ⟨p.root, p.parts ++ parts⟩ := by
  -- every step is a step down, as no part is two dots
  induction parts generalizing p with
  | nil =>
    rw [List.append_nil]
    exact (Except.ok.inj hwalk).symm
  | cons part rest ih =>
    have hpart : ¬ part = Text.of ".." := fun heq => hdown (heq ▸ .head _)
    rw [walk, if_neg hpart] at hwalk
    split at hwalk
    · split at hwalk
      · cases hwalk
      · rw [ih (fun hmem => hdown (.tail _ hmem)) hwalk]
        simp [Path.child]
    · cases hwalk

/-- Two dots take back the part before them. -/
theorem walk_up {part : Text} (hpart : part ≠ Text.of "..") (hdown : t.walk p [part] = .ok cur)
    (hup : t.walk cur [Text.of ".."] = .ok q) : q = p := by
  have hcur : cur = p.child part :=
    walk_down (fun hmem => hpart (List.mem_singleton.1 hmem).symm) hdown
  have habove : above? cur = some p := by
    rw [hcur]
    simp [above?, Path.child]
  rw [walk, habove, if_pos rfl] at hup
  split at hup
  · exact (Except.ok.inj hup).symm
  · cases hup

/-- Walking keeps the root, and reaches a place whose text is no longer than that of the start and
the parts together: two dots only make it shorter. -/
theorem extent_walk (hwalk : t.walk p parts = .ok q) :
    q.root = p.root ∧ Text.extent q.parts ≤ Text.extent p.parts + Text.extent parts := by
  -- by induction on the parts: a step up drops a part, a step down adds the one it is charged for
  induction parts generalizing p with
  | nil =>
    obtain rfl := Except.ok.inj hwalk
    exact ⟨rfl, Nat.le_add_right _ _⟩
  | cons part rest ih =>
    rw [Text.extent_cons]
    rw [walk] at hwalk
    split at hwalk
    · split at hwalk
      · split at hwalk
        next up habove =>
          -- what lies above has one part less, or is the root itself
          have hup : up.root = p.root ∧ Text.extent up.parts ≤ Text.extent p.parts := by
            unfold above? at habove
            split at habove
            · cases habove
            · obtain rfl := Option.some.inj habove
              exact ⟨rfl, Text.extent_le_of_sublist (List.dropLast_sublist _)⟩
          obtain ⟨hroot, hextent⟩ := ih hwalk
          exact ⟨hroot.trans hup.1, by omega⟩
        · cases hwalk
      · split at hwalk
        · cases hwalk
        · obtain ⟨hroot, hextent⟩ := ih hwalk
          rw [Path.child, Text.extent_append, Text.extent_cons] at hextent
          have hnil : Text.extent [] = 0 := rfl
          exact ⟨hroot, by omega⟩
    · cases hwalk

open Address in
/-- Where the parts above lead to a place, carrying out one more leads where it leads from there. -/
theorem walk_resolve {part : Text} (habove : t.walk p above.reverse = .ok cur)
    (hpart : t.walk cur [part] = .ok next) : t.walk p (resolve above part).reverse = .ok next := by
  have hpush : t.walk p (part :: above).reverse = .ok next := by
    rw [List.reverse_cons, walk_append_ok habove]
    exact hpart
  unfold resolve
  split
  next hup =>
    cases above with
    | nil =>
      obtain rfl := Except.ok.inj habove
      exact hpart
    | cons last rest =>
      dsimp only
      split
      · exact hpush
      next hlast =>
        -- the last part led down, and the two dots lead back
        rw [List.reverse_cons, walk_append] at habove
        split at habove
        next mid hmid =>
          rw [hup] at hpart
          rw [walk_up hlast habove hpart]
          exact hmid
        · cases habove
  · exact hpush

open Address in
/-- Carrying out the two dots of many parts leads where the parts lead; by induction on the parts,
with what is above already carried out. -/
theorem walk_foldl_resolve (habove : t.walk p above.reverse = .ok cur)
    (hwalk : t.walk cur parts = .ok q) : t.walk p (parts.foldl resolve above).reverse = .ok q := by
  induction parts generalizing above cur with
  | nil => exact habove.trans hwalk
  | cons part rest ih =>
    rw [← List.singleton_append, walk_append] at hwalk
    split at hwalk
    next next hnext => exact ih (walk_resolve habove hnext) hwalk
    · cases hwalk

/-- A path leads where it leads once its two dots are carried out. -/
theorem walk_resolved (hwalk : t.walk p parts = .ok q) :
    t.walk p (Address.resolved parts).reverse = .ok q :=
  walk_foldl_resolve rfl hwalk

end Walking

/-- A place counts as a directory only if the entry there is one. -/
theorem entry?_of_hasDirectory (h : t.hasDirectory p = true) : t.entry? p = some .directory := by
  unfold hasDirectory at h
  split at h
  next hentry => exact hentry
  · cases h

/-- A path leads to a place exactly if its text has no zero character and is not too long, and
walking along its parts ends there. -/
theorem place_eq_ok_iff : t.place p = .ok q ↔ Glyph.char '\x00' ∉ p.text ∧
    ¬ pathLimit < (Utf8.encode p.text).length ∧ t.walk (start p) p.parts = .ok q := by
  unfold place
  split
  next hzero => exact ⟨nofun, fun h => absurd (List.contains_iff_mem.1 hzero) h.1⟩
  next hplain =>
    have hnot : Glyph.char '\x00' ∉ p.text := fun hzero => hplain (List.contains_iff_mem.2 hzero)
    split
    next hlong => exact ⟨nofun, fun h => absurd hlong h.2.1⟩
    next hshort => exact ⟨fun h => ⟨hnot, hshort, h⟩, fun h => h.2.2⟩

/-- A path that leads to something of a kind leads to a place, and an entry of that kind stands
there. -/
theorem exists_of_leadsTo {kind : Entry → Bool} (h : t.leadsTo p kind = .ok true) :
    ∃ q e, t.place p = .ok q ∧ t.entry? q = some e ∧ kind e := by
  unfold leadsTo at h
  split at h
  next e hfind =>
    -- something was found, so the path led to a place and an entry stands there
    unfold find at hfind
    split at hfind
    · cases hfind
    next q hplace =>
      split at hfind
      next entry hentry =>
        obtain rfl := Except.ok.inj hfind
        exact ⟨q, entry, hplace, hentry, Except.ok.inj h⟩
      · cases hfind
  · cases h
  · cases h

/-- What a path to a file leads to. -/
theorem place_of_isFile (h : t.isFile p = .ok true) :
    ∃ q, t.place p = .ok q ∧ t.hasDirectory q = false := by
  obtain ⟨q, e, hplace, hentry, hfile⟩ := exists_of_leadsTo h
  refine ⟨q, hplace, ?_⟩
  rw [hasDirectory, hentry]
  cases e with
  | directory => cases hfile
  | file | database => rfl

/-- What a path to a directory leads to. -/
theorem place_of_isDirectory (h : t.isDirectory p = .ok true) :
    ∃ q, t.place p = .ok q ∧ t.entry? q = some .directory := by
  obtain ⟨q, e, hplace, hentry, hdirectory⟩ := exists_of_leadsTo h
  refine ⟨q, hplace, hentry.trans ?_⟩
  cases e with
  | directory => rfl
  | file | database => cases hdirectory

/-- A path that leads to a place of this name leads through the directory above it. -/
theorem isDirectory_of_child {name : Text} (hp : p.Proper) (hne : p.parts ≠ [])
    (hplace : t.place (p.child name) = .ok q) : t.isDirectory p = .ok true := by
  obtain ⟨hplain, hshort, hwalk⟩ := place_eq_ok_iff.1 hplace
  -- the text of the directory is a part of the whole text
  have htext := hp.text_child hne name
  rw [htext] at hplain hshort
  rw [Utf8.encode_append, List.length_append] at hshort
  have hlead : t.walk (start p) (p.parts ++ [name]) = .ok q := hwalk
  rw [walk_append] at hlead
  split at hlead
  next above habove =>
    rw [walk] at hlead
    split at hlead
    next hdirectory =>
      have hthere : t.place p = .ok above :=
        place_eq_ok_iff.2 ⟨fun hzero => hplain (List.mem_append_left _ hzero), by omega, habove⟩
      rw [isDirectory, leadsTo, find, hthere]
      dsimp only
      rw [entry?_of_hasDirectory hdirectory]
    · cases hlead
  · cases hlead

/-- A name in a directory leads to the entry of this name. It has to be short enough, like the whole
path, and must not lead up again. -/
theorem place_child {name : Text} (hp : p.Proper) (hne : p.parts ≠ []) (hname : name ≠ Text.of "..")
    (hplain : Glyph.char '\x00' ∉ name) (hfits : ¬ nameLimit < (Utf8.encode name).length)
    (hshort : ¬ pathLimit < (Utf8.encode (p.child name).text).length)
    (hdirectory : t.isDirectory p = .ok true) : ∃ q, t.place (p.child name) = .ok q := by
  obtain ⟨above, hplace, hentry⟩ := place_of_isDirectory hdirectory
  obtain ⟨hzero, -, hwalk⟩ := place_eq_ok_iff.1 hplace
  have hthere : t.hasDirectory above = true := by rw [hasDirectory, hentry]
  -- one step down from the directory, which none of the checks on a name prevents
  have hdown : t.walk above [name] = .ok (above.child name) := by
    rw [walk, if_pos hthere, if_neg hname, if_neg hfits]
    rfl
  -- no zero character comes in with the slash or the name
  have hnone : Glyph.char '\x00' ∉ (p.child name).text := by
    rw [hp.text_child hne]
    intro hmem
    obtain hmem | hmem := List.mem_append.1 hmem
    · exact hzero hmem
    · obtain heq | hmem := List.mem_cons.1 hmem
      · cases heq
      · exact hplain hmem
  have hchild : t.walk (start (p.child name)) (p.child name).parts = .ok (above.child name) := by
    rw [← hdown]
    exact walk_append_ok hwalk
  exact ⟨_, place_eq_ok_iff.2 ⟨hnone, hshort, hchild⟩⟩

/-! ## Trees that grow -/

/-- Every path that leads somewhere in `t` leads to the same place in `t'`: the directories are the
same, and nothing is taken away. -/
structure Extends (t t' : FileTree) : Prop where
  directories : ∀ q, t'.hasDirectory q = t.hasDirectory q
  present : ∀ q, (t.entry? q).isSome → (t'.entry? q).isSome

namespace Extends

variable {t t' t'' : FileTree} {p q : Path}

theorem refl (t : FileTree) : t.Extends t := ⟨fun _ => rfl, fun _ h => h⟩

theorem trans (h : t.Extends t') (h' : t'.Extends t'') : t.Extends t'' where
  directories q := (h'.directories q).trans (h.directories q)
  present q hq := h'.present q (h.present q hq)

/-- A tree grows when anything but a directory is put at a place where no directory is: what stood
there may be replaced, as paths do not lead through it. -/
theorem put {e : Entry} (hq : t.hasDirectory q = false) (he : e ≠ .directory) :
    t.Extends (t.put q e) where
  directories r := by
    rw [hasDirectory, entry?_put (parts_ne_nil hq)]
    -- at the place itself no directory was before, and none is put there
    by_cases hr : r = q
    · rw [if_pos hr, hr, hq]
      cases e with
      | directory => exact absurd rfl he
      | file | database => rfl
    · rw [if_neg hr]
      rfl
  present r hr := by
    rw [entry?_put (parts_ne_nil hq)]
    split
    · rfl
    · exact hr

theorem place (h : t.Extends t') (hplace : t.place p = .ok q) : t'.place p = .ok q :=
  place_of_directories h.directories hplace

/-- What a path leads to is still there in a grown tree, and is a directory if it was one. It may be
another file, as growing may replace files. -/
theorem find (h : t.Extends t') {e : Entry} (hfind : t.find p = .ok e) :
    ∃ e', t'.find p = .ok e' ∧ (e' = .directory ↔ e = .directory) := by
  unfold FileTree.find at hfind
  split at hfind
  · cases hfind
  next q hplace =>
    split at hfind
    next entry hentry =>
      obtain rfl := Except.ok.inj hfind
      obtain ⟨e', he'⟩ := Option.isSome_iff_exists.1 (h.present q (by rw [hentry]; rfl))
      refine ⟨e', by rw [FileTree.find, h.place hplace]; simp only [he'], ?_⟩
      -- both trees know the place as a directory, or neither does
      have hsame := h.directories q
      unfold hasDirectory at hsame
      rw [he', hentry] at hsame
      cases e' <;> cases entry <;> simp_all
    · cases hfind

/-- A path to a directory leads to one after the tree has grown, since directories are never
replaced. -/
theorem isDirectory (h : t.Extends t') (hp : t.isDirectory p = .ok true) :
    t'.isDirectory p = .ok true := by
  unfold FileTree.isDirectory leadsTo at hp ⊢
  split at hp
  next e hfind =>
    obtain ⟨e', hfind', hsame⟩ := h.find hfind
    have hdirectory : e = .directory := by
      cases e with
      | directory => rfl
      | file | database => cases hp
    rw [hfind', hsame.2 hdirectory]
  · cases hp
  · cases hp

/-- A path to a file leads to one after the tree has grown, though perhaps to another file at the
same place. -/
theorem isFile (h : t.Extends t') (hp : t.isFile p = .ok true) : t'.isFile p = .ok true := by
  unfold FileTree.isFile leadsTo at hp ⊢
  split at hp
  next e hfind =>
    obtain ⟨e', hfind', hsame⟩ := h.find hfind
    -- a file may have become another file, but never a directory
    have hfile : e ≠ .directory := by
      rintro rfl
      cases hp
    rw [hfind']
    cases e' with
    | directory => exact absurd (hsame.1 rfl) hfile
    | file | database => rfl
  · cases hp
  · cases hp

end Extends

/-! ## The database at an address -/

/-- The address leads to the file at this place. -/
inductive LeadsTo (t : FileTree) (place : Path) : Address → Prop where
  | file {path : Path} (plain : path.text.contains '\x00' = false)
      (short : ¬ databasePathLimit < (Utf8.encode path.text).length)
      (found : t.place path = .ok place) : LeadsTo t place (.file path)

/-- The address leads to a file that holds this database. -/
inductive Holds (t : FileTree) (d : Database) : Address → Prop where
  | file {path place : Path} (plain : path.text.contains '\x00' = false)
      (short : ¬ databasePathLimit < (Utf8.encode path.text).length)
      (found : t.place path = .ok place) (stored : t.entry? place = some (.database d)) :
      Holds t d (.file path)

section Address

variable {a : Address} {place place' : Path}

/-- A database that an address leads to is one of the entries. -/
theorem Holds.mem_entries (h : t.Holds d a) : ∃ place, (place, .database d) ∈ t.entries := by
  cases h with
  | @file _ place _ _ _ stored =>
    unfold entry? at stored
    split at stored
    · cases stored
    · obtain ⟨before, after, hentries, -⟩ := List.lookup_eq_some_iff.1 stored
      exact ⟨place, by simp [hentries]⟩

/-- An address that leads to a place holds the database that stands there. -/
theorem LeadsTo.holds (h : t.LeadsTo place a) (hstored : t.entry? place = some (.database d)) :
    t.Holds d a := by
  cases h with
  | file plain short found => exact .file plain short found hstored

/-- An address leads to one place at most. -/
theorem LeadsTo.unique (h : t.LeadsTo place a) (h' : t.LeadsTo place' a) : place = place' := by
  cases h with
  | file plain short found =>
    cases h' with
    | file _ _ found' => exact Except.ok.inj (found.symm.trans found')

/-- An address leads where it did, and nowhere else. -/
theorem Extends.leadsTo_iff {t' : FileTree} (h : t.Extends t') :
    t'.LeadsTo place a ↔ t.LeadsTo place a := by
  constructor
  · rintro ⟨plain, short, found⟩
    exact ⟨plain, short, place_of_directories (fun q => (h.directories q).symm) found⟩
  · rintro ⟨plain, short, found⟩
    exact ⟨plain, short, h.place found⟩

/-- Connecting to an address that holds a database finds this database and leaves the tree alone. -/
theorem Holds.connect (h : t.Holds d a) : t.connect a = (.ok d, t) := by
  cases h with
  | file plain short found stored =>
    simp only [FileTree.connect, plain, Bool.false_eq_true, if_false, if_neg short, openFile, found,
      stored]

/-- What stands at the places after saving a database where an address leads to. -/
theorem LeadsTo.saved (h : t.LeadsTo place a) (hfile : t.hasDirectory place = false)
    (d' : Database) (q : Path) :
    FileTree.entry? (t.save d' a) q = if q = place then some (.database d') else t.entry? q := by
  cases h with
  | file plain short found =>
    rw [save, saveFile, found]
    exact entry?_put (parts_ne_nil hfile) _ q

/-- Saving a database at an address that leads to no directory makes the tree grow: all paths lead
where they led. -/
theorem LeadsTo.extends_save (h : t.LeadsTo place a) (hfile : t.hasDirectory place = false)
    (d' : Database) : t.Extends (t.save d' a) := by
  cases h with
  | file plain short found =>
    rw [save, saveFile, found]
    exact .put hfile nofun

/-- A database that is saved at an address is held there from then on, and saving it moves nothing
else. -/
theorem Holds.save (h : t.Holds d a) (d' : Database) :
    (t.save d' a).Holds d' a ∧ t.Extends (t.save d' a) := by
  cases h with
  | @file path place plain short found stored =>
    have hleads : t.LeadsTo place (.file path) := .file plain short found
    have hfile : t.hasDirectory place = false := by rw [hasDirectory, stored]
    have hgrown := hleads.extends_save hfile d'
    refine ⟨(hgrown.leadsTo_iff.2 hleads).holds ?_, hgrown⟩
    rw [hleads.saved hfile, if_pos rfl]

/-- What connecting to an address can do. -/
inductive Connected (t : FileTree) (a : Address) : Except Foreign Database × FileTree → Prop where
  | refused (e : Foreign) : Connected t a (.error e, t)
  | memory (inMemory : a = .memory) : Connected t a (.ok .blank, t)
  | found {place : Path} {d : Database} (leads : t.LeadsTo place a)
      (stored : t.entry? place = some (.database d)) : Connected t a (.ok d, t)
  | empty {place : Path} {content : Bytes} (leads : t.LeadsTo place a)
      (stored : t.entry? place = some (.file content)) : Connected t a (.ok .blank, t)
  | made {place : Path} (leads : t.LeadsTo place a) (free : t.entry? place = none) :
      Connected t a (.ok .blank, t.put place (.database .blank))

/-- Connecting comes to one of these cases. They are found by following the checks in the order in
which they are made: the text of the address, its length, the place, and what stands there. -/
theorem connected (t : FileTree) (a : Address) : t.Connected a (t.connect a) := by
  cases a with
  | memory => exact .memory rfl
  | file path =>
    unfold FileTree.connect
    dsimp only
    split
    · exact .refused _
    next plain =>
      split
      · exact .refused _
      next short =>
        -- the text has passed its two checks: wherever the path leads, the address leads
        have hleads : ∀ {place}, t.place path = .ok place → t.LeadsTo place (.file path) :=
          fun found => .file (by simpa using plain) short found
        unfold openFile
        cases hplace : t.place path with
        | error problem => exact .refused _
        | ok place =>
          cases hentry : t.entry? place with
          | none =>
            -- nothing stands there: a database is made if its directory is there
            by_cases habove : t.hasDirectory ⟨place.root, place.parts.dropLast⟩ = true
            · simp only [hentry, habove, if_true]
              exact .made (hleads hplace) hentry
            · simp only [hentry, habove]
              exact .refused _
          | some entry =>
            cases entry with
            | directory => simp only [hentry]; exact .refused _
            | database d => simp only [hentry]; exact .found (hleads hplace) hentry
            | file content =>
              -- a file of at most one byte passes for an empty database, any longer one is refused
              by_cases hsmall : content.length ≤ 1
              · simp only [hentry, hsmall, if_true]
                exact .empty (hleads hplace) hentry
              · simp only [hentry, hsmall, if_false]
                exact .refused _

/-- A database with tables was there before the connection was made. -/
theorem holds_of_connect {t' : FileTree} (h : t.connect a = (.ok d, t'))
    (htables : d.store.missingTables = []) : t' = t ∧ t.Holds d a := by
  have hblank : ¬ Database.blank.store.missingTables = [] := by decide
  have hcases := t.connected a
  rw [h] at hcases
  cases hcases with
  | found leads stored => exact ⟨rfl, leads.holds stored⟩
  | memory | empty | made => exact absurd htables hblank

/-- Connecting makes at most a blank database where nothing was. All that stood anywhere in the tree
stands there afterwards, unchanged. -/
theorem connect_grows (t : FileTree) (a : Address) :
    t.Extends (t.connect a).2 ∧
      ∀ q e, t.entry? q = some e → FileTree.entry? (t.connect a).2 q = some e := by
  have hcases := t.connected a
  revert hcases
  rcases t.connect a with ⟨result, t'⟩
  intro hcases
  cases hcases with
  | refused | memory | found | empty => exact ⟨.refl t, fun _ _ hq => hq⟩
  | @made place leads free =>
    have hnew : t.hasDirectory place = false := by rw [hasDirectory, free]
    refine ⟨.put hnew nofun, fun q e hq => ?_⟩
    rw [entry?_put (parts_ne_nil hnew), if_neg]
    · exact hq
    · rintro rfl
      cases free.symm.trans hq

/-- Where a connection that was made leads to, and what it has found there: a database, or nothing
or an empty file, either of which passes for a blank one. -/
theorem connect_ok (hok : (t.connect a).1 = .ok d) :
    a = .memory ∨ ∃ place, t.LeadsTo place a ∧ (t.connect a).2.hasDirectory place = false ∧
      (t.entry? place = some (.database d) ∨ d = .blank) := by
  have hcases := t.connected a
  revert hcases hok
  rcases t.connect a with ⟨result, t'⟩
  rintro rfl hcases
  cases hcases with
  | memory inMemory => exact .inl inMemory
  | found leads stored => exact .inr ⟨_, leads, by rw [hasDirectory, stored], .inl stored⟩
  | empty leads stored => exact .inr ⟨_, leads, by rw [hasDirectory, stored], .inr rfl⟩
  -- the blank database was put where nothing was, so no directory stands there
  | @made place leads free =>
    have hnew : t.hasDirectory place = false := by rw [hasDirectory, free]
    refine .inr ⟨place, leads, ?_, .inr rfl⟩
    rw [hasDirectory, entry?_put (parts_ne_nil hnew), if_pos rfl]

/-- Connecting leaves alone what stands at any place that the address does not lead to. -/
theorem connect_elsewhere (helse : ¬ t.LeadsTo place a) :
    FileTree.entry? (t.connect a).2 place = t.entry? place := by
  have hcases := t.connected a
  revert hcases
  rcases t.connect a with ⟨result, t'⟩
  intro hcases
  cases hcases with
  | refused | memory | found | empty => rfl
  | @made other leads free =>
    have hnew : t.hasDirectory other = false := by rw [hasDirectory, free]
    rw [entry?_put (parts_ne_nil hnew), if_neg]
    rintro rfl
    exact helse leads

/-- Connecting and then saving makes the tree grow, whether the connection found a file or made one.
-/
theorem extends_connect_save (hok : (t.connect a).1 = .ok d) (d' : Database) :
    t.Extends ((t.connect a).2.save d' a) := by
  obtain ⟨hgrown, -⟩ := t.connect_grows a
  obtain rfl | ⟨other, hleads, hfile, -⟩ := connect_ok hok
  · exact .refl t
  · exact hgrown.trans ((hgrown.leadsTo_iff.2 hleads).extends_save hfile d')

/-- Connecting to another file and saving a database there leaves this place alone. -/
theorem save_elsewhere (helse : ¬ t.LeadsTo place a) (hok : (t.connect a).1 = .ok d)
    (d' : Database) :
    FileTree.entry? ((t.connect a).2.save d' a) place = t.entry? place := by
  obtain ⟨hgrown, -⟩ := t.connect_grows a
  obtain rfl | ⟨other, hleads, hfile, -⟩ := connect_ok hok
  · rfl
  · rw [(hgrown.leadsTo_iff.2 hleads).saved hfile, if_neg]
    · exact connect_elsewhere helse
    · rintro rfl
      exact helse hleads

/-- What connecting gives does not depend on the file at another place. The file may be put where
one is or where nothing was, but no directory is replaced by it. -/
theorem connect_put_elsewhere (helse : ¬ t.LeadsTo place a) (hfile : t.hasDirectory place = false)
    {e : Entry} (he : e ≠ .directory) :
    (FileTree.connect (t.put place e) a).1 = (t.connect a).1 := by
  have hgrown : t.Extends (t.put place e) := .put hfile he
  cases a with
  | memory => rfl
  | file path =>
    unfold connect
    dsimp only
    split
    · rfl
    next plain =>
      split
      · rfl
      next short =>
        -- the places are found alike in both trees, and the file that is put stands at none that is
        -- asked
        have hopened : (openFile (t.put place e) path).1 = (t.openFile path).1 := by
          have hsame := place_toOption hgrown.directories path
          unfold openFile
          cases hplace : t.place path with
          | error problem =>
            rw [hplace] at hsame
            cases hplace' : (t.put place e).place path with
            | ok q => rw [hplace'] at hsame; cases hsame
            | error problem' => rfl
          | ok other =>
            -- the path leads to a place that is not the one where the file was put
            have hother : other ≠ place := by
              rintro rfl
              exact helse (.file (by simpa using plain) short hplace)
            rw [hgrown.place hplace]
            dsimp only
            rw [entry?_put (parts_ne_nil hfile), if_neg hother, hgrown.directories]
            split
            · split <;> rfl
            · rfl
            · rfl
            · split <;> rfl
        -- the checks of the text come first and do not look at the tree
        revert hopened
        rcases openFile (t.put place e) path with ⟨result, _⟩
        rcases t.openFile path with ⟨result', _⟩
        rintro rfl
        cases result <;> rfl

end Address

/-! ## Making directories -/

/-- A directory that is there cannot be made once more: its name is taken, also where the path ends
in two dots. -/
theorem makeOne_of_isDirectory {p : Path} (h : t.isDirectory p = .ok true) :
    t.makeOne p = .error .taken := by
  obtain ⟨q, hplace, hdirectory⟩ := place_of_isDirectory h
  obtain ⟨-, hshort, hwalk⟩ := place_eq_ok_iff.1 hplace
  unfold makeOne
  split
  · rfl
  next name hname =>
    rw [if_neg hshort]
    rw [← List.dropLast_append_getLast? name hname, walk_append] at hwalk
    split at hwalk
    next above habove =>
      -- the name leads from a directory up, or down to what is there
      rw [habove]
      dsimp only
      rw [walk] at hwalk
      split at hwalk
      next hthere =>
        rw [hthere]
        simp only [Bool.not_true, Bool.false_eq_true, if_false]
        split at hwalk
        next hup => rw [if_pos hup]
        next hdown =>
          split at hwalk
          · cases hwalk
          next hfits =>
            obtain rfl := Except.ok.inj hwalk
            rw [if_neg hdown, if_neg hfits, hdirectory]
            rfl
      · cases hwalk
    · cases hwalk

/-- Making a directory that is there changes nothing. -/
theorem makeDirectory_of_isDirectory {p : Path} (h : t.isDirectory p = .ok true) :
    t.makeDirectory p = (.ok (), t) := by
  obtain ⟨q, hplace, -⟩ := place_of_isDirectory h
  obtain ⟨hplain, -⟩ := place_eq_ok_iff.1 hplace
  have hlast : t.makeLast p = (.ok (), t) := by
    rw [makeLast, makeOne_of_isDirectory h]
    dsimp only
    rw [h]
  unfold makeDirectory
  rw [if_neg fun hzero => hplain (List.contains_iff_mem.1 hzero), make, makeOne_of_isDirectory h]
  exact hlast

/-- Making a directory puts one at a place that was free, in a directory that the path leads
through. -/
theorem makeOne_eq_ok {t' : FileTree} {p : Path} (h : t.makeOne p = .ok t') :
    ∃ above name, p.parts = p.parts.dropLast ++ [name] ∧
      t.walk (start p) p.parts.dropLast = .ok above ∧ t.walk above [name] = .ok (above.child name) ∧
      ¬ pathLimit < (Utf8.encode p.text).length ∧ t.entry? (above.child name) = none ∧
      t' = t.put (above.child name) .directory := by
  unfold makeOne at h
  split at h
  · cases h
  -- the checks are followed in their order; each of them but the last way out is an error
  next name hname =>
    split at h
    · cases h
    next hshort =>
      split at h
      · cases h
      next above habove =>
        cases hthere : t.hasDirectory above with
        | false =>
          rw [hthere] at h
          cases h
        | true =>
          simp only [hthere, Bool.not_true, Bool.false_eq_true, if_false] at h
          split at h
          · cases h
          next hdown =>
            split at h
            · cases h
            next hfits =>
              split at h
              · cases h
              -- all checks have passed, and the directory is put at the place one step down
              next hnew =>
                refine ⟨above, name, (List.dropLast_append_getLast? name hname).symm, habove, ?_,
                  hshort, Option.not_isSome_iff_eq_none.1 hnew, (Except.ok.inj h).symm⟩
                rw [walk, if_pos hthere, if_neg hdown, if_neg hfits]
                rfl

/-- The path of a directory that was just made leads to it. Its text had no zero character, which
making a single directory does not look at. -/
theorem isDirectory_of_makeOne {t' : FileTree} {p : Path} (hplain : Glyph.char '\x00' ∉ p.text)
    (h : t.makeOne p = .ok t') : t'.isDirectory p = .ok true := by
  obtain ⟨above, name, hparts, habove, hdown, hshort, hfree, rfl⟩ := makeOne_eq_ok h
  have hne : (above.child name).parts ≠ [] := by simp [Path.child]
  have hentry := entry?_put (t := t) hne .directory
  -- the walk down to the new directory goes through directories that were there, and are kept
  have hkept : ∀ q, t.hasDirectory q = true →
      hasDirectory (t.put (above.child name) .directory) q = true := by
    intro q hq
    rw [hasDirectory, hentry, entry?_of_hasDirectory hq, ite_self]
  have hwalk : t.walk (start p) p.parts = .ok (above.child name) := by
    rw [hparts, walk_append_ok habove]
    exact hdown
  have hplace := place_eq_ok_iff.2 ⟨hplain, hshort, walk_of_directories hkept hwalk⟩
  rw [isDirectory, leadsTo, find, hplace]
  dsimp only
  rw [hentry, if_pos rfl]

/-- The last directory of a path is there after it was made or found to be there. -/
theorem isDirectory_of_makeLast {t' : FileTree} {p : Path} (hplain : Glyph.char '\x00' ∉ p.text)
    (h : t.makeLast p = (.ok (), t')) : t'.isDirectory p = .ok true := by
  unfold makeLast at h
  split at h
  next made hmade =>
    obtain ⟨-, rfl⟩ := Prod.mk.inj h
    exact isDirectory_of_makeOne hplain hmade
  · split at h
    next hthere =>
      obtain ⟨-, rfl⟩ := Prod.mk.inj h
      exact hthere
    · cases h
    · cases h

/-- A directory that was made is there, and its path leads to it. This is so even where only the
last of several directories had to be made. -/
theorem isDirectory_of_makeDirectory {t' : FileTree} {p : Path}
    (h : t.makeDirectory p = (.ok (), t')) : t'.isDirectory p = .ok true := by
  unfold makeDirectory at h
  split at h
  · cases h
  next hzero =>
    have hplain : Glyph.char '\x00' ∉ p.text := fun hmem => hzero (List.contains_iff_mem.2 hmem)
    -- whether the directory above was there or had to be made, the last one is made in the end
    unfold make at h
    split at h
    · split at h
      · exact isDirectory_of_makeLast hplain h
      · split at h
        · cases h
        · exact isDirectory_of_makeLast hplain h
    · exact isDirectory_of_makeLast hplain h

/-- Making one directory makes no database: what stands anywhere else has stood there before. -/
theorem makeOne_database {t' : FileTree} {p q : Path} (h : t.makeOne p = .ok t')
    (hstored : t'.entry? q = some (.database d)) : t.entry? q = some (.database d) := by
  obtain ⟨above, name, -, -, -, -, -, rfl⟩ := makeOne_eq_ok h
  rw [entry?_put (by simp [Path.child])] at hstored
  split at hstored
  · cases hstored
  · exact hstored

/-- The same holds of the last directory of a path, which may have been there. -/
theorem makeLast_database {p q : Path}
    (hstored : FileTree.entry? (t.makeLast p).2 q = some (.database d)) :
    t.entry? q = some (.database d) := by
  unfold makeLast at hstored
  split at hstored
  next heq => exact makeOne_database heq hstored
  · split at hstored <;> exact hstored

/-- The same holds of all directories of a path; by induction along the steps in which the missing
ones above are made first. -/
theorem make_database {p q : Path} (hstored : FileTree.entry? (t.make p).2 q = some (.database d)) :
    t.entry? q = some (.database d) := by
  fun_induction make t p with
  | case1 p heq hnil => exact makeLast_database hstored
  | case2 p heq hne e t' hmake ih =>
    rw [hmake] at ih
    exact ih hstored
  | case3 p heq hne t' hmake ih =>
    rw [hmake] at ih
    exact ih (makeLast_database hstored)
  | case4 p hother => exact makeLast_database hstored

/-- Making directories makes no database. -/
theorem makeDirectory_database {p q : Path}
    (hstored : FileTree.entry? (t.makeDirectory p).2 q = some (.database d)) :
    t.entry? q = some (.database d) := by
  unfold makeDirectory at hstored
  split at hstored
  · exact hstored
  · exact make_database hstored

end RefSweep.FileTree
