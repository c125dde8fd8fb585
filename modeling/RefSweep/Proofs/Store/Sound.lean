import Mathlib.Data.List.Nodup
import RefSweep.Proofs.Store.Pruning
import RefSweep.Proofs.Store.Rows
import RefSweep.Digest

/-!
# Sound stores

A store is sound if its references have different, readable names and point at stored objects, its
links go out from stored objects, and every object stands under the digest of what it holds. Adding
an object, moving or deleting a reference and collecting garbage keep a store sound. In a sound
store, listing the references and looking one up tell the same (`Sound.mem_parseRows`,
`Sound.lookup_eq_some_iff`).
-/

namespace RefSweep.Store

variable {s : Store}

structure Sound (s : Store) : Prop where
  tables : s.missingTables = []
  /-- No two references share a name. -/
  distinct : (s.refRows.map (·.name)).Nodup
  /-- Every name is one. -/
  named : ∀ row ∈ s.refRows, ∃ name, RefName.parse row.name = .ok name
  /-- References point at stored objects, and links go out from stored objects. -/
  foreignKeys : s.ForeignKeys
  /-- Every object stands under its digest. -/
  digests : ∀ o ∈ s.objectRows, o.key = Digest.key o.kind o.payload

/-! ## Rows of the changed tables -/

/-- The new object stands behind all others. -/
theorem objectRows_withObject (h : s.has .objects) (row : ObjectRow) (targets : List Text) :
    (s.withObject row targets).objectRows = s.objectRows ++ [row] := by
  obtain ⟨rows, hrows⟩ := Option.isSome_iff_exists.1 h
  simp only [objectRows, withObject, hrows, Option.map_some, Option.getD_some]

/-- Its links stand behind all others, in their order. -/
theorem linkRows_withObject (h : s.has .links) (row : ObjectRow) (targets : List Text) :
    (s.withObject row targets).linkRows = s.linkRows ++ targets.map (⟨row.key, ·⟩) := by
  obtain ⟨rows, hrows⟩ := Option.isSome_iff_exists.1 h
  simp only [linkRows, withObject, hrows, Option.map_some, Option.getD_some]

/-- A reference that is there is changed in its place, and a new one stands behind all others. -/
theorem refRows_withRef (h : s.has .refs) (name target : Text) :
    (s.withRef name target).refRows =
      if s.refRows.any (·.name = name) then
        s.refRows.map fun row => if row.name = name then ⟨name, target⟩ else row
      else s.refRows ++ [⟨name, target⟩] := by
  obtain ⟨rows, hrows⟩ := Option.isSome_iff_exists.1 h
  simp only [refRows, withRef, hrows, Option.map_some, Option.getD_some]

@[simp] theorem missingTables_withObject (s : Store) (row : ObjectRow) (targets : List Text) :
    (s.withObject row targets).missingTables = s.missingTables := by
  refine List.filter_congr fun table _ => ?_
  cases table <;> simp [has, withObject]

@[simp] theorem missingTables_withRef (s : Store) (name target : Text) :
    (s.withRef name target).missingTables = s.missingTables := by
  refine List.filter_congr fun table _ => ?_
  cases table <;> simp [has, withRef]

/-- What a reference that was moved or added adds to the rows is its own row. -/
theorem mem_withRef {name target : Text} (h : s.has .refs) {row : RefRow}
    (hrow : row ∈ (s.withRef name target).refRows) : row ∈ s.refRows ∨ row = ⟨name, target⟩ := by
  rw [refRows_withRef h] at hrow
  split at hrow
  · obtain ⟨old, hold, rfl⟩ := List.mem_map.1 hrow
    split
    · exact .inr rfl
    · exact .inl hold
  · rcases List.mem_append.1 hrow with hrow | hrow
    · exact .inl hrow
    · exact .inr (List.mem_singleton.1 hrow)

/-- Moving a reference keeps its name, and adding one adds its name. -/
theorem map_name_withRef (h : s.has .refs) (name target : Text) :
    (s.withRef name target).refRows.map (·.name) =
      if s.refRows.any (·.name = name) then s.refRows.map (·.name)
      else s.refRows.map (·.name) ++ [name] := by
  rw [refRows_withRef h]
  split
  · rw [List.map_map]
    refine List.map_congr_left fun row _ => ?_
    show (if row.name = name then _ else row).name = row.name
    split
    next hname => exact hname.symm
    · rfl
  · rw [List.map_append, List.map_singleton]

namespace Sound

/-! ## What keeps a store sound -/

theorem setLocked (h : s.Sound) (locked : Bool) : Sound { s with locked } :=
  ⟨h.tables, h.distinct, h.named, ⟨h.foreignKeys.refs, h.foreignKeys.links⟩, h.digests⟩

/-- A store stays sound with a new object under its digest, with links to whatever they lead to:
link targets need not be stored. -/
theorem withObject (h : s.Sound) (kind : Text) (payload : Bytes) (targets : List Text) :
    (s.withObject ⟨Digest.key kind payload, kind, payload⟩ targets).Sound := by
  have hobjects := objectRows_withObject (has_of_missingTables h.tables .objects)
    ⟨Digest.key kind payload, kind, payload⟩ targets
  have hlinks := linkRows_withObject (has_of_missingTables h.tables .links)
    ⟨Digest.key kind payload, kind, payload⟩ targets
  -- what was stored stays, and the new key is the only one to come in
  have hheld : ∀ key, (s.withObject ⟨Digest.key kind payload, kind, payload⟩ targets).holds key ↔
      s.holds key ∨ Digest.key kind payload = key := by
    intro key
    rw [holds, hobjects, List.any_append, Bool.or_eq_true, holds]
    simp
  refine ⟨?_, h.distinct, h.named, ⟨fun row hrow => ?_, fun l hl => ?_⟩, fun o ho => ?_⟩
  · rw [missingTables_withObject]
    exact h.tables
  · exact (hheld _).2 (.inl (h.foreignKeys.refs row hrow))
  · rw [hlinks] at hl
    rcases List.mem_append.1 hl with hl | hl
    · exact (hheld _).2 (.inl (h.foreignKeys.links l hl))
    · obtain ⟨target, -, rfl⟩ := List.mem_map.1 hl
      exact (hheld _).2 (.inr rfl)
  · rw [hobjects] at ho
    rcases List.mem_append.1 ho with ho | ho
    · exact h.digests o ho
    · rw [List.mem_singleton.1 ho]

/-- A store stays sound when a reference of an accepted name is pointed at a stored object. Its name
stays the only one of its kind, as a reference that is there is changed and not added. -/
theorem withRef (h : s.Sound) {name target : Text} {parsed : RefName}
    (hparse : RefName.parse name = .ok parsed) (htarget : s.holds target) :
    (s.withRef name target).Sound := by
  have hrefs := has_of_missingTables h.tables .refs
  refine ⟨?_, ?_, fun row hrow => ?_, ⟨fun row hrow => ?_, h.foreignKeys.links⟩, h.digests⟩
  · rw [missingTables_withRef]
    exact h.tables
  · rw [map_name_withRef hrefs]
    split
    · exact h.distinct
    -- a new name is added at the end, and differs from all that are there
    next hnew =>
      refine List.nodup_append.2 ⟨h.distinct, List.nodup_singleton _, fun a ha b hb => ?_⟩
      rintro rfl
      obtain ⟨row, hrow, hname⟩ := List.mem_map.1 ha
      refine hnew (List.any_eq_true.2 ⟨row, hrow, decide_eq_true ?_⟩)
      rw [hname, List.mem_singleton.1 hb]
  · -- each row is an old one or the one that was set
    rcases mem_withRef hrefs hrow with hrow | rfl
    · exact h.named row hrow
    · exact ⟨parsed, hparse⟩
  · rcases mem_withRef hrefs hrow with hrow | rfl
    · exact h.foreignKeys.refs row hrow
    · exact htarget

/-- A store stays sound when references are left out. -/
theorem keeping (h : s.Sound) (keep : RefRow → Bool) : (s.keeping keep).Sound := by
  refine ⟨?_, ?_, fun row hrow => ?_, foreignKeys_keeping h.foreignKeys, h.digests⟩
  · rw [missingTables_keeping]
    exact h.tables
  · rw [refRows_keeping]
    exact h.distinct.sublist (List.filter_sublist.map _)
  · rw [refRows_keeping] at hrow
    exact h.named row (List.mem_filter.1 hrow).1

theorem withoutRef (h : s.Sound) (name : Text) : (s.withoutRef name).Sound :=
  h.keeping fun row => row.name ≠ name

/-- A store stays sound without its garbage: all that a reference points to is reachable, and links
go with their source. -/
theorem collected (h : s.Sound) : s.collected.Sound := by
  refine ⟨?_, h.distinct, h.named, foreignKeys_collected h.foreignKeys, fun o ho => ?_⟩
  · rw [Store.collected, missingTables_without]
    exact h.tables
  · rw [objectRows_collected] at ho
    exact h.digests o (List.mem_filter.1 ho).1

theorem initialised_blank : blank.initialised.Sound := by
  refine ⟨by decide, by decide, ?_, ⟨?_, ?_⟩, ?_⟩
  all_goals exact fun _ h => absurd h List.not_mem_nil

/-! ## What is listed is what can be looked up -/

/-- The names of a sound store can all be read, so a listing of it does not end early. -/
theorem parseRows_failure (h : s.Sound) : (parseRows s.refRows).failure = none :=
  Store.parseRows_failure h.named

/-- The listing yields a reference of this name with this target exactly if there is such a row. -/
theorem mem_parseRows (h : s.Sound) {name target : Text} :
    (∃ r ∈ (parseRows s.refRows).references, r.name.text = name ∧ r.target = target) ↔
      ⟨name, target⟩ ∈ s.refRows := by
  obtain ⟨hrows, -⟩ := parseRows_eq h.parseRows_failure
  conv => rhs; rw [hrows]
  simp only [List.mem_map, Reference.row, RefRow.mk.injEq]

/-- So does the lookup of the name: there is but one row that it can find. -/
theorem lookup_eq_some_iff (h : s.Sound) {name target : Text} :
    (s.refRow? name).map (·.target) = some target ↔ ⟨name, target⟩ ∈ s.refRows := by
  constructor
  · intro hfound
    obtain ⟨row, hrow, rfl⟩ := Option.map_eq_some_iff.1 hfound
    have hname : row.name = name := by simpa using List.find?_some hrow
    rw [← hname]
    exact List.mem_of_find?_eq_some hrow
  · intro hmem
    have hfound : (s.refRow? name).isSome :=
      List.find?_isSome.2 ⟨_, hmem, beq_self_eq_true name⟩
    obtain ⟨row, hrow⟩ := Option.isSome_iff_exists.1 hfound
    have hname : row.name = name := by simpa using List.find?_some hrow
    -- two rows of one name are the same row
    have hsame : row = ⟨name, target⟩ :=
      List.inj_on_of_nodup_map h.distinct (List.mem_of_find?_eq_some hrow) hmem hname
    rw [hrow, hsame]
    rfl

end Sound

end RefSweep.Store
