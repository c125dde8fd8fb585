import RefSweep.Store.Schema

/-!
# What initialising a store adds

A store is looked at table by table. Initialising it keeps the rows of every table, makes the
missing tables, and adds one row at most, the version where none is recorded (`rows?_initialised`).
What this leaves is complete, and a complete store is left as it is (`initialised_eq_self_iff`).
`Judged` says what a check of the schema has to answer, and `judged_checkSchema` that this is what
it answers.
-/

namespace RefSweep

/-- The rows of a table. -/
def Table.Row : Table → Type
  | metadata => MetaRow
  | links => LinkRow
  | objects => ObjectRow
  | refs => RefRow

theorem Table.mem_all (t : Table) : t ∈ Table.all := by cases t <;> decide

namespace Store

variable {s : Store} {t : Table}

/-- The rows of a table, if the table is there. -/
def rows? (s : Store) : (t : Table) → Option (List t.Row)
  | .metadata => s.metadata.map (·.rows)
  | .links => s.links
  | .objects => s.objects
  | .refs => s.refs

/-- A store has a table exactly if it has rows for it, be they none. -/
theorem has_eq (s : Store) (t : Table) : s.has t = (s.rows? t).isSome := by
  cases t with
  | metadata => exact (Option.isSome_map ..).symm
  | links | objects | refs => rfl

theorem mem_missingTables : t ∈ s.missingTables ↔ s.rows? t = none := by
  rw [missingTables, List.mem_filter, has_eq]
  simp [Table.mem_all]

/-- No table is missing exactly if each of them has its rows. So what is known of a single table can
be read off the list. -/
theorem missingTables_eq_nil_iff : s.missingTables = [] ↔ ∀ t, s.rows? t ≠ none := by
  simp only [List.eq_nil_iff_forall_not_mem, mem_missingTables, ne_eq]

/-! ## Initialising -/

/-- The row of the known version, where the metadata record none. -/
def versionRows (s : Store) : List MetaRow :=
  if s.version? = none then [⟨versionKey, knownVersion⟩] else []

/-- The rows that initialising adds to a table. -/
def additions (s : Store) : (t : Table) → List t.Row
  | .metadata => s.versionRows
  | .links | .objects | .refs => []

theorem metadataRows_filled (s : Store) : s.filled.metadataRows = s.metadataRows := by
  unfold filled metadataRows
  cases s.metadata <;> rfl

theorem version?_filled (s : Store) : s.filled.version? = s.version? := by
  rw [version?, metadataRows_filled, version?]

/-- What initialising does once the tables are there depends on the version that was recorded
before: one is added where there was none, and nothing is touched where there was any. -/
theorem initialised_eq (s : Store) : s.initialised =
    if s.version? = none then s.filled.withVersion (some knownVersion) else s.filled := by
  unfold initialised
  rw [version?_filled]
  cases s.version? with
  | none => rfl
  | some v => rfl

/-- Recording the version where there is none adds a row behind all others, and where there is one
the rows of the metadata stay as they are. -/
theorem metadataRows_initialised (s : Store) :
    s.initialised.metadataRows = s.metadataRows ++ s.versionRows := by
  rw [initialised_eq, versionRows]
  split
  next hnone =>
    -- no row has the key of the version yet, so nothing is overwritten
    have hothers : s.filled.metadataRows.filter (·.key ≠ versionKey) = s.filled.metadataRows := by
      refine List.filter_eq_self.2 fun row hrow => ?_
      have hfind : s.filled.metadataRows.find? (·.key = versionKey) = none :=
        Option.map_eq_none_iff.1 ((version?_filled s).trans hnone)
      simpa using List.find?_eq_none.1 hfind row hrow
    have hrows : (s.filled.withVersion (some knownVersion)).metadataRows =
        s.filled.metadataRows.filter (·.key ≠ versionKey) ++ [⟨versionKey, knownVersion⟩] := rfl
    rw [hrows, hothers, metadataRows_filled]
  · rw [metadataRows_filled, List.append_nil]

/-- Table by table, initialising keeps the rows that were there, in their order, and adds at most
the version behind them. -/
theorem rows?_initialised (s : Store) (t : Table) :
    s.initialised.rows? t = some ((s.rows? t).getD [] ++ s.additions t) := by
  cases t with
  | metadata =>
    have hthere : s.initialised.metadata.map (·.rows) = some s.initialised.metadataRows := by
      rw [initialised_eq]
      split <;> rfl
    exact hthere.trans (congrArg some s.metadataRows_initialised)
  | links | objects | refs =>
    rw [initialised_eq]
    split <;> exact congrArg some (List.append_nil _).symm

/-- After initialising, no table is missing. -/
theorem missingTables_initialised (s : Store) : s.initialised.missingTables = [] :=
  missingTables_eq_nil_iff.2 fun t => by
    rw [rows?_initialised]
    exact Option.some_ne_none _

/-- After initialising, the version is the one that was recorded before, or the known one where none
was. -/
theorem version?_initialised (s : Store) :
    s.initialised.version? = some (s.version?.getD knownVersion) := by
  -- a version that is recorded stands in front of the row that is added
  rw [version?, metadataRows_initialised, List.find?_append]
  unfold versionRows
  cases hversion : s.version? with
  | none =>
    have hnone : s.metadataRows.find? (·.key = versionKey) = none :=
      Option.map_eq_none_iff.1 hversion
    rw [hnone]
    rfl
  | some v =>
    obtain ⟨row, hrow, rfl⟩ := Option.map_eq_some_iff.1 hversion
    rw [hrow]
    rfl

/-- Nothing is missing: every table is there, and a version is recorded. -/
structure Complete (s : Store) : Prop where
  tables : ∀ t, s.rows? t ≠ none
  version : s.version? ≠ none

/-- What initialising leaves is complete, whatever part of the store was there. -/
theorem complete_initialised (s : Store) : s.initialised.Complete where
  tables := missingTables_eq_nil_iff.1 s.missingTables_initialised
  version := by
    rw [version?_initialised]
    exact Option.some_ne_none _

/-- Initialising changes nothing exactly where nothing is missing. So doing it again changes
nothing. -/
theorem initialised_eq_self_iff : s.initialised = s ↔ s.Complete := by
  constructor
  · intro hsame
    exact hsame ▸ s.complete_initialised
  · rintro ⟨htables, hversion⟩
    rw [initialised_eq, if_neg hversion]
    -- every table is there, so each of the four fills is the table itself
    have hmetadata : s.metadata ≠ none := fun hnone => htables .metadata (by rw [rows?, hnone]; rfl)
    obtain ⟨metadata, hmetadata⟩ := Option.ne_none_iff_exists'.1 hmetadata
    obtain ⟨links, hlinks⟩ := Option.ne_none_iff_exists'.1 (htables .links)
    obtain ⟨objects, hobjects⟩ := Option.ne_none_iff_exists'.1 (htables .objects)
    obtain ⟨refs, hrefs⟩ := Option.ne_none_iff_exists'.1 (htables .refs)
    cases s
    simp only [rows?] at hmetadata hlinks hobjects hrefs
    subst hmetadata hlinks hobjects hrefs
    rfl

/-- `s'` is `s` made complete: the tables keep their rows, the missing ones are empty, and there is
one more row if no version was recorded. -/
structure Completed (s s' : Store) : Prop where
  rows : ∀ t, s'.rows? t = some ((s.rows? t).getD [] ++ s.additions t)
  locked : s'.locked = s.locked
  guards : s'.guards = s.guards

theorem completed_initialised (s : Store) : s.Completed s.initialised := by
  refine ⟨s.rows?_initialised, ?_, ?_⟩ <;> rw [initialised_eq] <;> split <;> rfl

/-! ## Checking -/

/-- The names of the missing tables, each once and in their order. -/
structure NamesMissing (s : Store) (names : List Text) : Prop where
  sorted : names.Pairwise fun name name' => Text.le name name' = true ∧ name ≠ name'
  mem_iff : ∀ name, name ∈ names ↔ ∃ t, s.rows? t = none ∧ name = t.name

/-- The missing tables are named in the order of all tables, which is the order of their names. -/
theorem namesMissing (s : Store) : s.NamesMissing (s.missingTables.map (·.name)) where
  sorted := by
    have hall : (Table.all.map (·.name)).Pairwise
        fun name name' => Text.le name name' = true ∧ name ≠ name' := by decide +kernel
    exact hall.sublist (List.filter_sublist.map _)
  mem_iff name := by
    simp only [List.mem_map, mem_missingTables, eq_comm]

/-- What a check of the schema has to answer: missing tables come before an unknown version. -/
structure Judged (s : Store) (verdict : Except ReadFault Text) : Prop where
  ok_iff : ∀ version, verdict = .ok version ↔
    (∀ t, s.rows? t ≠ none) ∧ s.version? = some version ∧ version = knownVersion
  incomplete : (∃ t, s.rows? t = none) →
    ∃ names, s.NamesMissing names ∧ verdict = .error (.missingTables names)
  outdated : (∀ t, s.rows? t ≠ none) → s.version? ≠ some knownVersion →
    verdict = .error (.schemaVersion s.version?)

/-- Where a table is missing, the check says which ones, and does not look at the version. -/
theorem checkSchema_of_missing (h : s.missingTables ≠ []) :
    s.checkSchema = .error (.missingTables (s.missingTables.map (·.name))) := by
  unfold checkSchema
  split
  next hnone => exact absurd hnone h
  · rfl

/-- Where no table is missing, the version decides: the known one is accepted, and any other is
refused by its name. -/
theorem checkSchema_of_complete (h : s.missingTables = []) : s.checkSchema =
    if s.version? = some knownVersion then .ok knownVersion
    else .error (.schemaVersion s.version?) := by
  unfold checkSchema
  rw [h]
  dsimp only
  cases s.version? with
  | none => rfl
  | some v =>
    dsimp only
    by_cases hv : v = knownVersion
    · rw [hv, if_pos rfl, if_pos rfl]
    · rw [if_neg hv, if_neg fun heq => hv (Option.some.inj heq)]

/-- The check answers what it has to, in every state of a store: its cases are whether a table is
missing, and which version is recorded. -/
theorem judged_checkSchema (s : Store) : s.Judged s.checkSchema := by
  by_cases hcomplete : s.missingTables = []
  · have hall := missingTables_eq_nil_iff.1 hcomplete
    rw [checkSchema_of_complete hcomplete]
    refine ⟨fun version => ?_, fun ⟨t, ht⟩ => absurd ht (hall t), fun _ hversion => if_neg hversion⟩
    split
    next hknown =>
      rw [hknown, Except.ok.injEq, Option.some.injEq]
      exact ⟨fun heq => ⟨hall, heq, heq.symm⟩, fun h => h.2.1⟩
    next hother => exact ⟨nofun, fun ⟨_, hversion, heq⟩ => absurd (heq ▸ hversion) hother⟩
  · -- a missing table is named, whatever version is recorded
    obtain ⟨t, hmem⟩ := List.exists_mem_of_ne_nil _ hcomplete
    have ht := mem_missingTables.1 hmem
    rw [checkSchema_of_missing hcomplete]
    exact ⟨fun version => ⟨nofun, fun h => absurd ht (h.1 t)⟩,
      fun _ => ⟨_, s.namesMissing, rfl⟩, fun h => absurd ht (h t)⟩

/-- After initialising, a store passes if its metadata gave no version or the known one. -/
theorem checkSchema_initialised (s : Store) : (∃ version, s.initialised.checkSchema = .ok version) ↔
    s.version? = none ∨ s.version? = some knownVersion := by
  rw [checkSchema_of_complete s.missingTables_initialised, version?_initialised]
  cases s.version? with
  | none => simp
  | some v => by_cases hv : v = knownVersion <;> simp [hv]

end Store

end RefSweep
