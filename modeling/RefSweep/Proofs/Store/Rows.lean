import RefSweep.Proofs.Account
import RefSweep.Store.Rows

/-!
# The rows of a list of references

A store lists references if its rows are theirs. Names are the key of the table, so that no two rows
share one, and the database stores nothing but characters. Deleting a name then takes away its only
row, which is the first.
-/

namespace RefSweep

/-- The row of a reference. -/
def Reference.row (r : Reference) : RefRow := ⟨r.name.text, r.target⟩

namespace Store

/-- What a database makes sure of for the table of references. -/
structure Keyed (rows : List RefRow) : Prop where
  distinct : (rows.map (·.name)).Nodup
  characters : ∀ row ∈ rows, row.name.strayRun? = none

/-- The rows of the store are those of these references. -/
structure Lists (s : Store) (refs : List Reference) : Prop where
  rows : s.refRows = refs.map Reference.row
  names : ∀ r ∈ refs, RefName.parse r.name.text = .ok r.name
  keyed : Keyed s.refRows

/-- A listing without failure gives the references of all rows. Each of them has the text of its row
as its name, so nothing is lost between the two. -/
theorem parseRows_eq {rows : List RefRow} (h : (parseRows rows).failure = none) :
    rows = (parseRows rows).references.map Reference.row ∧
      ∀ r ∈ (parseRows rows).references, RefName.parse r.name.text = .ok r.name := by
  -- by induction on the rows: without a failure each is parsed, and gives the name back as its text
  induction rows with
  | nil => exact ⟨rfl, fun _ h => absurd h List.not_mem_nil⟩
  | cons row rest ih =>
    rw [parseRows] at h ⊢
    cases hparse : RefName.parse row.name with
    | error fault => rw [hparse] at h; cases h
    | ok name =>
      rw [hparse] at h
      obtain ⟨hrows, hnames⟩ := ih h
      have htext : name.text = row.name := RefName.text_parse hparse
      constructor
      · rw [List.map_cons, ← hrows, Reference.row, htext]
      · intro r hr
        rcases List.mem_cons.1 hr with rfl | hr
        · rw [← hparse, htext]
        · exact hnames r hr

/-- What a listing gives are rows with names that can be read, also if it fails in the end. -/
theorem mem_parseRows {rows : List RefRow} {r : Reference}
    (hr : r ∈ (parseRows rows).references) :
    RefName.parse r.name.text = .ok r.name ∧ r.row ∈ rows := by
  -- a row that is not parsed ends the listing, so what was given before it stays
  induction rows with
  | nil => cases hr
  | cons row rest ih =>
    rw [parseRows] at hr
    cases hparse : RefName.parse row.name with
    | error fault =>
      rw [hparse] at hr
      cases hr
    | ok name =>
      rw [hparse] at hr
      rcases List.mem_cons.1 hr with rfl | hr
      · have htext : name.text = row.name := RefName.text_parse hparse
        refine ⟨by rw [← hparse, htext], ?_⟩
        rw [Reference.row, htext]
        exact .head _
      · obtain ⟨hname, hrow⟩ := ih hr
        exact ⟨hname, .tail _ hrow⟩

/-- Where all names can be read the listing does not fail. -/
theorem parseRows_failure {rows : List RefRow}
    (h : ∀ row ∈ rows, ∃ name, RefName.parse row.name = .ok name) :
    (parseRows rows).failure = none := by
  induction rows with
  | nil => rfl
  | cons row rest ih =>
    obtain ⟨name, hname⟩ := h row (.head _)
    rw [parseRows, hname]
    exact ih fun row hrow => h row (.tail _ hrow)

/-- A store whose rows are keyed by name lists what the rows are parsed to, when each of them
parses. -/
theorem lists_of_parseRows {s : Store} (hkeyed : Keyed s.refRows)
    (h : (parseRows s.refRows).failure = none) : s.Lists (parseRows s.refRows).references :=
  ⟨(parseRows_eq h).1, (parseRows_eq h).2, hkeyed⟩

/-- The rows of references whose names parse are parsed back to these references. -/
theorem parseRows_map_row {refs : List Reference}
    (hnames : ∀ r ∈ refs, RefName.parse r.name.text = .ok r.name) :
    parseRows (refs.map Reference.row) = ⟨refs, none⟩ := by
  induction refs with
  | nil => rfl
  | cons r rest ih =>
    have hparse : RefName.parse (Reference.row r).name = .ok r.name := hnames r (.head _)
    rw [List.map_cons, parseRows, hparse, ih fun r hr => hnames r (.tail _ hr)]
    rfl

namespace Lists

variable {s : Store} {refs : List Reference}

theorem congr {s' : Store} (h : s.Lists refs) (hrefs : s'.refRows = s.refRows) : s'.Lists refs :=
  ⟨hrefs.trans h.rows, h.names, hrefs ▸ h.keyed⟩

theorem parseRows (h : s.Lists refs) : parseRows s.refRows = ⟨refs, none⟩ := by
  rw [h.rows]
  exact parseRows_map_row h.names

/-- A store never lists one name twice, as the name is the key of the row. -/
theorem distinct (h : s.Lists refs) : (refs.map (·.name)).Nodup := by
  have htexts := h.keyed.distinct
  rw [h.rows, List.map_map] at htexts
  refine List.Pairwise.of_map (S := (· ≠ ·)) RefName.text
    (fun a b hne heq => hne (congrArg _ heq)) ?_
  rw [List.map_map]
  exact htexts

/-- The names a store lists hold no stray character, so each of them may be sent back to the
database. -/
theorem characters (h : s.Lists refs) {name : RefName} (hname : name ∈ refs.map (·.name)) :
    name.text.strayRun? = none := by
  obtain ⟨r, hr, rfl⟩ := List.mem_map.1 hname
  exact h.keyed.characters r.row (by rw [h.rows]; exact List.mem_map_of_mem hr)

end Lists

/-- Where every name stands once, dropping the first entry of a name drops all the entries of that
name. -/
theorem withoutFirst_eq_filter {name : RefName} {refs : List Reference}
    (h : (refs.map (·.name)).Nodup) : withoutFirst name refs = refs.filter (·.name ≠ name) := by
  induction refs with
  | nil => rfl
  | cons r rest ih =>
    obtain ⟨hnew, hrest⟩ := List.nodup_cons.1 h
    by_cases hr : r.name = name
    · -- the first one is the only one
      have hothers : rest.filter (·.name ≠ name) = rest := by
        refine List.filter_eq_self.2 fun r' hr' => decide_eq_true fun heq => hnew ?_
        show r.name ∈ rest.map (·.name)
        rw [hr, ← heq]
        exact List.mem_map_of_mem hr'
      rw [withoutFirst, List.eraseP_cons_of_pos (by simpa using hr),
        List.filter_cons_of_neg (by simpa using hr), hothers]
    · rw [withoutFirst, List.eraseP_cons_of_neg (by simpa using hr),
        List.filter_cons_of_pos (by simpa using hr), ← ih hrest]
      rfl

/-- Where no name occurs twice, taking away the first reference of each owned name leaves exactly
what is not owned. -/
theorem withoutEach_eq_filter {names : List RefName} {refs : List Reference}
    (h : (refs.map (·.name)).Nodup) : withoutEach names refs = refs.filter (·.name ∉ names) := by
  induction names generalizing refs with
  | nil => exact (List.filter_eq_self.2 fun r _ => by simp).symm
  | cons name rest ih =>
    have hfirst : withoutFirst name refs = _ := withoutFirst_eq_filter h
    have hleft : ((withoutFirst name refs).map (·.name)).Nodup := by
      rw [hfirst]
      exact h.sublist (List.filter_sublist.map _)
    rw [withoutEach_cons, ih hleft, hfirst, List.filter_filter]
    refine List.filter_congr fun r _ => ?_
    simp [not_or, Bool.and_comm]

/-- Where every name stands once, dropping the first entry of each owned name leaves just the
references that are not owned. -/
theorem withoutEach_owned {owner : Peer} {refs : List Reference} (h : (refs.map (·.name)).Nodup) :
    withoutEach ((owner.owned refs).map (·.name)) refs = refs.filter (!owner.owns ·.name) := by
  rw [withoutEach_eq_filter h]
  refine List.filter_congr fun r hr => ?_
  rw [map_name_owned, Bool.eq_iff_iff]
  simp [List.mem_filter, List.mem_map_of_mem (f := (·.name)) hr]

theorem mem_withoutFirst {name : RefName} {refs : List Reference} {r : Reference}
    (h : r ∈ withoutFirst name refs) : r ∈ refs := List.mem_of_mem_eraseP h

namespace Lists

variable {s : Store} {refs : List Reference}

/-- Deleting the rows of a name is taking away the first reference of it. The names are keys of
their rows, so there is one row and one reference. -/
theorem withoutRef (h : s.Lists refs) {name : RefName} (hname : name ∈ refs.map (·.name)) :
    (s.withoutRef name.text).Lists (withoutFirst name refs) := by
  have hrows : (s.withoutRef name.text).refRows = s.refRows.filter (·.name ≠ name.text) := by
    unfold Store.withoutRef refRows
    cases s.refs <;> rfl
  -- texts of listed names are equal exactly if the names are, as each is parsed back
  obtain ⟨held, hheld, rfl⟩ := List.mem_map.1 hname
  refine ⟨?_, fun r hr => h.names r (mem_withoutFirst hr), ?_⟩
  · rw [hrows, h.rows, List.filter_map, withoutFirst_eq_filter h.distinct]
    refine congrArg _ (List.filter_congr fun r hr => ?_)
    show decide (r.name.text ≠ held.name.text) = decide (r.name ≠ held.name)
    rw [decide_eq_decide]
    exact not_congr ⟨RefName.eq_of_text_eq (h.names r hr) (h.names held hheld), congrArg _⟩
  · rw [hrows]
    refine ⟨h.keyed.distinct.sublist (List.filter_sublist.map _), fun row hrow => ?_⟩
    exact h.keyed.characters row (List.mem_filter.1 hrow).1

end Lists

end Store

end RefSweep
