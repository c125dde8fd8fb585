import RefSweep.Proofs.Store.Reachability
import RefSweep.Store.Compaction
import RefSweep.Store.Schema

/-!
# What a compaction leaves

A compaction sweeps the unreachable keys chunk by chunk. None of the chunks can be refused for a
foreign key, since a reference never points at an unreachable object. Main statement:
`collected_garbage`, the rows that stay are the reached objects and the links that go out from them.
-/

namespace RefSweep.Store

/-- The rows respect the foreign keys: references point at stored objects, and links go out from
stored objects. They may lead anywhere. -/
structure ForeignKeys (s : Store) : Prop where
  refs : ∀ row ∈ s.refRows, s.holds row.target
  links : ∀ l ∈ s.linkRows, s.holds l.source

instance (s : Store) : Decidable s.ForeignKeys :=
  decidable_of_iff
    ((∀ row ∈ s.refRows, s.holds row.target) ∧ ∀ l ∈ s.linkRows, s.holds l.source)
    ⟨fun h => ⟨h.1, h.2⟩, fun h => ⟨h.refs, h.links⟩⟩

/-- If no table is missing, each single one is there. -/
theorem has_of_missingTables {s : Store} (h : s.missingTables = []) (table : Table) :
    s.has table := by
  have hall := List.filter_eq_nil_iff.1 h table (by cases table <;> decide)
  simpa using hall

theorem holds_iff {s : Store} {key : Text} : s.holds key ↔ ∃ o ∈ s.objectRows, o.key = key := by
  simp [holds]

/-! ## The chunks -/

/-- The chunks together are all the keys, in their order and each in one chunk only. -/
theorem flatten_chunks (keys : List Text) : (chunks keys).flatten = keys := by
  fun_induction chunks keys with
  | case1 => rfl
  | case2 keys hne ih => rw [List.flatten_cons, ih, List.take_append_drop]

/-- The store without these objects and without the links that go out from them. -/
def without (s : Store) (keys : List Text) : Store := (s.withoutLinks keys).withoutObjects keys

@[simp] theorem refRows_without (s : Store) (keys : List Text) :
    (s.without keys).refRows = s.refRows := rfl

@[simp] theorem lock?_without (s : Store) (keys : List Text) : (s.without keys).lock? = s.lock? :=
  rfl

/-- The rows of the deleted objects are gone and the others stay in their order, also where the
table is missing. -/
@[simp] theorem objectRows_without (s : Store) (keys : List Text) :
    (s.without keys).objectRows = s.objectRows.filter fun o => !keys.contains o.key := by
  unfold without withoutLinks withoutObjects objectRows
  cases s.objects <;> rfl

@[simp] theorem linkRows_without (s : Store) (keys : List Text) :
    (s.without keys).linkRows = s.linkRows.filter fun l => !keys.contains l.source := by
  unfold without withoutLinks withoutObjects linkRows
  cases s.links <;> rfl

@[simp] theorem has_without (s : Store) (keys : List Text) (t : Table) :
    (s.without keys).has t = s.has t := by
  unfold without withoutLinks withoutObjects has
  cases t <;> simp

@[simp] theorem missingTables_without (s : Store) (keys : List Text) :
    (s.without keys).missingTables = s.missingTables := by
  simp only [missingTables, has_without]

@[simp] theorem without_nil (s : Store) : s.without [] = s := by
  obtain ⟨_, links, objects, _, _, _⟩ := s
  cases links <;> cases objects <;> simp [without, withoutLinks, withoutObjects]

/-- Deleting objects chunk after chunk is deleting all of them at once. -/
theorem without_without (s : Store) (first rest : List Text) :
    (s.without first).without rest = s.without (first ++ rest) := by
  simp only [without, withoutLinks, withoutObjects, Option.map_map, Function.comp_def,
    List.filter_filter, List.contains_eq_mem, List.mem_append, Bool.decide_or, Bool.not_or,
    Bool.and_comm]

/-- After objects were deleted, those are held that were held before and are not among them. -/
theorem holds_without {s : Store} {keys : List Text} {key : Text} :
    (s.without keys).holds key ↔ s.holds key ∧ key ∉ keys := by
  simp only [holds_iff, objectRows_without, List.mem_filter, Bool.not_eq_true',
    List.contains_eq_mem, decide_eq_false_iff_not]
  constructor
  · rintro ⟨o, ⟨ho, hout⟩, rfl⟩
    exact ⟨⟨o, ho, rfl⟩, hout⟩
  · rintro ⟨⟨o, ho, rfl⟩, hout⟩
    exact ⟨o, ⟨ho, hout⟩, rfl⟩

/-- The deletion of objects is not refused if no reference points to one of them. -/
theorem pin?_eq_none {s : Store} {keys : List Text} (h : ∀ row ∈ s.refRows, row.target ∉ keys) :
    s.pin? keys = none := by
  refine if_neg ?_
  simp only [List.any_eq_true, Bool.and_eq_true, List.contains_eq_mem, decide_eq_true_eq,
    not_exists, not_and]
  exact fun row hrow hmem => absurd hmem (h row hrow)

/-! ## The garbage -/

/-- The store without its unreachable objects. -/
def collected (s : Store) : Store := s.without s.unreachable

theorem refRows_collected (s : Store) : s.collected.refRows = s.refRows := rfl

theorem target_not_unreachable {s : Store} {row : RefRow} (h : row ∈ s.refRows) :
    row.target ∉ s.unreachable := fun hmem => (mem_unreachable.1 hmem).2 (.ref h)

/-- The foreign key of the references refuses no chunk, and would not as long as the references are
the same. -/
theorem chunk_not_pinned {s t : Store} (hrefs : t.refRows = s.refRows) {chunk : List Text}
    (hchunk : chunk ∈ chunks s.unreachable) : t.pin? chunk = none := by
  refine pin?_eq_none fun row hrow hmem => ?_
  rw [hrefs] at hrow
  refine target_not_unreachable hrow ?_
  rw [← flatten_chunks s.unreachable]
  exact List.mem_flatten.2 ⟨chunk, hchunk, hmem⟩

/-- Collecting the garbage leaves exactly the rows of the reachable objects, in their order. -/
theorem objectRows_collected (s : Store) :
    s.collected.objectRows = s.objectRows.filter fun o => s.Reaches o.key := by
  rw [collected, objectRows_without]
  refine List.filter_congr fun o ho => ?_
  have hkey : o.key ∈ s.keys := List.mem_map_of_mem ho
  simp [mem_unreachable, hkey]

/-- After collecting, those objects are held that were held and are reachable. -/
theorem holds_collected {s : Store} {key : Text} :
    s.collected.holds key ↔ s.holds key ∧ s.Reaches key := by
  have hkeys : key ∈ s.keys ↔ s.holds key := by simp [keys, holds_iff]
  rw [collected, holds_without, mem_unreachable, hkeys]
  by_cases h : s.holds key <;> simp [h]

/-- After collecting, those links are left that lead from an object which is left. Foreign keys are
needed for this: a link without its source would not be collected. -/
theorem linkRows_collected {s : Store} (h : s.ForeignKeys) :
    s.collected.linkRows = s.linkRows.filter fun l => s.collected.holds l.source := by
  rw [collected, linkRows_without]
  refine List.filter_congr fun l hl => ?_
  -- the source is stored, so it stays exactly if it is not swept
  have hsource := h.links l hl
  rw [Bool.eq_iff_iff, holds_without]
  simp [hsource]

/-- The links from what is reached stay, so that it is reached as before. -/
theorem reaches_collected (s : Store) (key : Text) : s.collected.Reaches key ↔ s.Reaches key := by
  refine reaches_congr (refRows_collected s) (fun l hreached => ?_) key
  have hstays : l.source ∉ s.unreachable := fun hmem => (mem_unreachable.1 hmem).2 hreached
  rw [collected, linkRows_without, List.mem_filter]
  simp [hstays]

/-- Collecting leaves no reference without its object and no link without its source, if there were
none before. -/
theorem foreignKeys_collected {s : Store} (h : s.ForeignKeys) : s.collected.ForeignKeys where
  refs row hrow := holds_collected.2 ⟨h.refs row hrow, .ref hrow⟩
  links l hl := by
    rw [linkRows_collected h] at hl
    exact (List.mem_filter.1 hl).2

/-- There is no garbage left to collect. -/
theorem unreachable_collected (s : Store) : s.collected.unreachable = [] := by
  refine List.eq_nil_iff_forall_not_mem.2 fun key hmem => ?_
  obtain ⟨hkey, hnot⟩ := mem_unreachable.1 hmem
  obtain ⟨o, ho, rfl⟩ := List.mem_map.1 hkey
  exact hnot ((reaches_collected s _).2 (holds_collected.1 (holds_iff.2 ⟨o, ho, rfl⟩)).2)

/-- Collecting twice is collecting once. -/
theorem collected_collected (s : Store) : s.collected.collected = s.collected := by
  show s.collected.without s.collected.unreachable = s.collected
  rw [unreachable_collected, without_nil]

/-- `after` is `before` with its garbage collected, `removed` objects of it. -/
structure Collected (before after : Store) (removed : Nat) : Prop where
  /-- The objects that stay are the reached ones, as they were. -/
  objects : after.objectRows = before.objectRows.filter fun o => before.Reaches o.key
  /-- The links that stay are those that go out from an object that stays. -/
  links : after.linkRows = before.linkRows.filter fun l => after.holds l.source
  /-- No link of these leads to an object that was removed. -/
  intact : ∀ l ∈ after.linkRows, before.holds l.target → after.holds l.target
  removed : before.objectRows.length = after.objectRows.length + removed
  /-- References, metadata, lock and guards are as before. -/
  rest : after = { before with objects := after.objects, links := after.links }

/-- Collecting a store with its foreign keys is what a compaction has to come to, and its count is
the number of unreachable objects. -/
theorem collected_garbage {s : Store} (h : s.ForeignKeys) :
    Collected s s.collected s.unreachable.length where
  objects := objectRows_collected s
  links := linkRows_collected h
  intact l hl htarget := by
    rw [linkRows_collected h] at hl
    obtain ⟨hl, hsource⟩ := List.mem_filter.1 hl
    exact holds_collected.2 ⟨htarget, .link hl (holds_collected.1 hsource).2⟩
  removed := by
    rw [objectRows_collected, length_unreachable, ← List.countP_eq_length_filter,
      List.length_eq_countP_add_countP (fun o : ObjectRow => decide (s.Reaches o.key))]
    simp
  rest := rfl

end RefSweep.Store
