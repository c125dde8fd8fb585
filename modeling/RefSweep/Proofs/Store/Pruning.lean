import RefSweep.Namespace
import RefSweep.Proofs.Store.Collection
import RefSweep.Store.Rows

/-!
# Pruned stores

A store is pruned for some peers by taking away the references that they own and collecting the
garbage. What the references that stay reach is not touched by collecting garbage before. So it does
not matter when references go and when garbage is collected (`collected_keeping`), and pruning twice
is pruning once for all peers (`pruned_pruned`).
-/

namespace RefSweep

/-- The row is one of a reference that the peer owns. -/
def RefRow.ownedBy (row : RefRow) (owner : Peer) : Bool :=
  match RefName.parse row.name with
  | .ok name => owner.owns name
  | .error _ => false

namespace Store

variable {s : Store} {keep : RefRow → Bool}

/-! ## Keeping some of the references -/

/-- The store without the references that are not to be kept. -/
def keeping (s : Store) (keep : RefRow → Bool) : Store :=
  { s with refs := s.refs.map (·.filter keep) }

@[simp] theorem refRows_keeping (s : Store) (keep : RefRow → Bool) :
    (s.keeping keep).refRows = s.refRows.filter keep := by
  unfold keeping refRows
  cases s.refs <;> rfl

theorem keeping_keeping (s : Store) (first next : RefRow → Bool) :
    (s.keeping first).keeping next = s.keeping fun row => first row && next row := by
  simp only [keeping, Option.map_map, Function.comp_def, List.filter_filter, Bool.and_comm]

/-- Only the rows that are there count. -/
theorem keeping_congr {keep' : RefRow → Bool}
    (h : s.refRows.filter keep = s.refRows.filter keep') : s.keeping keep = s.keeping keep' := by
  unfold keeping
  cases hrefs : s.refs with
  | none => rfl
  | some rows =>
    rw [refRows, hrefs, Option.getD_some] at h
    simp only [Option.map_some, h]

@[simp] theorem missingTables_keeping (s : Store) (keep : RefRow → Bool) :
    (s.keeping keep).missingTables = s.missingTables := by
  refine List.filter_congr fun table _ => ?_
  cases table <;> simp [has, keeping]

/-- The references that are kept have their objects as before, and no link is touched. -/
theorem foreignKeys_keeping (h : s.ForeignKeys) : (s.keeping keep).ForeignKeys where
  refs row hrow := by
    rw [refRows_keeping] at hrow
    exact h.refs row (List.mem_filter.1 hrow).1
  links := h.links

/-- Fewer references reach less. -/
theorem reaches_of_keeping {key : Text} (h : (s.keeping keep).Reaches key) : s.Reaches key := by
  induction h with
  | ref hrow =>
    rw [refRows_keeping] at hrow
    exact .ref (List.mem_filter.1 hrow).1
  | link hl _ ih => exact .link hl ih

/-- Which keys are taken away is decided by the stored ones among them: keys of nothing may be added
or left out. -/
theorem without_congr (h : s.ForeignKeys) {keys keys' : List Text}
    (hkeys : ∀ key, s.holds key → (key ∈ keys ↔ key ∈ keys')) : s.without keys = s.without keys' := by
  have hobjects : ∀ o ∈ s.objectRows, (!keys.contains o.key) = !keys'.contains o.key := by
    intro o ho
    simp only [List.contains_eq_mem, hkeys o.key (holds_iff.2 ⟨o, ho, rfl⟩)]
  -- a link's source is stored, so it is taken away on both sides or on neither
  have hlinks : ∀ l ∈ s.linkRows, (!keys.contains l.source) = !keys'.contains l.source := by
    intro l hl
    simp only [List.contains_eq_mem, hkeys l.source (h.links l hl)]
  unfold without withoutLinks withoutObjects
  unfold objectRows at hobjects
  unfold linkRows at hlinks
  cases ho : s.objects <;> cases hl : s.links <;> rw [ho] at hobjects <;> rw [hl] at hlinks <;>
    simp only [Option.map_none, Option.map_some, Option.getD_some] at hobjects hlinks ⊢
  · rw [List.filter_congr hlinks]
  · rw [List.filter_congr hobjects]
  · rw [List.filter_congr hobjects, List.filter_congr hlinks]

/-- Garbage that is collected before references go would have been collected after it. -/
theorem collected_keeping (h : s.ForeignKeys) (keep : RefRow → Bool) :
    (s.collected.keeping keep).collected = (s.keeping keep).collected := by
  have hkeys : (s.keeping keep).ForeignKeys := foreignKeys_keeping h
  have hswap : s.collected.keeping keep = (s.keeping keep).without s.unreachable := rfl
  rw [hswap, collected, without_without, collected]
  refine without_congr hkeys fun key hheld => ?_
  have hstored : ∀ t : Store, key ∈ t.keys ↔ t.holds key := fun t => by simp [keys, holds_iff]
  rw [List.mem_append, mem_unreachable, mem_unreachable, mem_unreachable, hstored, hstored, hstored,
    holds_without, mem_unreachable, hstored]
  have hheld' : s.holds key := hheld
  by_cases hreached : s.Reaches key
  · -- what is not garbage yet is reached as it was: nothing on the way there is garbage
    have hsame : ((s.keeping keep).without s.unreachable).Reaches key ↔
        (s.keeping keep).Reaches key := by
      refine reaches_congr (refRows_without _ _) (fun l hl => ?_) key
      have hsource : l.source ∉ s.unreachable := fun hmem =>
        (mem_unreachable.1 hmem).2 (reaches_of_keeping hl)
      simp [List.mem_filter, hsource]
    simp [hheld, hheld', hreached, hsame]
  · have hnot : ¬ (s.keeping keep).Reaches key := fun hk => hreached (reaches_of_keeping hk)
    simp [hheld, hheld', hreached, hnot]

/-- `t` is what deletions and compactions have left of `s` so far: collecting its garbage gives what
collecting that of `s` gives where some of the references are kept. -/
structure Remnant (s t : Store) : Prop where
  foreignKeys : t.ForeignKeys
  collects : ∃ keep, t.collected = (s.keeping keep).collected

namespace Remnant

variable {t : Store}

/-- A store is left of itself, with all references kept. -/
theorem refl (h : s.ForeignKeys) : Remnant s s := by
  refine ⟨h, fun _ => true, ?_⟩
  have hall : s.keeping (fun _ => true) = s := by
    have hrows : ∀ rows : List RefRow, rows.filter (fun _ => true) = rows := fun rows =>
      List.filter_eq_self.2 fun _ _ => rfl
    obtain ⟨_, _, _, refs, _, _⟩ := s
    cases refs with
    | none => rfl
    | some rows =>
      show Store.mk _ _ _ (some (rows.filter fun _ => true)) _ _ = _
      rw [hrows]
  rw [hall]

/-- What is left stays so when more references are deleted: collecting the garbage comes last in any
case, whether it was also done before. -/
theorem keeping (hs : s.ForeignKeys) (h : Remnant s t) (next : RefRow → Bool) :
    Remnant s (t.keeping next) := by
  obtain ⟨keep, hkeep⟩ := h.collects
  refine ⟨foreignKeys_keeping h.foreignKeys, fun row => keep row && next row, ?_⟩
  calc (t.keeping next).collected
      = (t.collected.keeping next).collected := (collected_keeping h.foreignKeys next).symm
    _ = ((s.keeping keep).collected.keeping next).collected := by rw [hkeep]
    _ = ((s.keeping keep).keeping next).collected :=
      collected_keeping (foreignKeys_keeping hs) next
    _ = (s.keeping fun row => keep row && next row).collected := by rw [keeping_keeping]

theorem withoutRef (hs : s.ForeignKeys) (h : Remnant s t) (name : Text) :
    Remnant s (t.withoutRef name) := h.keeping hs fun row => row.name ≠ name

/-- Collecting the garbage in between changes nothing about what is left in the end. -/
theorem collected (h : Remnant s t) : Remnant s t.collected := by
  obtain ⟨keep, hkeep⟩ := h.collects
  refine ⟨foreignKeys_collected h.foreignKeys, keep, ?_⟩
  rw [← hkeep, collected_collected]

end Remnant

/-! ## Pruning -/

/-- The store without the references of some peers, and without the garbage that this leaves. -/
def pruned (s : Store) (owners : List Peer) : Store :=
  (s.keeping fun row => !owners.any row.ownedBy).collected

theorem foreignKeys_pruned (h : s.ForeignKeys) (owners : List Peer) :
    (s.pruned owners).ForeignKeys := foreignKeys_collected (foreignKeys_keeping h)

/-- Pruning for some peers and then for others is pruning for all of them at once. -/
theorem pruned_pruned (h : s.ForeignKeys) (first rest : List Peer) :
    (s.pruned first).pruned rest = s.pruned (first ++ rest) := by
  unfold pruned
  rw [collected_keeping (foreignKeys_keeping h), keeping_keeping]
  simp only [List.any_append, Bool.not_or]

/-- Only the set of the peers counts. -/
theorem pruned_congr {owners owners' : List Peer} (h : ∀ p, p ∈ owners ↔ p ∈ owners') :
    s.pruned owners = s.pruned owners' := by
  have hany : ∀ row : RefRow, owners.any row.ownedBy = owners'.any row.ownedBy := by
    intro row
    rw [Bool.eq_iff_iff, List.any_eq_true, List.any_eq_true]
    simp only [h]
  simp only [pruned, hany]

/-- Pruning leaves tables and version alone, so the schema is judged as before. -/
theorem checkSchema_pruned (s : Store) (owners : List Peer) :
    (s.pruned owners).checkSchema = s.checkSchema := by
  have htables : (s.pruned owners).missingTables = s.missingTables := by
    rw [pruned, collected, missingTables_without, missingTables_keeping]
  have hversion : (s.pruned owners).version? = s.version? := rfl
  rw [checkSchema, htables, hversion, checkSchema]

/-- There is nothing left to collect. -/
theorem unreachable_pruned (s : Store) (owners : List Peer) :
    (s.pruned owners).unreachable = [] := unreachable_collected _

/-- `after` is `before` without the references of these peers: what the others reach is left. -/
structure Pruned (owners : List Peer) (before after : Store) : Prop where
  /-- The references that stay are those that none of the peers owns, as they were. -/
  refs : after.refRows = before.refRows.filter fun row => !owners.any row.ownedBy
  /-- The objects that stay are those that these references reach. -/
  objects : after.objectRows = before.objectRows.filter fun o =>
    (before.keeping fun row => !owners.any row.ownedBy).Reaches o.key
  /-- The links that stay are those whose source stays. -/
  links : after.linkRows = before.linkRows.filter fun l => after.holds l.source
  /-- Metadata, lock and guards are as before. -/
  rest : after = { before with
    refs := after.refs, objects := after.objects, links := after.links }

theorem pruned_spec (h : s.ForeignKeys) (owners : List Peer) : Pruned owners s (s.pruned owners) where
  refs := refRows_keeping s _
  objects := objectRows_collected _
  links := linkRows_collected (foreignKeys_keeping h)
  rest := rfl

end Store

end RefSweep
