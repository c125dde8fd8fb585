import RefSweep.Store.Reachability

/-!
# What the marking reaches

`Reaches` is reachability as an inductive relation: the targets of the references, and those of the
links that go out from what is reached. `marked` computes it with a work list that sees each link
once. Main statement: `mem_reachable_iff`, the keys it collects are exactly those that are reached,
whatever cycles, shared parts or links to missing objects there are.
-/

namespace RefSweep.Store

/-- The references reach this key, by themselves or through links. -/
inductive Reaches (s : Store) : Text → Prop where
  | ref {row : RefRow} (held : row ∈ s.refRows) : Reaches s row.target
  | link {l : LinkRow} (held : l ∈ s.linkRows) (reached : Reaches s l.source) : Reaches s l.target

theorem mem_targetsOf {key target : Text} {links : List LinkRow} :
    target ∈ targetsOf key links ↔ ∃ l ∈ links, l.source = key ∧ l.target = target := by
  simp only [targetsOf, List.mem_map, List.mem_filter, beq_iff_eq, and_assoc]

theorem mem_otherLinks {key : Text} {links : List LinkRow} {l : LinkRow} :
    l ∈ otherLinks key links ↔ l ∈ links ∧ l.source ≠ key := by
  simp only [otherLinks, List.mem_filter, bne_iff_ne]

/-- The marking stays inside every set that holds its start and is closed under the links. -/
theorem marked_sound {P : Text → Prop} (links : List LinkRow) (seen pending : List Text)
    (hseen : ∀ key ∈ seen, P key) (hpending : ∀ key ∈ pending, P key)
    (hlinks : ∀ l ∈ links, P l.source → P l.target) :
    ∀ key ∈ marked links seen pending, P key := by
  -- by the cases of the marking: a key is done already, or its targets are added and its links are
  -- spent
  fun_induction marked links seen pending with
  | case1 links seen => exact hseen
  | case2 links seen key pending hmem ih =>
    exact ih hseen (fun k hk => hpending k (.tail _ hk)) hlinks
  | case3 links seen key pending hmem ih =>
    have hkey : P key := hpending key (.head _)
    refine ih ?_ ?_ fun l hl => hlinks l (mem_otherLinks.1 hl).1
    · intro k hk
      rcases List.mem_cons.1 hk with rfl | hk
      · exact hkey
      · exact hseen k hk
    · intro k hk
      rcases List.mem_append.1 hk with hk | hk
      · obtain ⟨l, hl, hsource, rfl⟩ := mem_targetsOf.1 hk
        exact hlinks l hl (hsource ▸ hkey)
      · exact hpending k (.tail _ hk)

/-- The marking keeps its start, and follows every link from what it adds. The links from keys that
were seen before are not its business: they have been followed. -/
theorem marked_complete (links : List LinkRow) (seen pending : List Text) :
    (∀ key ∈ seen, key ∈ marked links seen pending) ∧
      (∀ key ∈ pending, key ∈ marked links seen pending) ∧
      ∀ l ∈ links, l.source ∈ marked links seen pending → l.source ∉ seen →
        l.target ∈ marked links seen pending := by
  fun_induction marked links seen pending with
  | case1 links seen =>
    exact ⟨fun _ h => h, fun _ h => absurd h List.not_mem_nil, fun _ _ h hnew => absurd h hnew⟩
  | case2 links seen key pending hmem ih =>
    obtain ⟨hseen, hpending, hlinks⟩ := ih
    refine ⟨hseen, fun k hk => ?_, hlinks⟩
    rcases List.mem_cons.1 hk with rfl | hk
    · exact hseen k hmem
    · exact hpending k hk
  | case3 links seen key pending hmem ih =>
    obtain ⟨hseen, hpending, hlinks⟩ := ih
    refine ⟨fun k hk => hseen k (.tail _ hk), fun k hk => ?_, fun l hl hsource hnew => ?_⟩
    · rcases List.mem_cons.1 hk with rfl | hk
      · exact hseen k (.head _)
      · exact hpending k (List.mem_append_right _ hk)
    · by_cases hkey : l.source = key
      -- the links from the key at hand have become pending
      · exact hpending _ (List.mem_append_left _ (mem_targetsOf.2 ⟨l, hl, hkey, rfl⟩))
      · refine hlinks l (mem_otherLinks.2 ⟨hl, hkey⟩) hsource fun h => ?_
        rcases List.mem_cons.1 h with h | h
        · exact hkey h
        · exact hnew h

/-- The marked keys are exactly the reached ones. -/
theorem mem_reachable_iff {s : Store} {key : Text} : key ∈ s.reachable ↔ s.Reaches key := by
  obtain ⟨-, hstart, hlinks⟩ := marked_complete s.linkRows [] (s.refRows.map (·.target))
  constructor
  · refine marked_sound _ _ _ (fun _ h => absurd h List.not_mem_nil) (fun k hk => ?_)
      (fun l hl h => .link hl h) key
    obtain ⟨row, hrow, rfl⟩ := List.mem_map.1 hk
    exact .ref hrow
  · intro h
    induction h with
    | ref hrow => exact hstart _ (List.mem_map_of_mem hrow)
    | link hl _ ih => exact hlinks _ hl ih List.not_mem_nil

instance (s : Store) (key : Text) : Decidable (s.Reaches key) :=
  decidable_of_iff (key ∈ s.reachable) mem_reachable_iff

/-- What is reached depends on the references and the links only, and of these only on the ones that
go out from something reached. -/
theorem reaches_congr {s t : Store} (hrefs : t.refRows = s.refRows)
    (hlinks : ∀ l, s.Reaches l.source → (l ∈ t.linkRows ↔ l ∈ s.linkRows)) (key : Text) :
    t.Reaches key ↔ s.Reaches key := by
  constructor
  · intro h
    induction h with
    | ref hrow => exact .ref (hrefs ▸ hrow)
    | link hl _ ih => exact .link ((hlinks _ ih).1 hl) ih
  · intro h
    induction h with
    | ref hrow => exact .ref (hrefs ▸ hrow)
    | link hl h ih => exact .link ((hlinks _ h).2 hl) ih

/-! ## The unreachable objects -/

theorem mem_unreachable {s : Store} {key : Text} :
    key ∈ s.unreachable ↔ key ∈ s.keys ∧ ¬ s.Reaches key := by
  simp only [unreachable, List.mem_mergeSort, List.mem_filter, Bool.not_eq_true',
    List.contains_eq_mem, decide_eq_false_iff_not, mem_reachable_iff]

theorem length_unreachable (s : Store) :
    s.unreachable.length = s.objectRows.countP (fun o => !decide (s.Reaches o.key)) := by
  simp only [unreachable, List.length_mergeSort, keys, List.filter_map, List.length_map,
    List.countP_eq_length_filter, Function.comp_def, List.contains_eq_mem, mem_reachable_iff]

end RefSweep.Store
