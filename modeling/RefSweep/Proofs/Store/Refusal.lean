import RefSweep.Proofs.Store.Session

/-!
# What refuses a compaction

A compaction is a list of statements, as long as there are chunks to delete. `firstRefusal` is the
first of them that the database refuses: by plan, because a table is missing, or because another
process holds the lock. Main statements: `sweepAll_eq` and `tidy?_eq`, each part of a compaction
gets through unless one of its own statements is refused.
-/

namespace RefSweep

/-- The statement follows the commit of a compaction. -/
def Statement.followsCommit : Statement → Bool
  | .rebuild | .emptyLog => true
  | _ => false

/-- The error is operational, and its text says `locked` or `busy` in some letter case. -/
def DbError.MentionsLock (e : DbError) : Prop :=
  e.kind = .operational ∧ ∃ word, word <:+: e.text ∧
    (word.map Glyph.lower = Text.of "locked" ∨ word.map Glyph.lower = Text.of "busy")

/-- An error is taken for a lock exactly if it is operational and its text says so in some letter
case, anywhere in it. -/
theorem DbError.isLock_iff {e : DbError} : e.isLock ↔ e.MentionsLock := by
  have hword : ∀ word : Text, word.includes (e.text.map Glyph.lower) ↔
      ∃ part, part <:+: e.text ∧ part.map Glyph.lower = word := by
    intro word
    rw [Text.includes_iff, List.infix_map_iff]
    exact exists_congr fun part => and_congr_right fun _ => eq_comm
  simp only [isLock, speaksOfLock, Bool.and_eq_true, Bool.or_eq_true, decide_eq_true_eq, hword,
    MentionsLock, and_or_left, exists_or]

namespace Store

/-! ## The statements of a compaction -/

/-- The statements that delete `k` chunks, the first of them with number `n`. -/
def sweepStatements (n : Nat) : Nat → List Statement
  | 0 => []
  | k + 1 => .deleteLinks n :: .deleteObjects n :: sweepStatements (n + 1) k

/-- The statements that find the objects to delete. -/
def markStatements : List Statement := [.readObjects, .readLinks, .readTargets]

/-- The statements that follow the commit. -/
def tidyStatements : List Statement := [.rebuild, .emptyLog]

/-- The statements of a compaction, in order. -/
def compactionStatements (s : Store) : List Statement :=
  markStatements ++ (sweepStatements 0 (chunks s.unreachable).length ++ [.commit]) ++ tidyStatements

/-- Why the database refuses a statement: it is planned, the table that it reads is missing, or
another process holds the lock that the first deletion and the rebuilding need. -/
def obstacle (refusals : Refusals) (s : Store) (statement : Statement) : Option DbError :=
  (refusals statement).or <|
    match statement with
    | .readObjects => s.missing? .objects
    | .readLinks => s.missing? .links
    | .readTargets => s.missing? .refs
    | .deleteLinks _ | .rebuild => s.lock?
    | _ => none

/-- The first of the statements that is refused, and its refusal. -/
def firstRefused (refusals : Refusals) (s : Store) (statements : List Statement) :
    Option (Statement × DbError) :=
  statements.findSome? fun statement => (s.obstacle refusals statement).map (statement, ·)

/-- The first statement of a compaction that is refused, and its refusal. -/
def firstRefusal (refusals : Refusals) (s : Store) : Option (Statement × DbError) :=
  s.firstRefused refusals s.compactionStatements

variable {refusals : Refusals} {s : Store} {statements : List Statement}

@[simp] theorem firstRefused_nil : s.firstRefused refusals [] = none := rfl

/-- A statement is refused before all that come after it. -/
theorem firstRefused_cons (statement : Statement) :
    s.firstRefused refusals (statement :: statements) =
      ((s.obstacle refusals statement).map (statement, ·)).or
        (s.firstRefused refusals statements) := by
  rw [firstRefused, List.findSome?_cons]
  cases s.obstacle refusals statement <;> rfl

/-- What refuses the first part of a sequence of statements keeps the rest from being looked at. -/
theorem firstRefused_append (first rest : List Statement) :
    s.firstRefused refusals (first ++ rest) =
      (s.firstRefused refusals first).or (s.firstRefused refusals rest) :=
  List.findSome?_append

/-- Deleting objects takes away no table and no lock. -/
theorem firstRefused_without (keys : List Text) :
    (s.without keys).firstRefused refusals statements = s.firstRefused refusals statements := by
  have hobstacle : (s.without keys).obstacle refusals = s.obstacle refusals := by
    funext statement
    cases statement <;> simp only [obstacle, missing?, has_without, lock?_without]
  rw [firstRefused, hobstacle, firstRefused]

/-- The statement that is refused first is one of the statements. -/
theorem mem_of_firstRefused {statement : Statement} {e : DbError}
    (h : s.firstRefused refusals statements = some (statement, e)) : statement ∈ statements := by
  obtain ⟨other, hmem, hother⟩ := List.exists_of_findSome?_eq_some h
  obtain ⟨_, -, heq⟩ := Option.map_eq_some_iff.1 hother
  rwa [← (Prod.mk.inj heq).1]

/-- The statements that find the objects come before the commit. -/
theorem followsCommit_markStatements {statement : Statement} (h : statement ∈ markStatements) :
    statement.followsCommit = false := by
  simp only [markStatements, List.mem_cons, List.not_mem_nil, or_false] at h
  rcases h with rfl | rfl | rfl <;> rfl

/-- The statements that rebuild the file and empty its log come after it. -/
theorem followsCommit_tidyStatements {statement : Statement} (h : statement ∈ tidyStatements) :
    statement.followsCommit = true := by
  simp only [tidyStatements, List.mem_cons, List.not_mem_nil, or_false] at h
  rcases h with rfl | rfl <;> rfl

/-- The deletions come before it, however many chunks there are. -/
theorem followsCommit_sweepStatements {n k : Nat} {statement : Statement}
    (h : statement ∈ sweepStatements n k) : statement.followsCommit = false := by
  induction k generalizing n with
  | zero => exact absurd h List.not_mem_nil
  | succ k ih =>
    rcases List.mem_cons.1 h with rfl | h
    · rfl
    · rcases List.mem_cons.1 h with rfl | h
      · rfl
      · exact ih h

/-! ## Each part of a compaction fails with its first refusal -/

/-- Where no reference points at a key of the chunks, a sweep gets through unless a statement is
refused. -/
theorem sweep_eq {n : Nat} {cs : List (List Text)}
    (hpin : ∀ row ∈ s.refRows, row.target ∉ cs.flatten) :
    sweep refusals s n cs =
      match s.firstRefused refusals (sweepStatements n cs.length) with
      | some (_, e) => .error e
      | none => .ok (s.without cs.flatten) := by
  induction cs generalizing s n with
  | nil => rw [sweep, List.flatten_nil, without_nil]; rfl
  | cons chunk rest ih =>
    have hchunk : s.pin? chunk = none := pin?_eq_none fun row hrow hmem =>
      hpin row hrow (List.mem_flatten.2 ⟨chunk, .head _, hmem⟩)
    -- deleting a chunk leaves references and lock alone, so the rest meets what it would have met
    have hrest := ih (s := s.without chunk) (n := n + 1) fun row hrow hmem =>
      hpin row hrow (List.mem_append_right _ hmem)
    rw [without_without, firstRefused_without] at hrest
    have hlinks : (refusals (.deleteLinks n)).or s.lock? = s.obstacle refusals (.deleteLinks n) :=
      rfl
    have hobjects : (refusals (.deleteObjects n)).or none =
        s.obstacle refusals (.deleteObjects n) := rfl
    rw [List.length_cons, sweepStatements, firstRefused_cons, firstRefused_cons, sweep, hchunk,
      hlinks, hobjects]
    cases s.obstacle refusals (.deleteLinks n) with
    | some e => rfl
    | none =>
      cases s.obstacle refusals (.deleteObjects n) with
      | some e => rfl
      | none => exact hrest

/-- Deleting the chunks and committing fails with the first refusal among these statements, and else
leaves the store without the objects. No foreign key gets in the way, if no reference points to one
of them. -/
theorem sweepAll_eq {keys : List Text} (hpin : ∀ row ∈ s.refRows, row.target ∉ keys) :
    s.sweepAll refusals keys =
      match s.firstRefused refusals (sweepStatements 0 (chunks keys).length ++ [.commit]) with
      | some (_, e) => .error e
      | none => .ok (s.without keys) := by
  have hsweep : s.sweep refusals 0 (chunks keys) = _ := sweep_eq (by rwa [flatten_chunks])
  rw [sweepAll, hsweep, firstRefused_append, firstRefused_cons, firstRefused_nil, flatten_chunks]
  cases s.firstRefused refusals (sweepStatements 0 (chunks keys).length) with
  | some refused => rfl
  | none =>
    have hcommit : s.obstacle refusals .commit = refusals .commit := Option.or_none
    rw [hcommit]
    cases refusals .commit <;> rfl

/-- Where no reference keeps a deletion back, none that points to a stored object points to one of
those that are deleted. -/
theorem not_held_of_pin?_eq_none {keys : List Text} (h : s.pin? keys = none) :
    ∀ row ∈ s.refRows, s.holds row.target → row.target ∉ keys := by
  intro row hrow hheld hmem
  unfold pin? at h
  rw [if_pos] at h
  · cases h
  · refine List.any_eq_true.2 ⟨row, hrow, ?_⟩
    rw [Bool.and_eq_true, List.contains_iff_mem]
    exact ⟨hmem, hheld⟩

/-- A sweep that gets through has deleted its chunks, and no reference points at what it deleted. If
there was a chunk at all, nobody held the lock. -/
theorem sweep_eq_ok {n : Nat} {cs : List (List Text)} {swept : Store}
    (h : sweep refusals s n cs = .ok swept) :
    swept = s.without cs.flatten ∧
      (∀ row ∈ s.refRows, s.holds row.target → row.target ∉ cs.flatten) ∧
      (cs ≠ [] → s.locked = false) := by
  -- by induction on the chunks: each finds the store without those before it
  induction cs generalizing s n with
  | nil =>
    rw [sweep] at h
    refine ⟨?_, fun _ _ _ => List.not_mem_nil, fun hne => absurd rfl hne⟩
    rw [List.flatten_nil, without_nil, Except.ok.inj h]
  | cons chunk rest ih =>
    rw [sweep] at h
    split at h
    · cases h
    next hlinks =>
      split at h
      · cases h
      next hobjects =>
        have hpin := not_held_of_pin?_eq_none (Option.or_eq_none_iff.1 hobjects).2
        obtain ⟨rfl, hrest, -⟩ := ih (s := s.without chunk) h
        refine ⟨?_, fun row hrow hheld hmem => ?_, fun _ => ?_⟩
        · rw [without_without, List.flatten_cons]
        · -- the target is not in this chunk, so it is still stored for the others
          have hfirst := hpin row hrow hheld
          rcases List.mem_append.1 (List.flatten_cons ▸ hmem) with hmem | hmem
          · exact hfirst hmem
          · exact hrest row hrow (holds_without.2 ⟨hheld, hfirst⟩) hmem
        · have hlock := (Option.or_eq_none_iff.1 hlinks).2
          unfold lock? at hlock
          cases hlocked : s.locked with
          | false => rfl
          | true =>
            rw [hlocked] at hlock
            cases hlock

theorem chunks_ne_nil {keys : List Text} (h : keys ≠ []) : chunks keys ≠ [] := by
  rw [chunks, if_neg h]
  exact List.cons_ne_nil _ _

/-- Deletions that went through have deleted exactly these objects. No reference to a stored object
pointed to one of them, and if there was anything to delete nobody held the lock. -/
theorem sweepAll_eq_ok {keys : List Text} {swept : Store}
    (h : s.sweepAll refusals keys = .ok swept) :
    swept = s.without keys ∧ (∀ row ∈ s.refRows, s.holds row.target → row.target ∉ keys) ∧
      (keys ≠ [] → s.locked = false) := by
  unfold sweepAll at h
  split at h
  · cases h
  next swept' hswept =>
    split at h
    · cases h
    · obtain rfl := Except.ok.inj h
      obtain ⟨hwithout, hrefs, hlock⟩ := sweep_eq_ok hswept
      -- the chunks put together are the keys
      rw [flatten_chunks] at hwithout hrefs
      exact ⟨hwithout, hrefs, fun hkeys => hlock (chunks_ne_nil hkeys)⟩

/-- What follows the commit fails with the first refusal among its statements. -/
theorem tidy?_eq :
    s.tidy? refusals = (s.firstRefused refusals tidyStatements).map (·.2) := by
  have hrebuild : s.obstacle refusals .rebuild = (refusals .rebuild).or s.lock? := rfl
  have hlog : s.obstacle refusals .emptyLog = refusals .emptyLog := Option.or_none
  rw [tidy?, tidyStatements, firstRefused_cons, firstRefused_cons, firstRefused_nil, hrebuild, hlog]
  cases refusals .rebuild <;> cases s.lock? <;> cases refusals .emptyLog <;> rfl

/-- What the statements of the plan read is refused where the table is missing. -/
theorem refusal?_tables (s : Store) (table : Table) :
    Query.refusal?.missing? s.tables table = s.missing? table := by
  have htables : s.tables.contains table = s.has table := by
    cases table <;> simp [tables, Table.all]
  rw [Query.refusal?.missing?, htables, missing?]

/-! ## Where nothing but the plan refuses -/

/-- Where all tables are there and nobody holds the lock, a statement is refused only if that was
planned. -/
theorem obstacle_eq (htables : s.missingTables = []) (hlock : s.locked = false) :
    s.obstacle refusals = refusals := by
  have hhas : ∀ table, s.has table := has_of_missingTables htables
  funext statement
  cases statement <;> simp [obstacle, missing?, lock?, hlock, hhas]

/-- Where nothing is planned either, no statement is refused. -/
theorem firstRefusal_none (htables : s.missingTables = []) (hlock : s.locked = false) :
    s.firstRefusal .none = none := by
  rw [firstRefusal, firstRefused, obstacle_eq htables hlock, List.findSome?_eq_none_iff]
  exact fun _ _ => rfl

/-- Each statement of a compaction can be the first that is refused. Without a lock and with all
tables, nothing stands in its way but the refusal itself. -/
theorem firstRefusal_one {statement : Statement} (e : DbError) (htables : s.missingTables = [])
    (hlock : s.locked = false) (hmem : statement ∈ s.compactionStatements) :
    s.firstRefusal (fun other => if other = statement then some e else none) =
      some (statement, e) := by
  rw [firstRefusal]
  generalize s.compactionStatements = statements at hmem ⊢
  -- by induction on the statements: those in front of this one meet no obstacle
  induction statements with
  | nil => cases hmem
  | cons other rest ih =>
    rw [firstRefused_cons, obstacle_eq htables hlock]
    by_cases hother : other = statement
    · rw [if_pos hother, hother]
      rfl
    · rw [if_neg hother]
      exact ih ((List.mem_cons.1 hmem).resolve_left (Ne.symm hother))

end Store

end RefSweep
