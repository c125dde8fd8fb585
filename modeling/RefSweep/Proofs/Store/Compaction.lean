import RefSweep.Proofs.Store.Refusal

/-!
# Compacting as garbage collection

`compact_firstRefusal` says what the compaction of a session does, by the first of its statements
that is refused. Main statements: `compact_collects`, a compaction that is not refused collects
exactly the garbage, and the next one finds nothing; `compact_all_or_nothing`, one that is refused
leaves all of the garbage or none.
-/

namespace RefSweep.Session

variable {x : Session} {d : Database}

/-- Reading the tables fails with the first refusal of the marking. -/
theorem readAll_marks (refusals : Refusals) (hcur : x.Current d) :
    (x.readAll refusals d
        [(.readObjects, .keys), (.readLinks, .links), (.readTargets, .targets)]).2 =
      (d.store.firstRefused refusals Store.markStatements).map (·.2) := by
  rw [readAll_refusal refusals hcur]
  simp only [Store.markStatements, Store.firstRefused_cons, Store.firstRefused_nil, Store.obstacle,
    List.findSome?_cons, List.findSome?_nil, Query.refusal?, Store.refusal?_tables]
  cases (refusals .readObjects).or (d.store.missing? .objects) <;>
    cases (refusals .readLinks).or (d.store.missing? .links) <;>
    cases (refusals .readTargets).or (d.store.missing? .refs) <;> rfl

/-- A compaction fails with its first refusal, and what was committed before that stays. Without a
refusal it counts the unreachable objects and leaves the store collected. -/
theorem compact_firstRefusal (refusals : Refusals) (hsusp : x.suspended = false)
    (hcur : x.Current d) :
    let step := x.compact refusals d
    (step.session.suspended = false ∧ step.session.transaction = .idle) ∧
      match d.store.firstRefusal refusals with
      | none =>
        (∃ bytes, step.result = .ok ⟨some d.store.unreachable.length, bytes⟩) ∧
          step.database.store = d.store.collected
      | some (statement, e) =>
        step.result = .error (compactionError e) ∧
          if statement.followsCommit then step.database.store = d.store.collected
          else step.database = d := by
  rw [Store.firstRefusal, Store.compactionStatements, Store.firstRefused_append,
    Store.firstRefused_append]
  unfold compact unlessSuspended
  dsimp only
  rw [hsusp]
  cases hplanned : refusals .readObjects with
  | some e =>
    rw [Store.markStatements, Store.firstRefused_cons, Store.obstacle, hplanned]
    exact ⟨⟨rfl, rfl⟩, rfl, rfl⟩
  | none =>
    have hmarks := readAll_marks refusals hcur
    have hread := continues_readAll refusals x d
      [(.readObjects, .keys), (.readLinks, .links), (.readTargets, .targets)]
    revert hmarks hread
    rcases x.readAll refusals d
      [(.readObjects, .keys), (.readLinks, .links), (.readTargets, .targets)] with ⟨y, refusal⟩
    rintro rfl hread
    cases hmark : d.store.firstRefused refusals Store.markStatements with
    | some refused =>
      obtain ⟨statement, e⟩ := refused
      have hearly := Store.followsCommit_markStatements (Store.mem_of_firstRefused hmark)
      refine ⟨⟨rfl, rfl⟩, rfl, ?_⟩
      rw [hearly]
      rfl
    | none =>
      -- reading has left the session current, so that it sweeps the store as it is
      dsimp only [Option.map_none, Option.none_or]
      rw [if_neg Bool.false_ne_true, (hread.current hcur).swept_view,
        Store.sweepAll_eq fun row hrow => Store.target_not_unreachable hrow]
      cases hsweep : d.store.firstRefused refusals
          (Store.sweepStatements 0 (Store.chunks d.store.unreachable).length ++ [.commit]) with
      | some refused =>
        obtain ⟨statement, e⟩ := refused
        have hearly : statement.followsCommit = false := by
          rcases List.mem_append.1 (Store.mem_of_firstRefused hsweep) with hmem | hmem
          · exact Store.followsCommit_sweepStatements hmem
          · rw [List.mem_singleton.1 hmem]
            rfl
        refine ⟨⟨rfl, rfl⟩, rfl, ?_⟩
        rw [hearly]
        rfl
      | none =>
        -- nothing is committed where nothing was swept, which is collecting no garbage
        have hafter : (if d.store.unreachable = [] then d
            else d.commit { d.store.without d.store.unreachable with
              locked := d.store.locked }).store = d.store.collected := by
          rw [Store.collected]
          split
          next hnone => rw [hnone, Store.without_nil]
          · rfl
        have htidy : d.store.collected.tidy? refusals = _ := Store.tidy?_eq
        rw [Store.collected, Store.firstRefused_without, ← Store.collected, ← hafter] at htidy
        dsimp only [Option.none_or]
        rw [htidy]
        cases hlate : d.store.firstRefused refusals Store.tidyStatements with
        | some refused =>
          obtain ⟨statement, e⟩ := refused
          have hfollows := Store.followsCommit_tidyStatements (Store.mem_of_firstRefused hlate)
          refine ⟨⟨rfl, rfl⟩, rfl, ?_⟩
          rw [hfollows]
          exact hafter
        | none => exact ⟨⟨rfl, rfl⟩, ⟨_, rfl⟩, hafter⟩

/-- What a compaction can do, whatever is refused: fail with an error of the store that leaves it as
it was or collected, or count the unreachable objects and leave it collected. -/
theorem compact_cases (refusals : Refusals) (hsusp : x.suspended = false) (hcur : x.Current d) :
    let step := x.compact refusals d
    (step.session.suspended = false ∧ step.session.transaction = .idle) ∧
      ((∃ e, step.result = .error (compactionError e) ∧
          (step.database.store = d.store ∨ step.database.store = d.store.collected)) ∨
        (∃ bytes, step.result = .ok ⟨some d.store.unreachable.length, bytes⟩) ∧
          step.database.store = d.store.collected) := by
  obtain ⟨hends, hstep⟩ := compact_firstRefusal refusals hsusp hcur
  refine ⟨hends, ?_⟩
  -- whichever statement is refused first, it comes either before the commit or after it
  cases hfirst : d.store.firstRefusal refusals with
  | none =>
    rw [hfirst] at hstep
    exact .inr hstep
  | some refused =>
    rw [hfirst] at hstep
    obtain ⟨hresult, hstore⟩ := hstep
    refine .inl ⟨_, hresult, ?_⟩
    split at hstore
    · exact .inr hstore
    · exact .inl (congrArg _ hstore)

/-- A suspended session compacts nothing. -/
theorem compact_suspended (refusals : Refusals) (d : Database) (hsusp : x.suspended = true) :
    ∃ f, (x.compact refusals d).result = .error f := by
  unfold compact unlessSuspended
  dsimp only
  split
  next e _ => exact ⟨_, rfl⟩
  · rw [if_pos hsusp]
    exact ⟨_, rfl⟩

/-- A compaction with a result has counted the garbage and collected it, and is over: its
transaction has ended and the number is that of the objects removed. -/
theorem compact_of_ok {refusals : Refusals} {stats : CompactionStats} (hcur : x.Current d)
    (hok : (x.compact refusals d).result = .ok stats) :
    let step := x.compact refusals d
    step.session.transaction = .idle ∧
      stats.objectsRemoved = some ↑d.store.unreachable.length ∧
      step.database.store = d.store.collected := by
  -- a suspended session would have failed
  have hsusp : x.suspended = false := by
    refine Bool.eq_false_iff.2 fun h => ?_
    obtain ⟨f, hfail⟩ := compact_suspended refusals d h
    cases hok.symm.trans hfail
  obtain ⟨⟨-, hidle⟩, ⟨e, hfail, -⟩ | ⟨⟨bytes, hstats⟩, hstore⟩⟩ :=
    compact_cases refusals hsusp hcur
  · cases hok.symm.trans hfail
  · obtain rfl := Except.ok.inj (hok.symm.trans hstats)
    exact ⟨hidle, rfl, hstore⟩

/-- Nothing but the database, a lock or a missing table can make a compaction fail. -/
theorem compact_none (hsusp : x.suspended = false) (hcur : x.Current d)
    (htables : d.store.missingTables = []) (hlock : d.store.locked = false) :
    ∃ stats, (x.compact .none d).result = .ok stats := by
  obtain ⟨-, hstep⟩ := compact_firstRefusal .none hsusp hcur
  rw [Store.firstRefusal_none htables hlock] at hstep
  obtain ⟨⟨bytes, hok⟩, -⟩ := hstep
  exact ⟨_, hok⟩

/-- A compaction of a store that respects its foreign keys. These refuse none of its chunks; where
the database refuses nothing else, it ends with a result, and so does the next one. Whatever is
refused, a result means that the garbage is collected, and the next result that there was none left.
-/
theorem compact_collects (refusals : Refusals) (x : Session) (d : Database) (hcur : x.Current d)
    (hkeys : d.store.ForeignKeys) :
    let step := x.compact refusals d
    (∀ chunk ∈ Store.chunks d.store.unreachable, ∀ s : Store, s.refRows = d.store.refRows →
      s.pin? chunk = none) ∧
    (refusals = .none → x.suspended = false → d.store.missingTables = [] →
      d.store.locked = false → (∃ stats, step.result = .ok stats) ∧
        ∃ stats, (step.session.compact .none step.database).result = .ok stats) ∧
    ∀ stats, step.result = .ok stats → ∃ removed : Nat, stats.objectsRemoved = some ↑removed ∧
      Store.Collected d.store step.database.store removed ∧ step.database.store.ForeignKeys ∧
      ∀ refusals' stats', (step.session.compact refusals' step.database).result = .ok stats' →
        stats'.objectsRemoved = some 0 ∧
          (step.session.compact refusals' step.database).database.store = step.database.store := by
  intro step
  refine ⟨fun chunk hchunk s hrefs => Store.chunk_not_pinned hrefs hchunk, ?_, ?_⟩
  · -- where nothing is refused both compactions succeed, the second on the store the first has left
    rintro rfl hsusp htables hlock
    obtain ⟨stats, hok⟩ := compact_none hsusp hcur htables hlock
    obtain ⟨⟨hsusp', hidle⟩, ⟨e, hfail, -⟩ | ⟨-, hstore⟩⟩ := compact_cases .none hsusp hcur
    · cases hok.symm.trans hfail
    refine ⟨⟨stats, hok⟩, compact_none hsusp' (current_of_idle hidle) ?_ ?_⟩
    · rw [hstore, Store.collected, Store.missingTables_without, htables]
    · rw [hstore]
      exact hlock
  · -- a result means that the statements have all gone through
    intro stats hok
    obtain ⟨hidle, hremoved, hstore⟩ := compact_of_ok hcur hok
    refine ⟨d.store.unreachable.length, hremoved, ?_, ?_, fun refusals' stats' hok' => ?_⟩
    · rw [hstore]
      exact Store.collected_garbage hkeys
    · rw [hstore]
      exact Store.foreignKeys_collected hkeys
    · -- the second compaction finds a store without garbage
      obtain ⟨-, hremoved', hstore'⟩ :=
        compact_of_ok (current_of_idle (d := step.database) hidle) hok'
      have hclean : step.database.store.unreachable = [] := by
        rw [hstore]
        exact Store.unreachable_collected d.store
      refine ⟨by rw [hremoved', hclean]; rfl, ?_⟩
      rw [hstore', Store.collected, hclean, Store.without_nil]

/-- A store with a cycle, a link to itself and a link to nothing, and with a cycle that no reference
reaches. -/
def tangled : Store where
  metadata := some (.record .empty Store.versionKey (some Store.knownVersion))
  links := some [⟨"a", "b"⟩, ⟨"b", "a"⟩, ⟨"b", "b"⟩, ⟨"b", "z"⟩, ⟨"c", "d"⟩, ⟨"d", "c"⟩, ⟨"d", "a"⟩]
  objects := some [⟨"a", "commit", []⟩, ⟨"b", "tree", []⟩, ⟨"c", "commit", []⟩, ⟨"d", "tree", []⟩]
  refs := some [⟨"refs/heads/main", "a"⟩]
  locked := false
  guards := []

theorem compact_tangled :
    (fresh.Current ⟨tangled, 0⟩ ∧ tangled.ForeignKeys) ∧
      ∃ stats, (fresh.compact .none ⟨tangled, 0⟩).result = .ok stats ∧
        (fresh.compact .none ⟨tangled, 0⟩).database.store.objectRows =
          [⟨"a", "commit", []⟩, ⟨"b", "tree", []⟩] := by
  have hcur : fresh.Current ⟨tangled, 0⟩ := current_of_idle rfl
  have hkeys : tangled.ForeignKeys := by decide
  obtain ⟨-, hends, hcollects⟩ := compact_collects .none .fresh ⟨tangled, 0⟩ hcur hkeys
  obtain ⟨⟨stats, hok⟩, -⟩ := hends rfl rfl (by decide) rfl
  obtain ⟨removed, -, hcollected, -⟩ := hcollects stats hok
  refine ⟨⟨hcur, hkeys⟩, stats, hok, hcollected.objects.trans ?_⟩
  cbv

/-- A session that has just compacted, with or without success, collects the garbage of the store
it began with as soon as nobody disturbs it. -/
theorem compact_again (refusals : Refusals) (hsusp : x.suspended = false) (hcur : x.Current d)
    (htables : d.store.missingTables = []) :
    let step := x.compact refusals d
    let later := step.session.compact .none (step.database.setLocked false)
    (∃ stats, later.result = .ok stats) ∧
      later.database.store = (d.setLocked false).store.collected := by
  intro step later
  obtain ⟨⟨hsusp', hidle⟩, hstep⟩ := compact_cases refusals hsusp hcur
  have hstore : step.database.store = d.store ∨ step.database.store = d.store.collected := by
    rcases hstep with ⟨-, -, hstore⟩ | ⟨-, hstore⟩
    · exact hstore
    · exact .inr hstore
  -- the first compaction left the store as it was or collected: collecting comes to the same
  have hcollected : (step.database.setLocked false).store.collected =
      (d.setLocked false).store.collected := by
    show { step.database.store with locked := false }.collected = _
    rcases hstore with hstore | hstore
    · rw [hstore]
      rfl
    · rw [hstore]
      exact Store.collected_collected (d.setLocked false).store
  have htables' : (step.database.setLocked false).store.missingTables = [] := by
    show step.database.store.missingTables = []
    rcases hstore with hstore | hstore
    · rw [hstore, htables]
    · rw [hstore, Store.collected, Store.missingTables_without, htables]
  obtain ⟨stats, hok⟩ := compact_none hsusp' (current_of_idle hidle) htables' rfl
  obtain ⟨-, -, hlater⟩ := compact_of_ok (current_of_idle hidle) hok
  exact ⟨⟨stats, hok⟩, hlater.trans hcollected⟩

/-- A compaction is all or nothing, whichever of its statements the database refuses first. It fails
with the error of a lock if that is what the database speaks of, and with that of a compaction
otherwise. Up to the commit nothing has happened; after it all garbage is collected. The references
stay in any case, and compacting again, undisturbed, collects what is left to collect. -/
theorem compact_all_or_nothing (refusals : Refusals) (x : Session) (d : Database)
    (hsusp : x.suspended = false) (hcur : x.Current d) (hkeys : d.store.ForeignKeys) :
    let step := x.compact refusals d
    let later := step.session.compact .none (step.database.setLocked false)
    (match d.store.firstRefusal refusals with
      | none =>
        (∃ stats, step.result = .ok stats) ∧
          Store.Collected d.store step.database.store d.store.unreachable.length
      | some (statement, e) =>
        (e.MentionsLock → step.result = .error (Error.locked "compact" e.text)) ∧
        (¬ e.MentionsLock → step.result = .error (Error.uncompacted (.refused e.text))) ∧
        if statement.followsCommit then
          Store.Collected d.store step.database.store d.store.unreachable.length
        else step.database = d) ∧
    step.database.store.refRows = d.store.refRows ∧
    (d.store.missingTables = [] → (∃ stats, later.result = .ok stats) ∧
      Store.Collected (d.setLocked false).store later.database.store
        d.store.unreachable.length) := by
  intro step later
  have hgarbage := Store.collected_garbage hkeys
  obtain ⟨-, hstep⟩ := compact_firstRefusal refusals hsusp hcur
  refine ⟨?_, ?_, fun htables => ?_⟩
  · -- the first refusal decides: none, or one with its place before or after the commit
    cases hfirst : d.store.firstRefusal refusals with
    | none =>
      rw [hfirst] at hstep
      obtain ⟨⟨bytes, hok⟩, hstore⟩ := hstep
      refine ⟨⟨_, hok⟩, ?_⟩
      rw [hstore]
      exact hgarbage
    | some refused =>
      rw [hfirst] at hstep
      obtain ⟨hresult, hstore⟩ := hstep
      refine ⟨fun hlock => ?_, fun hlock => ?_, ?_⟩
      · rw [hresult, compactionError, if_pos (DbError.isLock_iff.2 hlock)]
      · rw [hresult, compactionError, if_neg (mt DbError.isLock_iff.1 hlock)]
      · split at hstore
        next hfollows =>
          rw [if_pos hfollows, hstore]
          exact hgarbage
        next hearly =>
          rw [if_neg hearly]
          exact hstore
  · obtain ⟨-, ⟨-, -, hstore | hstore⟩ | ⟨-, hstore⟩⟩ := compact_cases refusals hsusp hcur
    · rw [hstore]
    · rw [hstore, Store.refRows_collected]
    · rw [hstore, Store.refRows_collected]
  · have hkeys' : (d.setLocked false).store.ForeignKeys := ⟨hkeys.refs, hkeys.links⟩
    obtain ⟨hok, hlater⟩ := compact_again refusals hsusp hcur htables
    refine ⟨hok, ?_⟩
    rw [hlater]
    exact Store.collected_garbage hkeys'

/-- Whichever statement of the compaction of this store meets a lock, either all objects are still
there or only those that are reached. -/
theorem compact_tangled_refused :
    (fresh.suspended = false ∧ fresh.Current ⟨tangled, 0⟩ ∧ tangled.ForeignKeys) ∧
      ∀ statement ∈ tangled.compactionStatements,
        let e : DbError := ⟨.operational, "database table is LOCKED"⟩
        let step := fresh.compact (fun other => if other = statement then some e else none)
          ⟨tangled, 0⟩
        step.result = .error (Error.locked "compact" e.text) ∧
          step.database.store.objectRows =
            if statement.followsCommit then [⟨"a", "commit", []⟩, ⟨"b", "tree", []⟩]
            else tangled.objectRows := by
  have hcur : fresh.Current ⟨tangled, 0⟩ := current_of_idle rfl
  have hkeys : tangled.ForeignKeys := by decide
  refine ⟨⟨rfl, hcur, hkeys⟩, fun statement hmem => ?_⟩
  intro e step
  have hlock : e.MentionsLock := DbError.isLock_iff.1 (by decide)
  -- one statement is refused and no other, so it is the first refusal
  have hrefused := compact_all_or_nothing
    (fun other => if other = statement then some e else none) fresh ⟨tangled, 0⟩ rfl hcur hkeys
  rw [Store.firstRefusal_one e (by decide) rfl hmem] at hrefused
  obtain ⟨⟨hresult, -, hstore⟩, -⟩ := hrefused
  refine ⟨hresult hlock, ?_⟩
  split at hstore
  next hfollows =>
    rw [if_pos hfollows]
    exact hstore.objects.trans (by cbv)
  next hearly =>
    rw [if_neg hearly, show step.database = ⟨tangled, 0⟩ from hstore]

end RefSweep.Session
