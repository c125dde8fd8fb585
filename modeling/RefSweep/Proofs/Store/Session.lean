import RefSweep.Proofs.Store.Collection
import RefSweep.Store.Operations
import RefSweep.Store.Schema

/-!
# What the operations of a session do to the store

A session that is not suspended and sees the newest state meets no failure of its own: what it
reports is what the database refuses.
-/

namespace RefSweep

/-! ## Tables that are all there -/

theorem Store.tables_eq_all {s : Store} (h : s.missingTables = []) : s.tables = Table.all :=
  List.filter_eq_self.2 fun table _ => has_of_missingTables h table

/-- No query asks for a table that is not in the schema, so none is refused where all of them are
there. -/
theorem Query.refusal?_all (query : Query) : query.refusal? Table.all = none := by
  cases query <;> rfl

namespace Session

variable {x : Session} {d : Database} {query : Query}

/-- The session sees the newest state of the store, if its transaction has taken a view at all. -/
def Current (x : Session) (d : Database) : Prop := ∀ view, x.transaction = .reading view → view = d

/-- A session without a transaction sees whatever is newest. -/
theorem current_of_idle (h : x.transaction = .idle) : x.Current d := by
  intro view hview
  rw [h] at hview
  cases hview

/-- What a current session sees is the store itself, whether its transaction has taken a view or
not. -/
theorem Current.view_eq (h : x.Current d) : x.view d = d.store := by
  unfold Session.view
  split
  next view hview => rw [h view hview]
  · rfl

/-- A current session is not outdated: a view that it has taken is the newest state. -/
theorem Current.not_outdated (h : x.Current d) : x.outdated d = false := by
  unfold Session.outdated
  split
  next view hview => simp [h view hview]
  · rfl

/-- A transaction that has just begun has taken no view, so beginning one keeps a session current.
-/
theorem Current.begin (h : x.Current d) : x.begin.Current d := by
  unfold Session.begin
  split
  · exact fun view hview => by cases hview
  · exact h

/-- What a compaction works on: the store itself, whose lock stands in for an outdated view too. -/
theorem Current.swept_view (h : x.Current d) :
    { x.view d with locked := d.store.locked || x.outdated d } = d.store := by
  rw [h.view_eq, h.not_outdated, Bool.or_false]

/-! ## What reading keeps -/

/-- A session `y` that goes on as `x` did: it is suspended if `x` is, and in the same transaction.
If this has just begun, it may have taken its view of the store. -/
structure Continues (d : Database) (x y : Session) : Prop where
  suspended : y.suspended = x.suspended
  transaction : y.transaction = x.transaction ∨ x.transaction = .begun ∧ y.transaction = .reading d

theorem Continues.refl (d : Database) (x : Session) : Continues d x x := ⟨rfl, .inl rfl⟩

/-- Going on twice is going on: a transaction that had just begun may take its view in either part,
but only once. -/
theorem Continues.trans {y z : Session} (h : Continues d x y) (h' : Continues d y z) :
    Continues d x z := by
  refine ⟨h'.suspended.trans h.suspended, ?_⟩
  rcases h.transaction with hsame | ⟨hbegun, hview⟩
  · rw [← hsame]
    exact h'.transaction
  · -- the view that `y` has taken is the one that `z` has
    refine .inr ⟨hbegun, ?_⟩
    rcases h'.transaction with hsame' | ⟨hbegun', -⟩
    · exact hsame'.trans hview
    · cases hview.symm.trans hbegun'

/-- A session that goes on stays current, as a view that is taken on the way is the newest one. -/
theorem Continues.current {y : Session} (h : Continues d x y) (hcur : x.Current d) :
    y.Current d := by
  intro view hview
  rcases h.transaction with hsame | ⟨-, hnew⟩
  · exact hcur view (hsame.symm.trans hview)
  · exact Transaction.reading.inj (hview.symm.trans hnew)

/-- It sees what `x` did. -/
theorem Continues.view_eq {y : Session} (h : Continues d x y) : y.view d = x.view d := by
  unfold view
  rcases h.transaction with hsame | ⟨hbegun, hview⟩
  · rw [hsame]
  · rw [hbegun, hview]

/-- Looking for tables changes only what the connection knows of them. -/
theorem continues_findTables (x : Session) (d : Database) (query : Query) :
    Continues d x (x.findTables d query).1 := by
  unfold findTables
  split
  · exact .refl d x
  · exact ⟨rfl, .inl rfl⟩

/-- Compiling a query changes what is known and what is compiled, but not the transaction. -/
theorem continues_compile (x : Session) (d : Database) (query : Query) :
    Continues d x (x.compile d query).1 := by
  have h := continues_findTables x d query
  unfold compile
  split
  · exact .refl d x
  · split
    next y e heq => rwa [heq] at h
    next y heq =>
      rw [heq] at h
      exact ⟨h.suspended, h.transaction⟩

/-- Compiling an expired query again changes what is known and what is expired, but not the
transaction. -/
theorem continues_renew (x : Session) (d : Database) (query : Query) :
    Continues d x (x.renew d query).1 := by
  have h := continues_findTables x d query
  unfold renew
  split
  · split
    next y e heq => rwa [heq] at h
    next y heq =>
      rw [heq] at h
      exact ⟨h.suspended, h.transaction⟩
  · exact .refl d x

/-- Taking a view is the one change that a transaction may see while a session goes on. -/
theorem continues_viewing (x : Session) (d : Database) : Continues d x (x.viewing d) := by
  unfold viewing
  split
  next hbegun => exact ⟨rfl, .inr ⟨hbegun, rfl⟩⟩
  · exact .refl d x

/-- A compiled query that looks at the tables changes only what is known and, if it is refused, what
is expired. -/
theorem continues_look (x : Session) (d : Database) (query : Query) :
    Continues d x (x.look d query).1 := by
  unfold look
  dsimp only
  split <;> exact ⟨rfl, .inl rfl⟩

/-- Reading a table is going on, wherever it is refused: when the query is compiled, when it is
compiled again, or when it looks at the tables. -/
theorem continues_read (x : Session) (d : Database) (query : Query) :
    Continues d x (x.read d query).1 := by
  have hcompile := continues_compile x d query
  unfold read
  dsimp only
  -- refused when it is compiled: nothing has been begun
  split
  next y e heq =>
    rw [heq] at hcompile
    exact ⟨hcompile.suspended, hcompile.transaction⟩
  next y heq =>
    rw [heq] at hcompile
    have hrenew := hcompile.trans (continues_renew y d query)
    -- refused when it is compiled again, or let through to look at the tables
    split
    next z e heq =>
      rw [heq] at hrenew
      exact ⟨hrenew.suspended, hrenew.transaction⟩
    next z heq =>
      rw [heq] at hrenew
      have hlook := (hrenew.trans (continues_viewing z d)).trans (continues_look _ d query)
      exact ⟨hlook.suspended, hlook.transaction⟩

/-- Getting to the rows that are to be written is going on as well; the refusal of writing itself
leaves the session where it was. -/
theorem continues_reach (x : Session) (d : Database) (query : Query) :
    Continues d x (x.reach d query).1 := by
  have h := continues_renew x d query
  unfold reach
  split
  next y e heq => rwa [heq] at h
  next y heq =>
    rw [heq] at h
    split
    · exact h
    · exact h.trans (continues_look y d query)

/-- Reading several tables is going on, up to the first refusal. The induction follows the list of
statements. -/
theorem continues_readAll (refusals : Refusals) (x : Session) (d : Database)
    (plan : List (Statement × Query)) : Continues d x (x.readAll refusals d plan).1 := by
  fun_induction readAll refusals x d plan with
  | case1 x => exact .refl d x
  | case2 x statement query rest e => exact .refl d x
  | case3 x statement query rest _ y e heq =>
    have h := continues_read x d query
    rwa [heq] at h
  | case4 x statement query rest _ y heq ih =>
    have h := continues_read x d query
    rw [heq] at h
    exact h.trans ih

/-! ## What reading needs -/

/-- Tables are looked for only if one that is asked for is not known; a refusal is then that of the
tables which the session sees. -/
theorem findTables_refused {e : DbError} (h : (x.findTables d query).2 = some e) :
    query.refusal? (x.view d).tables = some e := by
  unfold findTables at h
  split at h
  · cases h
  · exact h

/-- A query is refused while it is compiled only for a table that the session does not see. -/
theorem compile_refused {e : DbError} (h : (x.compile d query).2 = some e) :
    query.refusal? (x.view d).tables = some e := by
  have htables : (x.findTables d query).2 = some e → query.refusal? (x.view d).tables = some e :=
    findTables_refused
  unfold compile at h
  split at h
  · cases h
  · split at h
    next heq =>
      rw [heq] at htables
      exact htables h
    · cases h

/-- The same holds of a query that is compiled again. -/
theorem renew_refused {e : DbError} (h : (x.renew d query).2 = some e) :
    query.refusal? (x.view d).tables = some e := by
  have htables : (x.findTables d query).2 = some e → query.refusal? (x.view d).tables = some e :=
    findTables_refused
  unfold renew at h
  split at h
  · split at h
    next heq =>
      rw [heq] at htables
      exact htables h
    · cases h
  · cases h

/-- A compiled query looks at the tables itself, so its refusal is that of the tables which the
session sees, in any case. -/
theorem look_refusal (x : Session) (d : Database) (query : Query) :
    (x.look d query).2 = query.refusal? (x.view d).tables := by
  unfold look
  dsimp only
  split
  next heq => exact heq.symm
  next heq => exact heq.symm

/-- A session that sees the newest state of a store can read every table that is there. -/
theorem read_refusal (hcur : x.Current d) : (x.read d query).2 = query.refusal? d.store.tables := by
  -- every session on the way sees the same tables
  have hview : ∀ {y}, Continues d x y → y.view d = d.store := fun hy => (hy.current hcur).view_eq
  have hcompile := continues_compile x d query
  unfold read
  dsimp only
  split
  next y e heq =>
    rw [← hview (.refl d x)]
    exact (compile_refused (congrArg Prod.snd heq)).symm
  next y heq =>
    rw [heq] at hcompile
    have hrenew := hcompile.trans (continues_renew y d query)
    split
    next z e heq =>
      rw [← hview hcompile]
      exact (renew_refused (congrArg Prod.snd heq)).symm
    next z heq =>
      rw [heq] at hrenew
      rw [look_refusal, hview (hrenew.trans (continues_viewing z d))]

/-- Reading the tables of a plan fails with its first step that is refused. -/
theorem readAll_refusal (refusals : Refusals) (hcur : x.Current d)
    (plan : List (Statement × Query)) :
    (x.readAll refusals d plan).2 =
      plan.findSome? fun step => (refusals step.1).or (step.2.refusal? d.store.tables) := by
  -- over all current sessions, since every statement that is read leaves another one
  induction plan generalizing x with
  | nil => rfl
  | cons step rest ih =>
    obtain ⟨statement, query⟩ := step
    have hread := continues_read x d query
    have hrefusal : (x.read d query).2 = _ := read_refusal hcur
    rw [readAll, List.findSome?_cons]
    dsimp only
    cases refusals statement with
    | some e => rfl
    | none =>
      rw [Option.none_or, ← hrefusal]
      dsimp only
      split
      next heq => rw [heq]
      next y heq =>
        rw [heq] at hread ⊢
        exact ih (hread.current hcur)

/-! ## Where nothing is refused -/

/-- Where the session sees all tables, every query can be compiled. -/
theorem compile_all (h : (x.view d).missingTables = []) : (x.compile d query).2 = none := by
  refine Option.eq_none_iff_forall_ne_some.2 fun e he => ?_
  have hquery := compile_refused he
  rw [Store.tables_eq_all h, Query.refusal?_all] at hquery
  cases hquery

/-- Where the session sees all tables, every query can be compiled again. -/
theorem renew_all (h : (x.view d).missingTables = []) : (x.renew d query).2 = none := by
  refine Option.eq_none_iff_forall_ne_some.2 fun e he => ?_
  have hquery := renew_refused he
  rw [Store.tables_eq_all h, Query.refusal?_all] at hquery
  cases hquery

/-- A session that sees the newest state of a store with all its tables can read any of them. -/
theorem read_all (hcur : x.Current d) (h : d.store.missingTables = []) :
    (x.read d query).2 = none := by
  rw [read_refusal hcur, Store.tables_eq_all h, Query.refusal?_all]

/-- A session that sees the newest state of an unlocked store with all tables can write to it. -/
theorem reach_all (hcur : x.Current d) (h : d.store.missingTables = [])
    (hlock : d.store.locked = false) : (x.reach d query).2 = none := by
  -- going on keeps the newest view, and that view has every table
  have hview : ∀ {y}, Continues d x y → (y.view d).missingTables = [] := fun hy => by
    rw [(hy.current hcur).view_eq]
    exact h
  have hrenewed : (x.renew d query).2 = none := renew_all (hview (.refl d x))
  have hrenew := continues_renew x d query
  unfold reach
  split
  next heq => rwa [heq] at hrenewed
  next y heq =>
    rw [heq] at hrenew
    have hwrite : y.writeRefusal? d = none := by
      rw [writeRefusal?, hlock, (hrenew.current hcur).not_outdated]
      rfl
    rw [hwrite]
    dsimp only
    rw [look_refusal, Store.tables_eq_all (hview hrenew), Query.refusal?_all]

/-! ## Listing and deleting -/

/-- A listing that does not fail is the one of the newest rows, for a session that sees them,
whatever may be refused. -/
theorem listing_of_failure_none {refusals : Refusals} (hcur : x.Current d)
    (h : (x.listing refusals d).1.failure = none) :
    (x.listing refusals d).1 = Store.parseRows d.store.refRows := by
  have hread := continues_read x d .references
  unfold listing at h ⊢
  split at h
  · cases h
  · split at h
    · cases h
    next hsusp =>
      split at h
      · cases h
      -- the reading was let through, and what it sees is the newest state
      next y heq =>
        rw [heq] at hread
        rw [if_neg hsusp, ← (hread.current hcur).view_eq]

/-- A listing gives no references, or it is the one of the rows that the session sees. -/
theorem listing_cases (x : Session) (refusals : Refusals) (d : Database) :
    (x.listing refusals d).1.references = [] ∨
      (x.listing refusals d).1 = Store.parseRows (x.view d).refRows := by
  have hread := continues_read x d .references
  unfold listing
  split
  · exact .inl rfl
  · split
    · exact .inl rfl
    · split
      · exact .inl rfl
      -- only a reading that was let through gives rows, those of its view
      next y heq =>
        rw [heq] at hread
        exact .inr (by rw [hread.view_eq])

/-- Nothing but the database makes a listing fail that could read the names. A session that is
suspended or behind is another matter. -/
theorem listing_none (hsusp : x.suspended = false) (hcur : x.Current d)
    (htables : d.store.missingTables = []) :
    (x.listing .none d).1 = Store.parseRows d.store.refRows := by
  have hread := continues_read x d .references
  have hquiet : (x.read d .references).2 = none := read_all hcur htables
  unfold listing
  dsimp only [Refusals.none]
  rw [hsusp, if_neg Bool.false_ne_true]
  split
  next heq => rw [heq] at hquiet; cases hquiet
  next y heq =>
    rw [heq] at hread
    rw [(hread.current hcur).view_eq]

/-- Whatever the name and the session, a deletion leaves the database alone or takes away the rows
of the name. -/
theorem deleteReference_database (refusals : Refusals) (x : Session) (d : Database) (name : Text) :
    let step := x.deleteReference refusals d name
    step.database = d ∨ step.database = d.commit (d.store.withoutRef name) := by
  -- of all the ways out there is one that writes, and it comes last
  unfold deleteReference unlessSuspended
  dsimp only
  split
  · exact .inl rfl
  · split
    · exact .inl rfl
    · split
      · exact .inl rfl
      · split
        · exact .inl rfl
        · exact .inl rfl
        · split
          · exact .inl rfl
          · split
            · exact .inl rfl
            · split
              · exact .inr rfl
              · exact .inl rfl

/-- What a deletion can do, whatever is refused: fail with an error of the library and leave the
database alone, or take away a reference that is there. -/
theorem deleteReference_cases (refusals : Refusals) {name : Text} (hsusp : x.suspended = false)
    (hname : name.strayRun? = none) :
    let step := x.deleteReference refusals d name
    ((∃ e : Error, step.result = .error e) ∧ step.database = d) ∨
      step.result = .ok () ∧ (d.store.refRow? name).isSome ∧
        step.database = d.commit (d.store.withoutRef name) := by
  unfold deleteReference unlessSuspended
  dsimp only
  rw [hsusp, hname]
  split
  next e _ => exact .inl ⟨⟨_, rfl⟩, rfl⟩
  · -- the statement itself, a table, the lock and a guard may each refuse
    simp only [Bool.false_eq_true, if_false]
    split
    next e _ => exact .inl ⟨⟨_, rfl⟩, rfl⟩
    · split
      next e _ => exact .inl ⟨⟨_, rfl⟩, rfl⟩
      · split
        next e _ => exact .inl ⟨⟨_, rfl⟩, rfl⟩
        · split
          next hheld => exact .inr ⟨rfl, hheld, rfl⟩
          · exact .inl ⟨⟨_, rfl⟩, rfl⟩

/-- A reference that is there can be deleted if nobody holds the lock and nothing guards it. -/
theorem deleteReference_none {name : Text} (hsusp : x.suspended = false) (hcur : x.Current d)
    (htables : d.store.missingTables = []) (hlock : d.store.locked = false)
    (hguards : d.store.guards = []) (hname : name.strayRun? = none)
    (hheld : (d.store.refRow? name).isSome) : (x.deleteReference .none d name).result = .ok () := by
  -- the refusals are met in their order, and each of them is excluded by one of the hypotheses
  have hcompile := continues_compile x d .remove
  have hcompiled : (x.compile d .remove).2 = none := by
    refine compile_all ?_
    rw [hcur.view_eq]
    exact htables
  have hguard : d.store.guardRefusal? name = none := by
    rw [Store.guardRefusal?, hguards, if_pos hheld]
    rfl
  unfold deleteReference unlessSuspended
  dsimp only [Refusals.none]
  rw [hsusp, if_neg Bool.false_ne_true, hname]
  split
  next heq => rw [heq] at hcompiled; cases hcompiled
  next y heq =>
    rw [heq] at hcompile
    have hreached : (y.begin.reach d .remove).2 = none :=
      reach_all (hcompile.current hcur).begin htables hlock
    dsimp only
    split
    next heq => rw [heq] at hreached; cases hreached
    · rw [hguard]
      dsimp only
      rw [if_pos hheld]
      rfl

end Session

end RefSweep
