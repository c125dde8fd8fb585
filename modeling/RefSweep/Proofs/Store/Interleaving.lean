import RefSweep.Proofs.Store.Keeping

/-!
# Compacting beside other sessions

A compaction reads the tables before it takes the lock, and what is committed in between counts for
what it deletes from, not for what it deletes. `compactAcross` is a compaction between whose reading
and deleting the database has moved on. Main statement: `compact_beside`, references are protected
by their foreign key, but a new link to an object that was garbage is not.
-/

namespace RefSweep

namespace Store

/-- Where the garbage of one state is deleted from another, and no reference of this points at it,
all that is reached stays exactly if no new link leads from something reached to that garbage. -/
theorem reached_stay_iff {seen now : Store} (hseen : seen.ForeignKeys)
    (hgrown : ∀ key, seen.holds key → now.holds key)
    (hrefs : ∀ row ∈ now.refRows, row.target ∉ seen.unreachable) :
    (∀ key, now.holds key → now.Reaches key → (now.without seen.unreachable).holds key) ↔
      ∀ l ∈ now.linkRows, l ∉ seen.linkRows → now.Reaches l.source →
        l.target ∉ seen.unreachable := by
  have hstored : ∀ key, key ∈ seen.keys ↔ seen.holds key := fun key => by simp [keys, holds_iff]
  constructor
  · -- the new link itself makes its target reached, and so it would have to stay
    intro hstay l hl _ hreached hgarbage
    have hheld : seen.holds l.target := (hstored _).1 (mem_unreachable.1 hgarbage).1
    exact (holds_without.1 (hstay l.target (hgrown _ hheld) (.link hl hreached))).2 hgarbage
  · intro hlinks key hheld hreached
    refine holds_without.2 ⟨hheld, ?_⟩
    clear hheld
    -- along the path from a reference, nothing is garbage
    induction hreached with
    | ref hrow => exact hrefs _ hrow
    | @link l hl hsource ih =>
      by_cases hold : l ∈ seen.linkRows
      · -- an old link from what is no garbage leads to no garbage
        intro hgarbage
        have hsourceHeld := (hstored _).2 (hseen.links l hold)
        have hsourceReached : seen.Reaches l.source := by
          by_contra hnot
          exact ih (mem_unreachable.2 ⟨hsourceHeld, hnot⟩)
        exact (mem_unreachable.1 hgarbage).2 (.link hold hsourceReached)
      · exact hlinks l hl hold hsource

end Store

namespace Session

/-- A compaction that reads `d`, and finds `d'` when it comes to deleting. -/
def compactAcross (refusals : Refusals) (x : Session) (d d' : Database) : Step CompactionStats :=
  match refusals .readObjects with
  | some e => .fail x.takenBack d' (compactionError e)
  | none =>
    x.unlessSuspended d' <|
      match x.readAll refusals d
          [(.readObjects, .keys), (.readLinks, .links), (.readTargets, .targets)] with
      | (x, some e) => .fail x.takenBack d' (compactionError e)
      | (x, none) =>
        let keys := (x.view d).unreachable
        let view := { x.view d' with locked := d'.store.locked || x.outdated d' }
        match view.sweepAll refusals keys with
        | .error e => .fail x.takenBack d' (compactionError e)
        | .ok swept =>
          let after :=
            if keys = [] then d' else d'.commit { swept with locked := d'.store.locked }
          match after.store.tidy? refusals with
          | some e => .fail { x.takenBack with known := none } after (compactionError e)
          | none =>
            .ok (x.takenBack.rebuilt after.store) (after.commit after.store)
              ⟨some keys.length,
                some (max 0 ((d.store.footprint : Int) - after.store.footprint))⟩

theorem compactAcross_self (refusals : Refusals) (x : Session) (d : Database) :
    x.compactAcross refusals d d = x.compact refusals d := rfl

variable {x y : Session} {d d' : Database}

/-- A session whose view is the newest has not begun with an older one. -/
theorem Continues.outdated_later (hc : Continues d x y) (hnew : y.outdated d' = false) :
    x.outdated d' = false := by
  unfold Session.outdated at hnew ⊢
  rcases hc.transaction with hsame | ⟨hbegun, -⟩
  · rwa [hsame] at hnew
  · rw [hbegun]

/-- A compaction leaves the rows that it finds when it comes to deleting, or it deletes what was
garbage when it read. Then no reference points at that, and the session sees no old state. -/
theorem compactAcross_leaves (h : x.Orderly d) (hprecedes : d.Precedes d') (hsound : d'.store.Sound)
    (refusals : Refusals) :
    let step := x.compactAcross refusals d d'
    let garbage := (x.view d).unreachable
    step.database.store = d'.store ∨
      step.database.store = d'.store.without garbage ∧ x.outdated d' = false ∧
        ∀ row ∈ d'.store.refRows, row.target ∉ garbage := by
  have hread := continues_readAll refusals x d
    [(.readObjects, .keys), (.readLinks, .links), (.readTargets, .targets)]
  unfold compactAcross unlessSuspended
  dsimp only
  split
  · exact .inl rfl
  · split
    · exact .inl rfl
    · split
      · exact .inl rfl
      next y heq =>
        rw [heq] at hread
        have hy : y.Orderly d' := (h.continues hread).later hprecedes hsound
        rw [hread.view_eq]
        generalize (x.view d).unreachable = garbage
        split
        · exact .inl rfl
        next swept hswept =>
          obtain ⟨after, hafter⟩ : ∃ after, after =
            if garbage = [] then d' else d'.commit { swept with locked := d'.store.locked } := ⟨_, rfl⟩
          have hleft : after.store = d'.store ∨ after.store = d'.store.without garbage ∧
              x.outdated d' = false ∧ ∀ row ∈ d'.store.refRows, row.target ∉ garbage := by
            rw [hafter]
            split
            · exact .inl rfl
            next hsome =>
              -- something was swept, so the lock is free and the view is not outdated
              obtain ⟨hwithout, hrefs, hlock⟩ := Store.sweepAll_eq_ok hswept
              obtain ⟨-, hnew⟩ := Bool.or_eq_false_iff.1 (hlock hsome)
              rw [hnew, Bool.or_false, hy.view_eq hnew] at hwithout hrefs
              refine .inr ⟨?_, hread.outdated_later hnew, fun row hrow => ?_⟩
              · rw [hwithout]
                rfl
              · exact hrefs row hrow (hsound.foreignKeys.refs row hrow)
          rw [← hafter]
          split <;> exact hleft

/-- What a session has seen is still stored, if nothing was removed since and its view is not old.
-/
theorem Orderly.holds_later (h : x.Orderly d) (hprecedes : d.Precedes d') (hsound : d'.store.Sound)
    (hgrown : ∀ key, d.store.holds key → d'.store.holds key) (hnew : x.outdated d' = false)
    {key : Text} (hheld : (x.view d).holds key) : d'.store.holds key := by
  -- with a view of its own it saw the newest state, and without one the state that there was
  cases htransaction : x.transaction with
  | reading view =>
    have hsame : x.view d = x.view d' := by
      unfold Session.view
      rw [htransaction]
    have hview := congrArg (Store.holds · key) ((h.later hprecedes hsound).view_eq hnew)
    rw [hsame] at hheld
    exact hview.symm.trans hheld
  | idle | begun =>
    refine hgrown key ?_
    unfold Session.view at hheld
    rwa [htransaction] at hheld

end Session

/-- The turn is not one of this session, nor a compaction. -/
def Turn.Beside (i : Nat) : Turn → Prop
  | .asks j _ request => j ≠ i ∧ request ≠ .compact
  | _ => True

namespace Shared

variable {s : Shared} {i : Nat}

/-- The database after some turns is no earlier than the one before, so a session that has seen the
later one has nothing newer to see in the earlier. -/
theorem InOrder.precedes_run (h : s.InOrder) (turns : List Turn) :
    s.database.Precedes (s.run turns).database := by
  -- by induction on the turns: each leaves the database as it is, commits to it or changes the lock
  induction turns generalizing s with
  | nil => exact .refl _
  | cons turn rest ih =>
    refine Database.Precedes.trans ?_ (ih (h.step turn))
    obtain hsame | ⟨x, hx, -, refusals, request, -, hstep⟩ | ⟨locked, hlocked⟩ :=
      step_database s turn
    · rw [hsame]
      exact .refl _
    · rw [hstep]
      exact (Session.proper_perform (h.sessions x hx).toOrderly refusals request).precedes
    · rw [hlocked]
      exact .setLocked _ locked

/-- No object is removed by turns without compactions: all other requests add objects or leave them.
-/
theorem InOrder.holds_run (h : s.InOrder) {turns : List Turn}
    (hbeside : ∀ turn ∈ turns, turn.Beside i) {key : Text} (hheld : s.database.store.holds key) :
    (s.run turns).database.store.holds key := by
  induction turns generalizing s with
  | nil => exact hheld
  | cons turn rest ih =>
    refine ih (h.step turn) (fun other hother => hbeside other (.tail _ hother)) ?_
    have hturn := hbeside turn (.head _)
    obtain hsame | ⟨x, hx, j, refusals, request, rfl, hstep⟩ | ⟨locked, hlocked⟩ :=
      step_database s turn
    · rwa [hsame]
    · rw [hstep]
      -- a request that is no compaction changes one row at most, and never takes an object away
      obtain hsame | ⟨-, t, hchange, hcommit⟩ :=
        Session.perform_changes (h.sessions x hx) refusals request hturn.2
      · rwa [hsame]
      · rw [hcommit]
        exact hchange.holds h.sound.tables hheld
    · rw [hlocked]
      exact hheld

/-- A session compacts in the middle of a history, and other sessions write after it has read the
tables and before it deletes. Unless this leaves the rows as they are, what is removed is the
garbage that the session has seen. References are safe from that. But what they reach is safe
exactly if none of the links that have been added since lead to that garbage. -/
theorem compact_beside {d : Database} (hsound : d.store.Sound) (before between : List Turn)
    {x : Session} (hx : ((unused d).run before).sessions[i]? = some x)
    (hbeside : ∀ turn ∈ between, turn.Beside i) (refusals : Refusals) :
    let found := (unused d).run before
    let later := found.run between
    let seen := x.view found.database
    let now := later.database.store
    let left := (x.compactAcross refusals found.database later.database).database.store
    left = now ∨
      left = now.without seen.unreachable ∧
        (∀ row ∈ now.refRows, left.holds row.target) ∧
        ((∀ key, now.holds key → now.Reaches key → left.holds key) ↔
          ∀ l ∈ now.linkRows, l ∉ seen.linkRows → now.Reaches l.source →
            l.target ∉ seen.unreachable) := by
  intro found later seen now left
  have hfound : found.InOrder := (inOrder_unused hsound).run before
  have hlater : later.InOrder := hfound.run between
  have hregular := hfound.sessions x (List.mem_of_getElem? hx)
  have hprecedes := hfound.precedes_run between
  obtain hsame | ⟨hleft, hnew, hrefs⟩ :=
    Session.compactAcross_leaves hregular.toOrderly hprecedes hlater.sound refusals
  · exact .inl hsame
  -- the objects that the session has seen are all still there, as nobody else compacts
  have hgrown : ∀ key, seen.holds key → now.holds key := fun key hheld =>
    hregular.holds_later hprecedes hlater.sound (fun _ => hfound.holds_run hbeside) hnew hheld
  have hleft' : left = now.without seen.unreachable := hleft
  refine .inr ⟨hleft', fun row hrow => ?_, ?_⟩
  · rw [hleft']
    exact Store.holds_without.2 ⟨hlater.sound.foreignKeys.refs row hrow, hrefs row hrow⟩
  · rw [hleft']
    exact Store.reached_stay_iff hregular.view_sound.foreignKeys hgrown hrefs

/-! ## A link that comes too late -/

namespace Relinked

/-- A leaf is stored by one session, and another one is about to compact. -/
def stored : List Turn := [.opens, .opens, .asks 1 .none (.write "blob" [] [])]

/-- Now the first one stores a root with a link to the leaf, and points a reference at it. -/
def linked : List Turn :=
  [.asks 1 .none (.write "commit" [] [leaf]), .asks 1 .none (.update "refs/heads/main" root)]

end Relinked

open Relinked in
/-- The leaf is deleted although the root is stored and reached and links to it. -/
theorem compact_beside_linked :
    (∀ turn ∈ linked, turn.Beside 0) ∧
    ∃ x, ((unused .created).run stored).sessions[0]? = some x ∧
      let found := (unused .created).run stored
      let now := (found.run linked).database.store
      let left := (x.compactAcross .none found.database (found.run linked).database).database.store
      now.holds leaf ∧ now.Reaches leaf ∧ ¬ left.holds leaf ∧
        ∀ row ∈ now.refRows, left.holds row.target := by
  have hbeside : ∀ turn ∈ linked, turn.Beside 0 := by
    intro turn hturn
    simp only [linked, List.mem_cons, List.not_mem_nil, or_false] at hturn
    rcases hturn with rfl | rfl <;> exact ⟨nofun, nofun⟩
  -- one evaluation of the history: the leaf is stored, reached and swept
  obtain ⟨hsweeps, hheld, hreached⟩ :
      (((unused .created).run stored).sessions[0]?.map fun x =>
        (x.compactAcross .none ((unused .created).run stored).database
          (((unused .created).run stored).run linked).database).database.store.holds leaf) =
          some false ∧
      (((unused .created).run stored).run linked).database.store.holds leaf ∧
      (((unused .created).run stored).run linked).database.store.Reaches leaf := by
    decide +kernel
  obtain ⟨x, hx, hgone⟩ := Option.map_eq_some_iff.1 hsweeps
  refine ⟨hbeside, x, hx, hheld, hreached, Bool.eq_false_iff.1 hgone, ?_⟩
  obtain hsame | ⟨-, hrefs, -⟩ :=
    compact_beside Database.sound_created stored linked hx hbeside .none
  · -- the rows are not as they were, since the leaf is gone
    rw [hsame, hheld] at hgone
    cases hgone
  · exact hrefs

end Shared

end RefSweep
