import RefSweep.Proofs.Store.Refusal
import RefSweep.Proofs.Store.Sound

/-!
# Operations keep stores sound

A session may look at an older state of the store than the newest one. It is orderly if both are
sound, and if they are the same where nothing was committed in between. Every operation leaves an
orderly session orderly, whether it succeeds or fails (`Step.Proper`); while none fails, the session
stays at rest, with no transaction open between the operations.
-/

namespace RefSweep

namespace Database

variable {d d' d'' : Database}

/-- `d'` is a later state of the database than `d`, or the same but for the lock. -/
structure Precedes (d d' : Database) : Prop where
  revision : d.revision ≤ d'.revision
  same : d'.revision = d.revision → d'.store = { d.store with locked := d'.store.locked }

namespace Precedes

theorem refl (d : Database) : d.Precedes d := ⟨Nat.le_refl _, fun _ => rfl⟩

/-- What comes later than a later state is later than the first one, and a common revision means the
same store. -/
theorem trans (h : d.Precedes d') (h' : d'.Precedes d'') : d.Precedes d'' := by
  refine ⟨Nat.le_trans h.revision h'.revision, fun hsame => ?_⟩
  -- where both ends have one revision, so has what lies between them
  have hfirst := h.revision
  have hlast := h'.revision
  rw [h'.same (by omega), h.same (by omega)]

/-- A change that is committed makes a later state: the revision grows with it, so no two stores
share one. -/
theorem commit (d : Database) (s : Store) : d.Precedes (d.commit s) := by
  refine ⟨Nat.le_succ _, fun hsame => ?_⟩
  have hnext : d.revision + 1 = d.revision := hsame
  omega

/-- A change of the lock is later as well, although the revision stays: nothing but the lock is
changed, which no view records. -/
theorem setLocked (d : Database) (locked : Bool) : d.Precedes (d.setLocked locked) :=
  ⟨Nat.le_refl _, fun _ => rfl⟩

end Precedes

end Database

namespace Session

variable {x y : Session} {d d' : Database} {α : Type}

/-- The session is not suspended, and no transaction is open. -/
structure AtRest (x : Session) : Prop where
  awake : x.suspended = false
  idle : x.transaction = .idle

/-- The session looks at a sound state of the store, which came before the newest or is this. -/
structure Orderly (x : Session) (d : Database) : Prop where
  store : d.store.Sound
  view : ∀ view, x.transaction = .reading view → view.store.Sound ∧ view.Precedes d

theorem AtRest.current (h : x.AtRest) : x.Current d := current_of_idle h.idle

/-- Reading begins no transaction, so a session at rest stays at rest. -/
theorem AtRest.continues (h : x.AtRest) (hc : Continues d x y) : y.AtRest := by
  refine ⟨hc.suspended.trans h.awake, ?_⟩
  rcases hc.transaction with hsame | ⟨hbegun, -⟩
  · exact hsame.trans h.idle
  · cases h.idle.symm.trans hbegun

/-- A session without a transaction is orderly in every sound store: there is no view that could be
unsound. -/
theorem orderly_of_idle (hsound : d.store.Sound) (hidle : x.transaction = .idle) :
    x.Orderly d := by
  refine ⟨hsound, fun view hview => ?_⟩
  cases hidle.symm.trans hview

namespace Orderly

/-- What an orderly session sees is sound, be it the newest state or an old one. -/
theorem view_sound (h : x.Orderly d) : (x.view d).Sound := by
  unfold Session.view
  split
  next view hview => exact (h.view view hview).1
  · exact h.store

/-- A view that is not outdated is the newest state, except that the lock may have changed hands. -/
theorem view_eq (h : x.Orderly d) (hnew : x.outdated d = false) :
    { x.view d with locked := d.store.locked } = d.store := by
  unfold Session.view
  unfold Session.outdated at hnew
  split
  next view hview =>
    simp only [hview] at hnew
    have hsame : d.revision = view.revision := (not_not.1 (of_decide_eq_false hnew)).symm
    rw [(h.view view hview).2.same hsame]
  · rfl

/-- A session that goes on stays orderly: a view that is taken on the way is the store itself, which
is sound. -/
theorem continues (h : x.Orderly d) (hc : Continues d x y) : y.Orderly d := by
  refine ⟨h.store, fun view hview => ?_⟩
  rcases hc.transaction with hsame | ⟨-, hnew⟩
  · exact h.view view (hsame.symm.trans hview)
  · obtain rfl := Transaction.reading.inj (hview.symm.trans hnew)
    exact ⟨h.store, .refl _⟩

/-- Beginning a transaction keeps a session orderly, as no view is taken yet. -/
theorem begin (h : x.Orderly d) : x.begin.Orderly d := by
  unfold Session.begin
  split
  · exact ⟨h.store, fun view hview => by cases hview⟩
  · exact h

/-- The database may go on while the session keeps its view. -/
theorem later (h : x.Orderly d) (hprecedes : d.Precedes d') (hsound : d'.store.Sound) :
    x.Orderly d' := by
  refine ⟨hsound, fun view hview => ?_⟩
  obtain ⟨hview', hbefore⟩ := h.view view hview
  exact ⟨hview', hbefore.trans hprecedes⟩

end Orderly

end Session

/-! ## Proper steps -/

/-- The step leaves session and store in order, and does not take back what was committed. As long
as steps succeed, the session is at rest between them. -/
structure Step.Proper {α : Type} (x : Session) (d : Database) (step : Step α) : Prop where
  orderly : step.session.Orderly step.database
  precedes : d.Precedes step.database
  rests : x.AtRest → ∀ a, step.result = .ok a → step.session.AtRest

namespace Session

variable {x y : Session} {d d' : Database} {α : Type}

open Step

theorem proper_fail (h : x.Orderly d) (hc : Continues d x y) (f : Failure) :
    (Step.fail y d f : Step α).Proper x d :=
  ⟨h.continues hc, .refl d, nofun⟩

theorem proper_suspend (h : x.Orderly d) (y : Session) (cause : Foreign) :
    (Step.suspend y d cause : Step α).Proper x d :=
  ⟨orderly_of_idle h.store rfl, .refl d, nofun⟩

/-- A step that takes the session back is proper as soon as the database that it leaves is sound and
later. -/
theorem proper_takenBack (hsound : d'.store.Sound) (hprecedes : d.Precedes d') (y : Session)
    (result : Except Failure α) : (⟨result, y.takenBack, d'⟩ : Step α).Proper x d :=
  ⟨orderly_of_idle hsound rfl, hprecedes, fun _ _ _ => ⟨rfl, rfl⟩⟩

/-- The step ends the transaction; it has committed a sound store, or nothing. -/
theorem proper_ended (hc : Continues d x y) (hsound : d'.store.Sound)
    (hprecedes : d.Precedes d') (a : α) : (Step.ok y.ended d' a).Proper x d :=
  ⟨orderly_of_idle hsound rfl, hprecedes, fun hrest _ _ => ⟨(hrest.continues hc).awake, rfl⟩⟩

/-- The check of a text fails before anything is changed, so only the operation behind it has to be
proper. -/
theorem proper_ifEncodable {t : Text} {operation : Step α} (h : x.Orderly d)
    (hc : Continues d x y) (hop : operation.Proper x d) :
    (y.ifEncodable d t operation).Proper x d := by
  unfold ifEncodable
  split
  · exact proper_fail h hc _
  · exact hop

/-- An operation that begins by reading a table is proper, if it is so in every session to which
reading can lead. -/
theorem proper_reading {query : Query} {operation : Session → Store → Step α} (h : x.Orderly d)
    (refusal : Option DbError)
    (hop : ∀ y, Continues d x y → (operation y (y.view d)).Proper x d) :
    (x.reading refusal d query operation).Proper x d := by
  have hread := continues_read x d query
  unfold reading
  -- a refusal fails before anything is read; otherwise the operation goes on from the reading
  split
  · exact proper_fail h (.refl d x) _
  · split
    · exact proper_fail h (.refl d x) _
    · split
      next y e heq =>
        rw [heq] at hread
        exact proper_fail h hread _
      next y heq =>
        rw [heq] at hread
        exact hop y hread

/-! ## The operations -/

/-- A listing changes nothing but what the session has seen. -/
theorem continues_listing (refusals : Refusals) (x : Session) (d : Database) :
    Continues d x (x.listing refusals d).2 := by
  have hread := continues_read x d .references
  unfold listing
  split
  · exact .refl d x
  · split
    · exact .refl d x
    · split
      next y e heq => rwa [heq] at hread
      next y heq => rwa [heq] at hread

/-- Listing the references changes no database and leaves the session orderly, whether it is refused
or not. -/
theorem proper_listing (h : x.Orderly d) (refusals : Refusals) :
    (Step.ok (x.listing refusals d).2 d (x.listing refusals d).1).Proper x d := by
  have hc := continues_listing refusals x d
  exact ⟨h.continues hc, .refl d, fun hrest _ _ => hrest.continues hc⟩

/-- Looking up a reference reads one table and changes no database. -/
theorem proper_lookup (h : x.Orderly d) (refusals : Refusals) (name : Text) :
    (x.lookup refusals d name).Proper x d := by
  refine proper_reading h _ fun y hc => proper_ifEncodable h hc ?_
  exact ⟨h.continues hc, .refl d, fun hrest _ _ => hrest.continues hc⟩

/-- Storing an object is proper: a refusal changes nothing, and a success commits a store that is
sound with the new object and its links. -/
theorem proper_writeObject (h : x.Orderly d) (refusals : Refusals) (kind : Text) (payload : Bytes)
    (links : List Text) : (x.writeObject refusals d kind payload links).Proper x d := by
  refine proper_ifEncodable h (.refl d x) (proper_reading h _ fun y hc => ?_)
  dsimp only
  split
  · exact proper_ended hc h.store (.refl d) _
  · split
    · exact proper_suspend h y _
    · exact proper_ended hc (h.store.withObject kind payload _) (.commit d _) _

/-- Moving a reference is proper. Each refusal on the way suspends the session; a success commits a
store in which the reference points to an object that is held. -/
theorem proper_updateReference (h : x.Orderly d) (refusals : Refusals) (name target : Text) :
    (x.updateReference refusals d name target).Proper x d := by
  unfold updateReference
  split
  · exact proper_fail h (.refl d x) _
  next parsed hparse =>
    refine proper_reading h _ fun y hc => proper_ifEncodable h hc ?_
    dsimp only
    split
    · exact proper_ended hc h.store (.refl d) _
    · have hcompile := hc.trans (continues_compile y d
        (if (y.view d).refRow? name |>.isSome then .move else .add))
      split
      · exact proper_suspend h _ _
      next z heq =>
        rw [heq] at hcompile
        split
        · exact proper_suspend h _ _
        · have hreach := hcompile.trans (continues_reach z d
            (if (y.view d).refRow? name |>.isSome then .move else .add))
          split
          · exact proper_suspend h _ _
          next w heq' =>
            rw [heq'] at hreach
            split
            · exact proper_suspend h _ _
            next htarget =>
              -- the target is stored, since the foreign key does not refuse it
              have hheld : d.store.holds target := by
                by_contra hnot
                rw [Store.targetRefusal?, if_neg hnot] at htarget
                cases htarget
              exact proper_ended hreach (h.store.withRef hparse hheld) (.commit d _) _

/-- Deleting a reference is proper: a store stays sound without one of its references, and every
refusal leaves it alone. -/
theorem proper_deleteReference (h : x.Orderly d) (refusals : Refusals) (name : Text) :
    (x.deleteReference refusals d name).Proper x d := by
  -- a failure that is taken back leaves the session idle, which every store allows
  have hback : ∀ (y : Session) (result : Except Failure Unit),
      (⟨result, y.takenBack, d⟩ : Step Unit).Proper x d := fun y result =>
    proper_takenBack h.store (.refl d) y result
  have hcompile := continues_compile x d .remove
  unfold deleteReference unlessSuspended
  split
  · exact hback x _
  · split
    · exact proper_fail h (.refl d x) _
    · split
      · exact hback _ _
      next y heq =>
        rw [heq] at hcompile
        split
        · exact hback _ _
        · -- the transaction goes on, but this counts as a failure
          exact ⟨(h.continues hcompile).begin, .refl d, nofun⟩
        · split
          · exact hback _ _
          · split
            · exact hback _ _
            · split
              · exact proper_takenBack (h.store.withoutRef name) (.commit d _) _ _
              · exact hback _ _

/-- A suspended session compacts nothing. Otherwise, whatever is refused, the store is left as it
was or collected, and the session at rest. -/
theorem compact_leaves (h : x.Orderly d) (refusals : Refusals) :
    let step := x.compact refusals d
    (x.suspended = true ∧ ∃ f, step = .fail x d f) ∨
      step.session.AtRest ∧ d.Precedes step.database ∧
        (step.database.store = d.store ∨ step.database.store = d.store.collected) := by
  have hread := continues_readAll refusals x d
    [(.readObjects, .keys), (.readLinks, .links), (.readTargets, .targets)]
  unfold compact unlessSuspended
  dsimp only
  split
  · exact .inr ⟨⟨rfl, rfl⟩, .refl d, .inl rfl⟩
  · split
    next hsusp => exact .inl ⟨hsusp, _, rfl⟩
    · split
      · exact .inr ⟨⟨rfl, rfl⟩, .refl d, .inl rfl⟩
      next y heq =>
        rw [heq] at hread
        have hy := h.continues hread
        split
        · exact .inr ⟨⟨rfl, rfl⟩, .refl d, .inl rfl⟩
        next swept hswept =>
          obtain ⟨after, hafter⟩ : ∃ after, after =
            if ({ y.view d with locked := d.store.locked || y.outdated d } : Store).unreachable = []
              then d else d.commit { swept with locked := d.store.locked } := ⟨_, rfl⟩
          have hleft : d.Precedes after ∧
              (after.store = d.store ∨ after.store = d.store.collected) := by
            rw [hafter]
            split
            · exact ⟨.refl d, .inl rfl⟩
            next hkeys =>
              refine ⟨.commit d _, .inr ?_⟩
              -- something was swept, so the view is not outdated and the store itself was swept
              obtain ⟨hwithout, -, hlock⟩ := Store.sweepAll_eq_ok hswept
              obtain ⟨-, hnew⟩ := Bool.or_eq_false_iff.1 (hlock hkeys)
              rw [hwithout, hnew, Bool.or_false, hy.view_eq hnew]
              rfl
          rw [← hafter]
          split
          · exact .inr ⟨⟨rfl, rfl⟩, hleft⟩
          · exact .inr ⟨⟨rfl, rfl⟩, hleft.1.trans (.commit after _), hleft.2⟩

/-- A compaction is proper, also one that is refused after it has committed: what it leaves is then
already collected, and sound. -/
theorem proper_compact (h : x.Orderly d) (refusals : Refusals) :
    (x.compact refusals d).Proper x d := by
  obtain ⟨-, f, hfail⟩ | ⟨hrest, hprecedes, hstore⟩ := compact_leaves h refusals
  · rw [hfail]
    exact proper_fail h (.refl d x) f
  · refine ⟨orderly_of_idle ?_ hrest.idle, hprecedes, fun _ _ _ => hrest⟩
    rcases hstore with hsame | hcollected
    · rw [hsame]
      exact h.store
    · rw [hcollected]
      exact h.store.collected

/-! ## What they report -/

/-- No name in a listing is corrupt, whichever state the session looks at, since every state of an
orderly session is that of a sound store. -/
theorem listing_not_corrupt (h : x.Orderly d) (refusals : Refusals) (name : Text) (fault : NameFault) :
    (x.listing refusals d).1.failure ≠ some (Error.unreadable (.corruptName name fault)) := by
  have hread := continues_read x d .references
  unfold listing
  split
  · exact nofun
  · split
    · exact nofun
    · split
      · exact nofun
      next y heq =>
        rw [heq] at hread
        -- the session sees a sound store, in which every name can be parsed
        rw [(h.continues hread).view_sound.parseRows_failure]
        exact nofun

/-- What looking up a reference gives is what the newest rows say, for a session that sees them. -/
theorem lookup_of_ok {refusals : Refusals} {name : Text} {found : Option Text} (hcur : x.Current d)
    (hok : (x.lookup refusals d name).result = .ok found) :
    found = (d.store.refRow? name).map (·.target) := by
  have hread := continues_read x d .target
  unfold lookup reading at hok
  split at hok
  · cases hok
  · split at hok
    · cases hok
    · split at hok
      · cases hok
      next y heq =>
        rw [heq] at hread
        unfold ifEncodable at hok
        split at hok
        · cases hok
        · -- the reading went on in the newest state
          rw [← (hread.current hcur).view_eq]
          exact (Except.ok.inj hok).symm

/-- A name that can be stored can be looked up where the database refuses nothing. -/
theorem lookup_none {name : Text} (hrest : x.AtRest) (htables : d.store.missingTables = [])
    (hname : name.strayRun? = none) : ∃ found, (x.lookup .none d name).result = .ok found := by
  have hquiet : (x.read d .target).2 = none := read_all hrest.current htables
  unfold lookup reading
  dsimp only [Refusals.none]
  rw [hrest.awake, if_neg Bool.false_ne_true]
  split
  next heq => rw [heq] at hquiet; cases hquiet
  · rw [ifEncodable, hname]
    exact ⟨_, rfl⟩

end Session

end RefSweep
