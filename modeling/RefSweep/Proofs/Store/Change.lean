import RefSweep.Proofs.Store.Dialogue

/-!
# What an operation changes

`Writing` and `Deleting` say what can come of an operation that writes, with all that it depends on,
so that nothing else has to look into it. Main statement: `perform_changes`, a request commits at
most one change of the rows, and none if it fails, unless it is a compaction.
-/

namespace RefSweep

/-- `t` is `s` after one change of its rows, other than a compaction. -/
inductive Store.Change (s : Store) : Store → Prop where
  | added (row : ObjectRow) (targets : List Text) (new : s.holds row.key = false) :
    Change s (s.withObject row targets)
  | moved (name target : Text) : Change s (s.withRef name target)
  | deleted (name : Text) : Change s (s.withoutRef name)

namespace Step

variable {α β : Type} {x : Session} {d : Database} {stores stores' : Store → Prop} {step : Step α}

/-- What can come of storing an object or moving a reference: it stops before anything is written,
which happens to no session that is awake if the request passes its checks; it is refused while it
writes, and suspends the session; or it succeeds, with or without a change. -/
inductive Writing (x : Session) (d : Database) (passes : Prop) (stores : Store → Prop) (value : α) :
    Step α → Prop where
  | stopped {y : Session} (continues : Session.Continues d x y)
      (why : passes → x.suspended = true) (f : Failure) :
    Writing x d passes stores value (.fail y d f)
  | refused (y : Session) (awake : x.suspended = false) (passed : passes) (cause : Foreign) :
    Writing x d passes stores value (.suspend y d cause)
  | unchanged {y : Session} (continues : Session.Continues d x y) :
    Writing x d passes stores value (.ok y.ended d value)
  | committed {y : Session} (continues : Session.Continues d x y) {s : Store} (allowed : stores s) :
    Writing x d passes stores value (.ok y.ended (d.commit s) value)

/-- What can come of deleting a reference: a suspended session refuses, unless the database does; a
failure is taken back, but not one of a name that cannot be stored. -/
inductive Deleting (x : Session) (d : Database) (refused : Prop) (name : Text) :
    Step Unit → Prop where
  | pending (suspended : x.suspended = true) (why : ¬ refused) (f : Failure) :
    Deleting x d refused name (.fail x d f)
  | takenBack (y : Session) (why : x.suspended = true → refused) (f : Failure) :
    Deleting x d refused name (.fail y.takenBack d f)
  | begun {y : Session} (continues : Session.Continues d x y) (awake : x.suspended = false)
      (f : Failure) : Deleting x d refused name (.fail y.begin d f)
  | committed (y : Session) :
    Deleting x d refused name (.ok y.takenBack (d.commit (d.store.withoutRef name)) ())

/-- The step leaves the database alone, or it succeeds and commits one of these stores. -/
def Commits (d : Database) (stores : Store → Prop) (step : Step α) : Prop :=
  step.database = d ∨ (∃ a, step.result = .ok a) ∧ ∃ s, stores s ∧ step.database = d.commit s

/-- A step that writes or is refused commits: the database is left as it was or with one of the
stores the step may write. -/
theorem Writing.commits {passes : Prop} {value : α} (h : step.Writing x d passes stores value) :
    step.Commits d stores := by
  cases h with
  | stopped | refused | unchanged => exact .inl rfl
  | committed _ allowed => exact .inr ⟨⟨_, rfl⟩, _, allowed, rfl⟩

/-- A deletion commits too, and the only store it can leave besides the old one is the one without
the reference. -/
theorem Deleting.commits {refused : Prop} {name : Text} {step : Step Unit}
    (h : step.Deleting x d refused name) : step.Commits d (· = d.store.withoutRef name) := by
  cases h with
  | pending | takenBack | begun => exact .inl rfl
  | committed => exact .inr ⟨⟨_, rfl⟩, _, rfl, rfl⟩

namespace Commits

theorem mono (h : step.Commits d stores) (hstores : ∀ s, stores s → stores' s) :
    step.Commits d stores' :=
  h.imp id fun ⟨hok, s, hs, hd⟩ => ⟨hok, s, hstores s hs, hd⟩

/-- What a step commits does not depend on what is made of its answer. -/
theorem map (h : step.Commits d stores) (f : α → β) : (step.map f).Commits d stores := by
  refine h.imp id fun ⟨⟨a, ha⟩, hcommitted⟩ => ⟨⟨f a, ?_⟩, hcommitted⟩
  rw [Step.map, ha]
  rfl

/-- A step that commits and ends in a failure has left the database as it was: there is no failure
after the commit. -/
theorem of_error (h : step.Commits d stores) {f : Failure} (hf : step.result = .error f) :
    step.database = d := by
  refine h.resolve_right fun ⟨⟨a, ha⟩, _⟩ => ?_
  cases ha.symm.trans hf

end Commits

end Step

namespace Session

variable {x y : Session} {d : Database} {α : Type} {stores : Store → Prop}

/-- Where writing is not refused, the session sees the newest rows. -/
theorem Orderly.holds_view (h : x.Orderly d) (hfree : x.writeRefusal? d = none) (key : Text) :
    (x.view d).holds key = d.store.holds key := by
  have hnew : x.outdated d = false := by
    unfold writeRefusal? at hfree
    grind
  have hview := congrArg (Store.holds · key) (h.view_eq hnew)
  exact hview

/-- Storing an object either fails and leaves the database alone, or answers with the object's key;
the store is then the old one if it held the object, and else the old one with the object and its
links. -/
theorem writing_writeObject (h : x.Regular d) (refusals : Refusals) (kind : Text) (payload : Bytes)
    (links : List Text) :
    let key := Digest.key kind payload
    (x.writeObject refusals d kind payload links).Writing x d
      (kind.strayRun? = none ∧ refusals .readObject = none)
      (fun s => d.store.holds key = false ∧
        s = d.store.withObject ⟨key, kind, payload⟩ links.eraseDups) key := by
  intro key
  obtain ⟨y, hread, hc, -⟩ := h.read .object
  unfold writeObject ifEncodable reading
  rw [hread]
  split
  next run hrun => exact .stopped (.refl d x) (fun hpasses => by cases hrun.symm.trans hpasses.1) _
  next hkind =>
    split
    next e he => exact .stopped (.refl d x) (fun hpasses => by cases he.symm.trans hpasses.2) _
    next hquiet =>
      split
      next hsusp => exact .stopped (.refl d x) (fun _ => hsusp) _
      next hawake =>
        dsimp only
        split
        · exact .unchanged hc
        next hnew =>
          split
          · exact .refused y (Bool.not_eq_true _ ▸ hawake) ⟨hkind, hquiet⟩ _
          next hfree =>
            -- the object was new in the view of the session, so it is new in the store too
            have hwrite : y.writeRefusal? d = none :=
              Option.map_eq_none_iff.1 (Option.or_eq_none_iff.1 hfree).1
            rw [(h.toOrderly.continues hc).holds_view hwrite, Bool.not_eq_true] at hnew
            exact .committed hc ⟨hnew, rfl⟩

/-- Moving a reference comes as far as writing only if the name parses, has no stray character and
the reading that comes first is let through; what it commits is the store with the reference set. -/
theorem writing_updateReference (h : x.Regular d) (refusals : Refusals) (name target : Text) :
    (x.updateReference refusals d name target).Writing x d
      ((∃ parsed, RefName.parse name = .ok parsed) ∧ name.strayRun? = none ∧
        refusals .readReference = none)
      (· = d.store.withRef name target) () := by
  obtain ⟨y, hread, hc, -⟩ := h.read .reference
  unfold updateReference
  split
  next fault hparse =>
    refine .stopped (.refl d x) (fun hpasses => ?_) _
    obtain ⟨⟨parsed, hparsed⟩, -⟩ := hpasses
    cases hparse.symm.trans hparsed
  next parsed hparse =>
    unfold reading ifEncodable
    rw [hread]
    split
    next e he => exact .stopped (.refl d x) (fun hpasses => by cases he.symm.trans hpasses.2.2) _
    next hquiet =>
      split
      next hsusp => exact .stopped (.refl d x) (fun _ => hsusp) _
      next hawake =>
        dsimp only
        split
        next run hrun => exact .stopped hc (fun hpasses => by cases hrun.symm.trans hpasses.2.1) _
        next hname =>
          have hrefused : ∀ z cause, (Step.suspend z d cause).Writing x d
              ((∃ parsed, RefName.parse name = .ok parsed) ∧ name.strayRun? = none ∧
                refusals .readReference = none) (· = d.store.withRef name target) () :=
            fun z cause => .refused z (Bool.not_eq_true _ ▸ hawake)
              ⟨⟨parsed, hparse⟩, hname, hquiet⟩ cause
          split
          · exact .unchanged hc
          · -- compiling never fails here; all that follows is refused while writing, if at all
            obtain ⟨z, hcompile, hz, -⟩ := (h.toOrderly.continues hc).compile
              (if ((y.view d).refRow? name).isSome then .move else .add)
            obtain ⟨w, hreach, hw⟩ := (h.toOrderly.continues (hc.trans hz)).reach
              (if ((y.view d).refRow? name).isSome then .move else .add)
            rw [hcompile]
            dsimp only
            split
            · exact hrefused z _
            · rw [hreach]
              cases z.writeRefusal? d with
              | some e => exact hrefused w _
              | none =>
                dsimp only
                split
                · exact hrefused w _
                · exact .committed ((hc.trans hz).trans hw) rfl

/-- Deleting a reference takes it from the store, or is refused and leaves the store alone; a
refusal of the deletion itself is rolled back. -/
theorem deleting_deleteReference (h : x.Regular d) (refusals : Refusals) (name : Text) :
    (x.deleteReference refusals d name).Deleting x d (refusals .deleteReference ≠ none) name := by
  obtain ⟨y, hcompile, hc, -⟩ := h.compile .remove
  obtain ⟨z, hreach, -⟩ := (h.toOrderly.continues hc).begin.reach .remove
  unfold deleteReference unlessSuspended
  rw [hcompile]
  split
  next e he => exact .takenBack _ (fun _ => by rw [he]; exact nofun) _
  next hquiet =>
    split
    next hsusp => exact .pending hsusp (not_not.2 hquiet) _
    next hawake =>
      -- a suspended session does not come this far
      have hback : ∀ (w : Session) f, (Step.fail w.takenBack d f).Deleting x d
          (refusals .deleteReference ≠ none) name := fun w f =>
        .takenBack w (fun hsusp => absurd hsusp hawake) f
      dsimp only
      split
      · exact hback _ _
      · exact .begun hc (Bool.not_eq_true _ ▸ hawake) _
      · rw [hreach]
        cases y.begin.writeRefusal? d with
        | some e => exact hback _ _
        | none =>
          dsimp only
          split
          · exact hback _ _
          · split
            · exact .committed z
            · exact hback _ _

/-- A reading operation leaves the database alone, refused or not, as long as the operation it wraps
does. -/
theorem reading_database {operation : Session → Store → Step α} (refusal : Option DbError)
    (query : Query) (hop : ∀ y s, (operation y s).database = d) :
    (x.reading refusal d query operation).database = d := by
  unfold reading
  split
  · rfl
  · split
    · rfl
    · split
      · rfl
      · exact hop _ _

theorem lookup_database (refusals : Refusals) (name : Text) :
    (x.lookup refusals d name).database = d :=
  reading_database _ _ fun y s => by unfold ifEncodable; split <;> rfl

theorem countObjects_database (refusals : Refusals) : (x.countObjects refusals d).database = d :=
  reading_database _ _ fun _ _ => rfl

/-- What a request other than a compaction commits is one change of the rows, and a request that
fails commits nothing. -/
theorem perform_changes (h : x.Regular d) (refusals : Refusals) (request : Request)
    (hrequest : request ≠ .compact) :
    (x.perform refusals d request).Commits d d.store.Change := by
  cases request with
  | list => exact .inl rfl
  | lookup name => exact .inl (lookup_database refusals name)
  | count => exact .inl (countObjects_database refusals)
  | write kind payload links =>
    refine ((writing_writeObject h refusals kind payload links).commits.mono ?_).map _
    rintro s ⟨hnew, rfl⟩
    exact .added _ _ hnew
  | update name target =>
    refine ((writing_updateReference h refusals name target).commits.mono ?_).map _
    rintro s rfl
    exact .moved name target
  | delete name =>
    refine ((deleting_deleteReference h refusals name).commits.mono ?_).map _
    rintro s rfl
    exact .deleted name
  | compact => exact absurd rfl hrequest
  | close => exact .inl rfl

end Session

end RefSweep
