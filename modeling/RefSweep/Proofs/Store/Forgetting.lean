import Mathlib.Algebra.Order.BigOperators.Group.List
import Mathlib.Algebra.Order.Group.Nat
import RefSweep.Proofs.Store.Change
import RefSweep.Proofs.Store.Shared

/-!
# What a failing call leaves behind

A call that fails to write leaves the rows alone, but not always the session. Storing an object and
moving a reference suspend it once they have got past their checks and their first query; deleting a
reference takes back whatever was begun. Main statement: `failed_call_leaves`, a session can be used
as if a failing call had not been made exactly if the call left it awake or suspended as it was.
-/

namespace RefSweep

namespace Session

variable {x y : Session} {d : Database} {refusals : Refusals} {α : Type}

namespace Request

/-- The request writes objects or references. -/
def Writes : Request → Prop
  | .write .. | .update .. | .delete .. => True
  | _ => False

/-- The request passes its checks and its first query, and then writes what it does not take back by
itself. -/
def Flushes (refusals : Refusals) : Request → Prop
  | .write kind _ _ => kind.strayRun? = none ∧ refusals .readObject = none
  | .update name _ => (∃ parsed, RefName.parse name = .ok parsed) ∧ name.strayRun? = none ∧
      refusals .readReference = none
  | _ => False

end Request

/-! ## The view of a session after a failing call -/

/-- If the session `y` sees an old state of the store, it is in the transaction that `x` was in. -/
def Retains (d : Database) (x y : Session) : Prop := y.outdated d → y.transaction = x.transaction

/-- A session outside any transaction has no snapshot that could be outdated. -/
theorem not_outdated_of_idle (h : x.transaction = .idle) : ¬ x.outdated d := by
  intro hold
  obtain ⟨view, hview, -⟩ := outdated_iff.1 hold
  cases h.symm.trans hview

theorem retains_of_idle (h : y.transaction = .idle) : Retains d x y :=
  fun hold => absurd hold (not_outdated_of_idle h)

/-- A session that goes on in its transaction keeps the snapshot it has. -/
theorem Continues.retains (h : Continues d x y) : Retains d x y :=
  fun hold => h.kept (h.outdated.symm.trans hold)

/-- And so it does when it goes on to begin a writing transaction. -/
theorem Continues.retains_begin (h : Continues d x y) : Retains d x y.begin := by
  intro hold
  have hopen : y.transaction ≠ .idle := fun hidle =>
    not_outdated_of_idle hidle ((outdated_begin y d).symm.trans hold)
  rw [begin_of_open hopen] at hold ⊢
  exact h.retains hold

end Session

namespace Step

variable {x : Session} {d : Database} {α : Type} {f : Failure}

/-- A failing request to write keeps what the session has seen; an awake session is suspended by it
just when the request passed its checks, and a suspended one stays suspended. -/
theorem Writing.failed {passes : Prop} {stores : Store → Prop} {value : α} {step : Step α}
    (h : step.Writing x d passes stores value) (hfails : step.result = .error f) :
    Session.Retains d x step.session ∧
      (x.suspended = false → (step.session.suspended = true ↔ passes)) ∧
      (x.suspended = true → step.session.suspended = true) := by
  cases h with
  | stopped continues why =>
    -- suspended before and after, or neither
    refine ⟨continues.retains, fun hawake => ?_, continues.suspended.trans⟩
    have hsame := continues.suspended.trans hawake
    refine iff_of_false (fun hsusp => ?_) fun hpasses => ?_
    · cases hsame.symm.trans hsusp
    · cases hawake.symm.trans (why hpasses)
  | refused y awake passed =>
    exact ⟨Session.retains_of_idle rfl, fun _ => iff_of_true rfl passed, fun _ => rfl⟩
  | unchanged | committed => cases hfails

/-- A failing deletion keeps it too; it suspends no session, and frees a suspended one just when it
was the database that refused it. -/
theorem Deleting.failed {refused : Prop} {name : Text} {step : Step Unit}
    (h : step.Deleting x d refused name) (hfails : step.result = .error f) :
    Session.Retains d x step.session ∧
      (x.suspended = false → step.session.suspended = false) ∧
      (x.suspended = true → (step.session.suspended = false ↔ refused)) := by
  cases h with
  | pending suspended why =>
    refine ⟨(Session.Continues.refl d x).retains, id, fun _ => iff_of_false (fun hawake => ?_) why⟩
    cases suspended.symm.trans hawake
  -- a rollback frees the session, and forgets nothing that it could have seen
  | takenBack y why =>
    exact ⟨Session.retains_of_idle rfl, fun _ => rfl, fun hsusp => iff_of_true rfl (why hsusp)⟩
  | begun continues awake =>
    refine ⟨continues.retains_begin, fun _ => ?_, fun hsusp => ?_⟩
    · exact (Session.suspended_begin _).trans (continues.suspended.trans awake)
    · cases awake.symm.trans hsusp
  | committed => cases hfails

end Step

namespace Session

variable {x y : Session} {d : Database} {refusals : Refusals} {request : Request} {f : Failure}

/-- A failing call to write leaves the database alone. It suspends the session if it has passed its
checks, unless it is a deletion; a session that is suspended already is freed by a deletion whose
statement is refused. -/
theorem failed_perform (h : x.Regular d) (hwrites : request.Writes)
    (hfails : (x.perform refusals d request).result = .error f) :
    let step := x.perform refusals d request
    step.database = d ∧ Retains d x step.session ∧
      (x.suspended = false → (step.session.suspended = true ↔ request.Flushes refusals)) ∧
      (x.suspended = true → (step.session.suspended = false ↔
        (∃ name, request = .delete name) ∧ refusals .deleteReference ≠ none)) := by
  have hdatabase : (x.perform refusals d request).database = d := by
    refine (perform_changes h refusals request ?_).of_error hfails
    rintro rfl
    exact hwrites
  refine ⟨hdatabase, ?_⟩
  -- only deletions free a session
  have hstuck : ∀ {s : Session}, (x.suspended = true → s.suspended = true) →
      (∀ name, request ≠ .delete name) → x.suspended = true → (s.suspended = false ↔
        (∃ name, request = .delete name) ∧ refusals .deleteReference ≠ none) := by
    intro s hsusp hother hx
    refine iff_of_false (fun hfree => ?_) fun ⟨⟨name, hname⟩, _⟩ => hother name hname
    cases (hsusp hx).symm.trans hfree
  cases request with
  | write kind payload links =>
    have hwriting := writing_writeObject h refusals kind payload links
    obtain ⟨hretains, hawake, hsusp⟩ := hwriting.failed (Step.map_eq_error.1 hfails)
    exact ⟨hretains, hawake, hstuck hsusp nofun⟩
  | update name target =>
    have hwriting := writing_updateReference h refusals name target
    obtain ⟨hretains, hawake, hsusp⟩ := hwriting.failed (Step.map_eq_error.1 hfails)
    exact ⟨hretains, hawake, hstuck hsusp nofun⟩
  | delete name =>
    have hdeleting := deleting_deleteReference h refusals name
    obtain ⟨hretains, hawake, hsusp⟩ := hdeleting.failed (Step.map_eq_error.1 hfails)
    refine ⟨hretains, fun hx => iff_of_false (fun hlate => ?_) id, fun hx => ?_⟩
    · cases (hawake hx).symm.trans hlate
    · exact (hsusp hx).trans (and_iff_right ⟨name, rfl⟩).symm
  | list | lookup | count | compact | close => exact hwrites.elim

/-! ## What tells sessions apart -/

/-- Listing the references tells whether a session is suspended. -/
theorem Regular.listing_failure (h : x.Regular d) :
    (x.listing .none d).1.failure =
      if x.suspended then some (Failure.foreign .rollbackPending) else none := by
  obtain ⟨y, hread, hc, -⟩ := h.read .references
  unfold listing
  dsimp only [Refusals.none]
  rw [hread]
  split
  · rfl
  · exact (h.toOrderly.continues hc).view_sound.parseRows_failure

/-- Deleting a reference that is not there tells whether a session sees an old state of the store.
-/
theorem Regular.deleteReference_fresh (h : x.Regular d) {name : Text} (hawake : x.suspended = false)
    (hfree : d.store.locked = false) (hname : name.strayRun? = none)
    (hnew : d.store.refRow? name = none) :
    (x.deleteReference .none d name).result = .error
      (if x.outdated d then Error.locked "delete" name else Error.undeletable name .absent) := by
  obtain ⟨y, hcompile, hc, -⟩ := h.compile .remove
  obtain ⟨z, hreach, -⟩ := (h.toOrderly.continues hc).begin.reach .remove
  -- for an unlocked store it is only an old view that refuses to write
  have hrefusal : y.begin.writeRefusal? d =
      if x.outdated d then some DbError.databaseLocked else none := by
    unfold writeRefusal?
    rw [outdated_begin, hc.outdated, hfree, Bool.false_or]
  have hguard : d.store.guardRefusal? name = none := by
    unfold Store.guardRefusal?
    rw [hnew]
    rfl
  unfold deleteReference unlessSuspended
  dsimp only [Refusals.none]
  rw [hawake, if_neg Bool.false_ne_true, hcompile, hname]
  dsimp only
  rw [hreach, hrefusal]
  cases x.outdated d with
  | true => rfl
  | false =>
    rw [if_neg Bool.false_ne_true, hguard]
    dsimp only
    rw [hnew]
    rfl

end Session

/-- A name that is longer than all others is new. -/
theorem Store.exists_fresh_name (s : Store) :
    ∃ name : Text, name.strayRun? = none ∧ s.refRow? name = none := by
  have hlength : ∀ row ∈ s.refRows, row.name.length ≤ (s.refRows.map (·.name.length)).sum :=
    fun row hrow => List.le_sum_of_mem (List.mem_map_of_mem hrow)
  refine ⟨List.replicate ((s.refRows.map (·.name.length)).sum + 1) (.char 'a'), ?_, ?_⟩
  · simp [Text.strayRun?, Text.isStray]
  · refine List.find?_eq_none.2 fun row hrow hname => ?_
    have hsame : row.name = _ := beq_iff_eq.1 hname
    have hshort := hlength row hrow
    rw [hsame, List.length_replicate] at hshort
    omega

namespace Session

variable {x y : Session} {d : Database}

/-- Two sessions, the second of them seeing an old state only within the transaction of the first,
are told apart by no conversation exactly if they are suspended alike and see an old state alike. -/
theorem converse_eq_iff (hx : x.Regular d) (hy : y.Regular d) (hretains : Retains d x y) :
    (∀ rounds, y.converse d rounds = x.converse d rounds) ↔
      y.suspended = x.suspended ∧ (x.outdated d → y.outdated d) := by
  constructor
  · intro hsame
    -- the conversations that tell them apart are held while nobody else has the lock
    have hfree : ∀ {z : Session}, z.Regular d → z.Regular (d.setLocked false) := fun hz =>
      hz.later (.setLocked d false) (hz.store.setLocked false)
    have hsuspended : y.suspended = x.suspended := by
      have hlisted := hsame [⟨false, .none, .list⟩]
      have hfailure : (y.listing .none (d.setLocked false)).1.failure =
          (x.listing .none (d.setLocked false)).1.failure := by
        have hreply := congrArg Prod.fst (List.cons.inj hlisted).1
        exact congrArg Listing.failure (Reply.listed.inj (Except.ok.inj hreply))
      rw [(hfree hx).listing_failure, (hfree hy).listing_failure] at hfailure
      cases hxs : x.suspended <;> cases hys : y.suspended <;> simp [hxs, hys] at hfailure ⊢
    refine ⟨hsuspended, fun hold => ?_⟩
    -- an old view is one of an open transaction, so neither session is suspended
    have hawake : x.suspended = false := Bool.eq_false_iff.2 fun hsusp =>
      not_outdated_of_idle (hx.idle_of_suspended hsusp) hold
    obtain ⟨name, hname, hnew⟩ := d.store.exists_fresh_name
    have hdeleted := congrArg Prod.fst (List.cons.inj (hsame [⟨false, .none, .delete name⟩])).1
    have hxfails := (hfree hx).deleteReference_fresh hawake rfl hname hnew
    have hyfails := (hfree hy).deleteReference_fresh (hsuspended.trans hawake) rfl hname hnew
    have herrors := (Step.map_eq_error.2 hyfails).symm.trans
      (hdeleted.trans (Step.map_eq_error.2 hxfails))
    have hxold : x.outdated (d.setLocked false) = true := hold
    rw [hxold] at herrors
    cases hyold : y.outdated (d.setLocked false) with
    | true => exact hyold
    | false =>
      rw [hyold] at herrors
      cases herrors
  · rintro ⟨hsuspended, hold⟩ rounds
    exact (Alike.mk hx hy hsuspended fun heither => hretains (heither.elim hold id)).converse rounds

end Session

namespace Shared

/-- A call to write fails in the middle of a history. The database stays as it is. Whatever the
session is asked from then on is answered as if the call had not been made exactly if it is
suspended as it was and sees an old state of the store if it did. A session that is awake gets
suspended exactly if the call has passed its checks and is not a deletion; a suspended one is freed
by a deletion whose statement the database refuses. -/
theorem failed_call_leaves {d : Database} (hsound : d.store.Sound) (before : List Turn) {i : Nat}
    {x : Session} (hx : ((unused d).run before).sessions[i]? = some x) {refusals : Refusals}
    {request : Session.Request} (hwrites : request.Writes) {f : Failure}
    (hfails : (x.perform refusals ((unused d).run before).database request).result = .error f) :
    let found := ((unused d).run before).database
    let step := x.perform refusals found request
    step.database = found ∧
    ((∀ rounds, step.session.converse found rounds = x.converse found rounds) ↔
      step.session.suspended = x.suspended ∧ (x.outdated found → step.session.outdated found)) ∧
    (x.suspended = false → (step.session.suspended = true ↔ request.Flushes refusals)) ∧
    (x.suspended = true → (step.session.suspended = false ↔
      (∃ name, request = .delete name) ∧ refusals .deleteReference ≠ none)) := by
  intro found step
  have hregular := ((inOrder_unused hsound).run before).sessions x (List.mem_of_getElem? hx)
  -- what tells the session from one that was not asked is read off how the request may fail
  obtain ⟨hsame, hretains, hawake, hsuspended⟩ := Session.failed_perform hregular hwrites hfails
  have hafter : step.session.Regular found := by
    have hperformed := hregular.perform refusals request
    rwa [hsame] at hperformed
  exact ⟨hsame, Session.converse_eq_iff hregular hafter hretains, hawake, hsuspended⟩

/-- Pointing a reference at an object that is not there fails, and after that not even a listing
succeeds. -/
theorem failed_call_leaves_dangling :
    ((unused .created).run [.opens]).sessions[0]? = some .justOpened ∧
      ∃ f, (Session.perform .none .justOpened .created
        (.update "refs/heads/main" "missing")).result = .error f ∧
      ∃ rounds, (Session.perform .none .justOpened .created
        (.update "refs/heads/main" "missing")).session.converse .created rounds ≠
          Session.justOpened.converse .created rounds := by
  have hx : ((unused .created).run [.opens]).sessions[0]? = some .justOpened := rfl
  have hfails : (Session.perform .none .justOpened .created
      (.update "refs/heads/main" "missing")).result = .error (Foreign.database .foreignKey) := rfl
  have hwrites : (Session.Request.update "refs/heads/main" "missing").Writes := trivial
  -- the name is fine and the reading is let through: it is the foreign key that fails, while
  -- writing
  have hpasses : (Session.Request.update "refs/heads/main" "missing").Flushes .none :=
    ⟨⟨_, rfl⟩, rfl, rfl⟩
  obtain ⟨-, hsame, hawake, -⟩ :=
    failed_call_leaves Database.sound_created [.opens] hx hwrites hfails
  have hsuspended := (hawake rfl).2 hpasses
  refine ⟨hx, _, hfails, not_forall.1 fun hforgotten => ?_⟩
  have hstays := (hsame.1 hforgotten).1
  cases hsuspended.symm.trans hstays

end Shared

end RefSweep
