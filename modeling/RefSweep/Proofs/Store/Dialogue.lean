import RefSweep.Proofs.Store.Orderly
import RefSweep.Store.Edit

/-!
# What a session can be asked

`Request` gathers the operations of a session, and `perform` answers them. What the answers depend
on is the database, whether the session is suspended, and which state of the store it sees. Two
sessions that have these in common are `Alike`. Main statement: `Alike.converse`, nothing that they
are asked from then on can tell them apart.
-/

namespace RefSweep

namespace Step

variable {α β : Type}

/-- The step with its value changed. -/
def map (f : α → β) (step : Step α) : Step β := ⟨step.result.map f, step.session, step.database⟩

/-- Changing the value of a step keeps whether it has one: a changed step ends well with `b` exactly
if the step itself does, with a value that is changed to `b`. -/
theorem map_eq_ok {f : α → β} {step : Step α} {b : β} :
    (step.map f).result = .ok b ↔ ∃ a, step.result = .ok a ∧ f a = b := by
  unfold map
  cases step.result <;> simp [Except.map]

/-- Changing the value of a step leaves its failure as it is, so what is known of the failures of an
operation is known of the request that asks for it. -/
theorem map_eq_error {f : α → β} {step : Step α} {e : Failure} :
    (step.map f).result = .error e ↔ step.result = .error e := by
  unfold map
  cases step.result <;> simp [Except.map]

/-- A step has a value exactly if it ends well; the form in which the answers of a run are
collected. -/
theorem toOption_result {step : Step α} {a : α} :
    step.result.toOption = some a ↔ step.result = .ok a := by
  cases step.result <;> simp [Except.toOption]

/-- What a proper step guarantees about session and database does not depend on the value that it
gives, so the value may be changed. -/
theorem Proper.map {x : Session} {d : Database} {step : Step α} (h : step.Proper x d) (f : α → β) :
    (step.map f).Proper x d := by
  refine ⟨h.orderly, h.precedes, fun hrest b hok => ?_⟩
  obtain ⟨a, ha, -⟩ := map_eq_ok.1 hok
  exact h.rests hrest a ha

end Step

namespace Session

inductive Request where
  | list
  | lookup (name : Text)
  | count
  | write (kind : Text) (payload : Bytes) (links : List Text)
  | update (name target : Text)
  | delete (name : Text)
  | compact
  | close

inductive Reply where
  | listed (listing : Listing)
  | found (target : Option Text)
  | counted (objects : Nat)
  | written (key : Text)
  | compacted (stats : CompactionStats)
  | done

def perform (refusals : Refusals) (x : Session) (d : Database) : Request → Step Reply
  | .list => .ok (x.listing refusals d).2 d (.listed (x.listing refusals d).1)
  | .lookup name => (x.lookup refusals d name).map .found
  | .count => (x.countObjects refusals d).map .counted
  | .write kind payload links => (x.writeObject refusals d kind payload links).map .written
  | .update name target => (x.updateReference refusals d name target).map fun _ => .done
  | .delete name => (x.deleteReference refusals d name).map fun _ => .done
  | .compact => (x.compact refusals d).map .compacted
  | .close => .ok fresh d .done

variable {x y x' y' : Session} {d d' : Database} {query : Query} {α : Type}

/-- The request to store an object is answered with a key exactly if the operation gives that key.
-/
theorem perform_write_eq_ok {refusals : Refusals} {kind : Text} {payload : Bytes} {links : List Text}
    {key : Text} : (x.perform refusals d (.write kind payload links)).result = .ok (.written key) ↔
      (x.writeObject refusals d kind payload links).result = .ok key := by
  refine Step.map_eq_ok.trans ⟨fun ⟨_, hresult, hsame⟩ => ?_, fun hresult => ⟨key, hresult, rfl⟩⟩
  rw [hresult, Reply.written.inj hsame]

/-- Counting reads one table and nothing else, so it leaves the database alone and the session
orderly. -/
theorem proper_countObjects (h : x.Orderly d) (refusals : Refusals) :
    (x.countObjects refusals d).Proper x d := by
  refine proper_reading h _ fun y hc => ?_
  exact ⟨h.continues hc, .refl d, fun hrest _ _ => hrest.continues hc⟩

/-- Whatever a session is asked, the step is proper. There is one case for each request; closing the
session is the only one that begins anew. -/
theorem proper_perform (h : x.Orderly d) (refusals : Refusals) (request : Request) :
    (x.perform refusals d request).Proper x d := by
  cases request with
  | list =>
    have hlisted := proper_listing h refusals
    exact ⟨hlisted.orderly, hlisted.precedes, fun hrest _ _ => hlisted.rests hrest _ rfl⟩
  | lookup name => exact (proper_lookup h refusals name).map _
  | count => exact (proper_countObjects h refusals).map _
  | write kind payload links => exact (proper_writeObject h refusals kind payload links).map _
  | update name target => exact (proper_updateReference h refusals name target).map _
  | delete name => exact (proper_deleteReference h refusals name).map _
  | compact => exact (proper_compact h refusals).map _
  | close => exact ⟨orderly_of_idle h.store rfl, .refl d, fun _ _ _ => ⟨rfl, rfl⟩⟩

/-! ## Regular sessions -/

/-- Besides being orderly, the session has no transaction while it is suspended, and no query of an
open transaction was refused. -/
structure Regular (x : Session) (d : Database) : Prop extends x.Orderly d where
  idle_of_suspended : x.suspended = true → x.transaction = .idle
  unrefused : x.transaction ≠ .idle → x.refused = none

/-- A session without a transaction is regular in every sound store, as both conditions speak of an
open transaction only. -/
theorem regular_of_idle (hsound : d.store.Sound) (hidle : x.transaction = .idle) :
    x.Regular d :=
  ⟨orderly_of_idle hsound hidle, fun _ => hidle, fun hne => absurd hidle hne⟩

/-- A transaction is begun where there is none, and a refusal that was met before is forgotten with
it. -/
theorem begin_of_idle (h : x.transaction = .idle) :
    x.begin = { x with transaction := .begun, refused := none } := by
  unfold begin
  rw [h]

/-- Where a transaction is open, beginning one does nothing. -/
theorem begin_of_open (h : x.transaction ≠ .idle) : x.begin = x := by
  unfold begin
  split
  next hidle => exact absurd hidle h
  · rfl

/-- Beginning a transaction does not change whether the session is suspended. -/
theorem suspended_begin (x : Session) : x.begin.suspended = x.suspended := by
  by_cases hidle : x.transaction = .idle
  · rw [begin_of_idle hidle]
  · rw [begin_of_open hidle]

/-- Only the view of an open transaction can be old. -/
theorem outdated_iff :
    x.outdated d ↔ ∃ view, x.transaction = .reading view ∧ view.revision ≠ d.revision := by
  unfold outdated
  cases x.transaction <;> simp

/-- A transaction that has just begun has no view yet, so beginning it makes no session see an old
state of the store, or cease to see one. -/
theorem outdated_begin (x : Session) (d : Database) : x.begin.outdated d = x.outdated d := by
  by_cases hidle : x.transaction = .idle
  · unfold outdated
    rw [begin_of_idle hidle, hidle]
  · rw [begin_of_open hidle]

namespace Regular

/-- A regular session stays so while others change the database, as long as what they leave is sound
and later than before. -/
theorem later (h : x.Regular d) (hprecedes : d.Precedes d') (hsound : d'.store.Sound) :
    x.Regular d' := ⟨h.toOrderly.later hprecedes hsound, h.idle_of_suspended, h.unrefused⟩

/-- A session that continues is regular again, unless its last query was refused. -/
theorem continues (h : x.Regular d) (hc : Continues d x y)
    (hrefused : y.refused = none ∨ y.refused = x.refused) : y.Regular d := by
  have hidle : x.transaction = .idle → y.transaction = .idle := fun hidle => by
    rcases hc.transaction with hsame | ⟨hbegun, -⟩
    · exact hsame.trans hidle
    · cases hidle.symm.trans hbegun
  refine ⟨h.toOrderly.continues hc, fun hsusp => ?_, fun hopen => ?_⟩
  · exact hidle (h.idle_of_suspended (hc.suspended.symm.trans hsusp))
  · rcases hrefused with hnone | hsame
    · exact hnone
    · exact hsame.trans (h.unrefused fun hx => hopen (hidle hx))

/-- A session that is awake may begin a transaction and is regular in it: the new transaction has
met no refusal. -/
theorem begin (h : x.Regular d) (hawake : x.suspended = false) : x.begin.Regular d := by
  by_cases hidle : x.transaction = .idle
  · rw [begin_of_idle hidle]
    refine ⟨⟨h.store, fun view hview => by cases hview⟩, fun hsusp => ?_, fun _ => rfl⟩
    cases hawake.symm.trans hsusp
  · rw [begin_of_open hidle]
    exact h

/-- In a transaction of a regular session no query was refused, whether it has just begun or was
open before. A deletion looks at this where it cannot store the name. -/
theorem begin_unrefused (h : x.Regular d) : x.begin.refused = none := by
  by_cases hidle : x.transaction = .idle
  · rw [begin_of_idle hidle]
  · rw [begin_of_open hidle]
    exact h.unrefused hidle

end Regular

/-! ## What a session of a sound store meets -/

/-- Reading may give a transaction its view, but then it is the newest one, so whether the session
sees an old state stays as it was. -/
theorem Continues.outdated (hc : Continues d x y) : y.outdated d = x.outdated d := by
  unfold Session.outdated
  rcases hc.transaction with hsame | ⟨hbegun, hview⟩
  · rw [hsame]
  · rw [hbegun, hview]
    simp

/-- A transaction with an old view has not just begun, so it is not replaced by one with a new view.
-/
theorem Continues.kept (hc : Continues d x y) (hold : x.outdated d) :
    y.transaction = x.transaction := by
  obtain ⟨view, hview, -⟩ := outdated_iff.1 hold
  rcases hc.transaction with hsame | ⟨hbegun, -⟩
  · exact hsame
  -- a transaction that has just begun has no view, least of all an old one
  · cases hbegun.symm.trans hview

/-- What stands against writing depends on the lock and on the age of the view, and reading changes
neither. -/
theorem Continues.writeRefusal? (hc : Continues d x y) : y.writeRefusal? d = x.writeRefusal? d := by
  rw [Session.writeRefusal?, hc.outdated, Session.writeRefusal?]

/-- Looking for tables runs no query, so the last refusal stays on record. -/
theorem refused_findTables (x : Session) (d : Database) (query : Query) :
    (x.findTables d query).1.refused = x.refused := by
  unfold findTables
  split <;> rfl

/-- Compiling runs no query either, and keeps the refusal on record as looking for tables does. -/
theorem refused_compile (x : Session) (d : Database) (query : Query) :
    (x.compile d query).1.refused = x.refused := by
  have h := refused_findTables x d query
  unfold compile
  split
  · rfl
  · split
    next y e heq => rwa [heq] at h
    next y heq => rwa [heq] at h

namespace Orderly

theorem tables (h : x.Orderly d) : (x.view d).missingTables = [] := h.view_sound.tables

/-- In an orderly session every query can be compiled: the tables that it asks for are all there, in
whatever state the session sees. -/
theorem compile (h : x.Orderly d) (query : Query) :
    ∃ y, x.compile d query = (y, none) ∧ Continues d x y ∧ y.refused = x.refused :=
  ⟨_, Prod.ext rfl (compile_all h.tables), continues_compile x d query, refused_compile x d query⟩

theorem renew (h : x.Orderly d) (query : Query) :
    ∃ y, x.renew d query = (y, none) ∧ Continues d x y :=
  ⟨_, Prod.ext rfl (renew_all h.tables), continues_renew x d query⟩

/-- A compiled query that looks at the tables of an orderly session finds them all. -/
theorem look (h : x.Orderly d) (query : Query) :
    ∃ y, x.look d query = (y, none) ∧ Continues d x y := by
  refine ⟨_, Prod.ext rfl ?_, continues_look x d query⟩
  rw [look_refusal, Store.tables_eq_all h.tables, Query.refusal?_all]

/-- An orderly session can read every table. What changes in it is the record of queries, perhaps
the view, and that the last query was not refused. -/
theorem read (h : x.Orderly d) (query : Query) :
    ∃ y, x.read d query = (y, none) ∧ Continues d x y ∧ y.refused = none := by
  obtain ⟨y, hcompile, hy, -⟩ := h.compile query
  obtain ⟨z, hrenew, hz⟩ := (h.continues hy).renew query
  have hviewing := (hy.trans hz).trans (continues_viewing z d)
  obtain ⟨w, hlook, hw⟩ := (h.continues hviewing).look query
  have hc := hviewing.trans hw
  refine ⟨{ w with refused := none }, ?_, ⟨hc.suspended, hc.transaction⟩, rfl⟩
  unfold Session.read
  simp only [hcompile, hrenew, hlook]

/-- Writing reaches its rows unless another process holds the lock or the view is outdated. -/
theorem reach (h : x.Orderly d) (query : Query) :
    ∃ y, x.reach d query = (y, x.writeRefusal? d) ∧ Continues d x y := by
  obtain ⟨y, hrenew, hy⟩ := h.renew query
  obtain ⟨z, hlook, hz⟩ := (h.continues hy).look query
  unfold Session.reach
  simp only [hrenew, hy.writeRefusal?]
  cases x.writeRefusal? d with
  | some e => exact ⟨y, rfl, hy⟩
  | none => exact ⟨z, hlook, hy.trans hz⟩

end Orderly

/-! ## Sessions that cannot be told apart -/

/-- Both sessions are regular, and suspended or not alike. They see the newest state of the store,
or are in one and the same transaction. -/
structure Alike (d : Database) (x y : Session) : Prop where
  left : x.Regular d
  right : y.Regular d
  suspended : y.suspended = x.suspended
  transaction : x.outdated d ∨ y.outdated d → y.transaction = x.transaction

namespace Alike

theorem refl (h : x.Regular d) : Alike d x x := ⟨h, h, rfl, fun _ => rfl⟩

theorem of_idle (hsound : d.store.Sound) (hx : x.transaction = .idle) (hy : y.transaction = .idle)
    (hsusp : y.suspended = x.suspended) : Alike d x y :=
  ⟨regular_of_idle hsound hx, regular_of_idle hsound hy, hsusp, fun _ => hy.trans hx.symm⟩

/-- Alike sessions stay alike while the lock changes hands: the database may become later as long as
its revision, by which old views are known, is the same. -/
theorem later (h : Alike d x y) (hsound : d'.store.Sound) (hprecedes : d.Precedes d')
    (hrevision : d'.revision = d.revision) : Alike d' x y := by
  have hsame : ∀ z : Session, z.outdated d' = z.outdated d := fun z => by
    unfold outdated
    rw [hrevision]
  refine ⟨h.left.later hprecedes hsound, h.right.later hprecedes hsound, h.suspended, fun hold => ?_⟩
  rw [hsame, hsame] at hold
  exact h.transaction hold

/-- Alike sessions see an old state of the store together or not at all. -/
theorem outdated (h : Alike d x y) : y.outdated d = x.outdated d := by
  by_cases hold : x.outdated d ∨ y.outdated d
  · unfold Session.outdated
    rw [h.transaction hold]
  · rw [not_or, Bool.not_eq_true, Bool.not_eq_true] at hold
    rw [hold.1, hold.2]

/-- Sessions that go on reading stay alike: either both keep their common transaction, or both see
the newest state. -/
theorem continues (h : Alike d x y) (hx : Continues d x x') (hy : Continues d y y')
    (hx' : x'.Regular d) (hy' : y'.Regular d) : Alike d x' y' := by
  refine ⟨hx', hy', ?_, fun hold => ?_⟩
  · rw [hy.suspended, hx.suspended, h.suspended]
  · rw [hx.outdated, hy.outdated] at hold
    have hsame := h.transaction hold
    rw [h.outdated, or_self] at hold
    rw [hy.kept (h.outdated.trans hold), hx.kept hold, hsame]

theorem writeRefusal? (h : Alike d x y) : y.writeRefusal? d = x.writeRefusal? d := by
  rw [Session.writeRefusal?, h.outdated, Session.writeRefusal?]

/-- Both see the same rows. So whatever an operation reads off its view is the same for both. -/
theorem view (h : Alike d x y) (locked : Bool) :
    (y.view d).setLocked locked = (x.view d).setLocked locked := by
  by_cases hold : x.outdated d ∨ y.outdated d
  · unfold Session.view
    rw [h.transaction hold]
  · rw [not_or, Bool.not_eq_true, Bool.not_eq_true] at hold
    -- both are the newest state, up to the lock
    have hsame : (y.view d).setLocked d.store.locked = (x.view d).setLocked d.store.locked :=
      (h.right.view_eq hold.2).trans (h.left.view_eq hold.1).symm
    have hlocked := congrArg (Store.setLocked · locked) hsame
    exact hlocked

theorem refRows (h : Alike d x y) : (y.view d).refRows = (x.view d).refRows := by
  have hrows := congrArg Store.refRows (h.view false)
  exact hrows

theorem objectRows (h : Alike d x y) : (y.view d).objectRows = (x.view d).objectRows := by
  have hrows := congrArg Store.objectRows (h.view false)
  exact hrows

end Alike

end Session

/-- Alike sessions may take these steps: they end alike, with the same result and database. -/
structure Step.Alike {α : Type} (s t : Step α) : Prop where
  result : t.result = s.result
  database : t.database = s.database
  sessions : Session.Alike s.database s.session t.session

theorem Step.Alike.map {α β : Type} {s t : Step α} (h : s.Alike t) (f : α → β) :
    (s.map f).Alike (t.map f) :=
  ⟨congrArg (Except.map f) h.result, h.database, h.sessions⟩

namespace Session

variable {x y x' y' : Session} {d d' : Database} {query : Query} {α : Type}

theorem alike_fail (h : Alike d x y) (f : Failure) :
    (Step.fail x d f : Step α).Alike (.fail y d f) := ⟨rfl, rfl, h⟩

theorem alike_ok (h : Alike d x y) (a : α) : (Step.ok x d a).Alike (.ok y d a) := ⟨rfl, rfl, h⟩

theorem alike_suspend (h : Alike d x y) (x' y' : Session) (cause : Foreign) :
    (Step.suspend x' d cause : Step α).Alike (.suspend y' d cause) :=
  ⟨rfl, rfl, .of_idle h.left.store rfl rfl rfl⟩

theorem alike_ended (h : Alike d x y) (hsound : d'.store.Sound) (a : α) :
    (Step.ok x.ended d' a).Alike (.ok y.ended d' a) :=
  ⟨rfl, rfl, .of_idle hsound rfl rfl h.suspended⟩

/-- Two sessions whose changes are taken back are alike, whatever they have been before: both are
awake and have no transaction. -/
theorem alike_takenBack (hsound : d'.store.Sound) (x y : Session) (result : Except Failure α) :
    (⟨result, x.takenBack, d'⟩ : Step α).Alike ⟨result, y.takenBack, d'⟩ :=
  ⟨rfl, rfl, .of_idle hsound rfl rfl rfl⟩

/-- The check of a text is the same for both sessions, so only the operation behind it has to end
alike. -/
theorem alike_ifEncodable {t : Text} {s s' : Step α} (h : Alike d x y) (hs : s.Alike s') :
    (x.ifEncodable d t s).Alike (y.ifEncodable d t s') := by
  unfold ifEncodable
  split
  · exact alike_fail h _
  · exact hs

namespace Alike

/-- Both sessions can compile the query, although one of them may have compiled it before and the
other not. They stay alike. -/
theorem compile (h : Alike d x y) (query : Query) :
    ∃ x' y', x.compile d query = (x', none) ∧ y.compile d query = (y', none) ∧
      x'.suspended = x.suspended ∧ Alike d x' y' := by
  obtain ⟨x', hx, hcx, hrx⟩ := h.left.compile query
  obtain ⟨y', hy, hcy, hry⟩ := h.right.compile query
  exact ⟨x', y', hx, hy, hcx.suspended, h.continues hcx hcy (h.left.continues hcx (.inr hrx))
    (h.right.continues hcy (.inr hry))⟩

/-- Both sessions can run the query, and stay alike. -/
theorem read (h : Alike d x y) (query : Query) :
    ∃ x' y', x.read d query = (x', none) ∧ y.read d query = (y', none) ∧ Alike d x' y' := by
  obtain ⟨x', hx, hcx, hrx⟩ := h.left.read query
  obtain ⟨y', hy, hcy, hry⟩ := h.right.read query
  exact ⟨x', y', hx, hy, h.continues hcx hcy (h.left.continues hcx (.inl hrx))
    (h.right.continues hcy (.inl hry))⟩

/-- Alike sessions that are awake may begin their transactions. If one of them was in a transaction
with an old view, so was the other, and neither begins a new one. -/
theorem begin (h : Alike d x y) (hawake : x.suspended = false) : Alike d x.begin y.begin := by
  refine ⟨h.left.begin hawake, h.right.begin (h.suspended.trans hawake), ?_, fun hold => ?_⟩
  · rw [suspended_begin, suspended_begin, h.suspended]
  · rw [outdated_begin, outdated_begin] at hold
    have hsame := h.transaction hold
    by_cases hidle : x.transaction = .idle
    · rw [begin_of_idle hidle, begin_of_idle (hsame.trans hidle)]
    · rw [begin_of_open hidle, begin_of_open (hsame ▸ hidle)]
      exact hsame

end Alike

/-- An operation that begins by reading a table ends alike in alike sessions, if what it does with
the rows does. -/
theorem alike_reading {operation : Session → Store → Step α} (h : Alike d x y)
    (refusal : Option DbError) (query : Query)
    (hop : ∀ x' y', Alike d x' y' → (operation x' (x'.view d)).Alike (operation y' (y'.view d))) :
    (x.reading refusal d query operation).Alike (y.reading refusal d query operation) := by
  obtain ⟨x', y', hx, hy, h'⟩ := h.read query
  unfold reading
  rw [hx, hy, h.suspended]
  split
  · exact alike_fail h _
  · split
    · exact alike_fail h _
    · exact hop x' y' h'

/-- Alike sessions list the same references, or fail to do so in the same way, and stay alike. -/
theorem alike_listing (h : Alike d x y) (refusals : Refusals) :
    (y.listing refusals d).1 = (x.listing refusals d).1 ∧
      Alike d (x.listing refusals d).2 (y.listing refusals d).2 := by
  obtain ⟨x', y', hx, hy, h'⟩ := h.read .references
  unfold listing
  rw [hx, hy, h.suspended]
  split
  · exact ⟨rfl, h⟩
  · split
    · exact ⟨rfl, h⟩
    · dsimp only
      exact ⟨by rw [h'.refRows], h'⟩

/-- A reference is looked up among rows that are the same for both. -/
theorem alike_lookup (h : Alike d x y) (refusals : Refusals) (name : Text) :
    (x.lookup refusals d name).Alike (y.lookup refusals d name) := by
  refine alike_reading h _ _ fun x' y' h' => alike_ifEncodable h' ?_
  unfold Store.refRow?
  rw [h'.refRows]
  exact alike_ok h' _

/-- Objects are counted in rows that are the same for both. -/
theorem alike_countObjects (h : Alike d x y) (refusals : Refusals) :
    (x.countObjects refusals d).Alike (y.countObjects refusals d) := by
  refine alike_reading h _ _ fun x' y' h' => ?_
  rw [h'.objectRows]
  exact alike_ok h' _

/-- Storing an object ends alike: both sessions hold the key or neither does, the same stands
against writing, and either end of the operation takes both out of their transactions. -/
theorem alike_writeObject (h : Alike d x y) (refusals : Refusals) (kind : Text) (payload : Bytes)
    (links : List Text) :
    (x.writeObject refusals d kind payload links).Alike
      (y.writeObject refusals d kind payload links) := by
  refine alike_ifEncodable h (alike_reading h _ _ fun x' y' h' => ?_)
  -- both views have the same objects, so the key is new to both or to neither
  have hheld : ∀ key, (y'.view d).holds key = (x'.view d).holds key := fun key => by
    rw [Store.holds, h'.objectRows, Store.holds]
  dsimp only
  rw [hheld, h'.writeRefusal?]
  split
  · exact alike_ended h' h.left.store _
  · split
    · exact alike_suspend h' _ _ _
    · exact alike_ended h' (h.left.store.withObject kind payload _) _

/-- Moving a reference ends alike. The cases are those of the operation: a refused name, a reference
that points there already, and the steps of writing, each of which ends the transaction whether it
is refused or not. -/
theorem alike_updateReference (h : Alike d x y) (refusals : Refusals) (name target : Text) :
    (x.updateReference refusals d name target).Alike (y.updateReference refusals d name target) := by
  unfold updateReference
  split
  · exact alike_fail h _
  next parsed hparse =>
    refine alike_reading h _ _ fun x' y' h' => alike_ifEncodable h' ?_
    -- both views have the same references
    have hrow : (y'.view d).refRow? name = (x'.view d).refRow? name := by
      rw [Store.refRow?, h'.refRows, Store.refRow?]
    dsimp only
    rw [hrow]
    split
    · exact alike_ended h' h.left.store _
    · -- compiling never fails here, and what follows ends the transaction in any case
      obtain ⟨x₁, y₁, hx, hy, -, h₁⟩ :=
        h'.compile (if ((x'.view d).refRow? name).isSome then .move else .add)
      rw [hx, hy]
      dsimp only
      split
      · exact alike_suspend h _ _ _
      · obtain ⟨x₂, hx, hcx⟩ :=
          h₁.left.reach (if ((x'.view d).refRow? name).isSome then .move else .add)
        obtain ⟨y₂, hy, hcy⟩ :=
          h₁.right.reach (if ((x'.view d).refRow? name).isSome then .move else .add)
        rw [hx, hy, h₁.writeRefusal?]
        cases x₁.writeRefusal? d with
        | some e => exact alike_suspend h _ _ _
        | none =>
          dsimp only
          split
          · exact alike_suspend h _ _ _
          next htarget =>
            have hsusp : y₂.suspended = x₂.suspended := by
              rw [hcy.suspended, hcx.suspended, h₁.suspended]
            have hheld : d.store.holds target := by
              by_contra hnot
              rw [Store.targetRefusal?, if_neg hnot] at htarget
              cases htarget
            exact ⟨rfl, rfl, .of_idle (h.left.store.withRef hparse hheld) rfl rfl hsusp⟩

/-- Deleting a reference ends alike. All its ends but one take the session back; the one that does
not is a name that cannot be stored, found after the transaction has begun. -/
theorem alike_deleteReference (h : Alike d x y) (refusals : Refusals) (name : Text) :
    (x.deleteReference refusals d name).Alike (y.deleteReference refusals d name) := by
  -- any two sessions that are taken back are alike, so `reach` may leave them as it likes
  have hback : ∀ (x' y' : Session) (result : Except Failure Unit),
      (⟨result, x'.takenBack, d⟩ : Step Unit).Alike ⟨result, y'.takenBack, d⟩ :=
    alike_takenBack h.left.store
  obtain ⟨x₁, y₁, hx, hy, hsusp, h₁⟩ := h.compile .remove
  unfold deleteReference unlessSuspended
  rw [hx, hy, h.suspended]
  split
  · exact hback _ _ _
  · split
    · exact alike_fail h _
    next hawake =>
      have h₂ := h₁.begin (hsusp.trans (Bool.not_eq_true _ ▸ hawake))
      dsimp only
      rw [h₁.left.begin_unrefused, h₁.right.begin_unrefused]
      cases name.strayRun? with
      | some run => exact alike_fail h₂ _
      | none =>
        obtain ⟨x₂, hx, -⟩ := h₂.left.reach .remove
        obtain ⟨y₂, hy, -⟩ := h₂.right.reach .remove
        dsimp only
        rw [hx, hy, h₂.writeRefusal?]
        cases x₁.begin.writeRefusal? d with
        | some e => exact hback _ _ _
        | none =>
          dsimp only
          split
          · exact hback _ _ _
          · split
            · exact alike_takenBack (h.left.store.withoutRef name) _ _ _
            · exact hback _ _ _

/-- Alike sessions read a list of tables up to the same refusal, if there is one, and stay alike; by
induction on the list. -/
theorem Alike.readAll (h : Alike d x y) (refusals : Refusals) (plan : List (Statement × Query)) :
    ∃ x' y' refusal, x.readAll refusals d plan = (x', refusal) ∧
      y.readAll refusals d plan = (y', refusal) ∧ Alike d x' y' := by
  -- over all pairs of alike sessions, since each statement that is read leaves another pair
  induction plan generalizing x y with
  | nil => exact ⟨x, y, none, rfl, rfl, h⟩
  | cons step rest ih =>
    obtain ⟨statement, query⟩ := step
    obtain ⟨x', y', hx, hy, h'⟩ := h.read query
    unfold Session.readAll
    rw [hx, hy]
    cases refusals statement with
    | some e => exact ⟨x, y, some e, rfl, rfl, h⟩
    | none => exact ih h'

/-- Compacting ends alike. Session by session the steps differ in what is compiled and expired, so
the results are compared first, and the sessions then by what a compaction leaves of any session. -/
theorem alike_compact (h : Alike d x y) (refusals : Refusals) :
    (x.compact refusals d).Alike (y.compact refusals d) := by
  obtain ⟨x', y', refusal, hx, hy, h'⟩ := h.readAll refusals
    [(.readObjects, .keys), (.readLinks, .links), (.readTargets, .targets)]
  -- what is swept is the same store in both, whoever they think holds the lock
  have hswept : ({ y'.view d with locked := d.store.locked || y'.outdated d } : Store) =
      { x'.view d with locked := d.store.locked || x'.outdated d } := by
    rw [h'.outdated]
    exact h'.view _
  have hsame : (y.compact refusals d).result = (x.compact refusals d).result ∧
      (y.compact refusals d).database = (x.compact refusals d).database := by
    unfold compact unlessSuspended
    rw [hx, hy, h.suspended]
    split
    · exact ⟨rfl, rfl⟩
    · split
      · exact ⟨rfl, rfl⟩
      · cases refusal with
        | some e => exact ⟨rfl, rfl⟩
        | none =>
          dsimp only
          rw [hswept]
          generalize ({ x'.view d with locked := d.store.locked || x'.outdated d } : Store) = s
          cases s.sweepAll refusals s.unreachable with
          | error e => exact ⟨rfl, rfl⟩
          | ok swept =>
            dsimp only
            generalize (if s.unreachable = [] then d
              else d.commit { swept with locked := d.store.locked }) = after
            cases after.store.tidy? refusals <;> exact ⟨rfl, rfl⟩
  -- the sessions themselves need no look at what was swept: an awake one is at rest afterwards
  cases hsusp : x.suspended with
  | true =>
    unfold compact unlessSuspended
    rw [h.suspended, hsusp]
    split
    · exact alike_takenBack h.left.store _ _ _
    · exact alike_fail h _
  | false =>
    have hrest : ∀ {z : Session}, z.Orderly d → z.suspended = false →
        (z.compact refusals d).session.AtRest := by
      intro z hz hawake
      obtain ⟨hsusp, -⟩ | ⟨hrest, -⟩ := compact_leaves hz refusals
      · cases hawake.symm.trans hsusp
      · exact hrest
    have hx := hrest h.left.toOrderly hsusp
    have hy := hrest h.right.toOrderly (h.suspended.trans hsusp)
    have hsound := (proper_compact h.left.toOrderly refusals).orderly.store
    exact ⟨hsame.1, hsame.2, .of_idle hsound hx.idle hy.idle (hy.awake.trans hx.awake.symm)⟩

/-- Whatever alike sessions are asked, their answers are the same and so is the database after it,
and they stay alike. -/
theorem alike_perform (h : Alike d x y) (refusals : Refusals) (request : Request) :
    (x.perform refusals d request).Alike (y.perform refusals d request) := by
  cases request with
  | list =>
    obtain ⟨hlisting, hlisted⟩ := alike_listing h refusals
    exact ⟨congrArg (fun l => Except.ok (Reply.listed l)) hlisting, rfl, hlisted⟩
  | lookup name => exact (alike_lookup h refusals name).map _
  | count => exact (alike_countObjects h refusals).map _
  | write kind payload links => exact (alike_writeObject h refusals kind payload links).map _
  | update name target => exact (alike_updateReference h refusals name target).map _
  | delete name => exact (alike_deleteReference h refusals name).map _
  | compact => exact (alike_compact h refusals).map _
  | close => exact alike_ok (.of_idle h.left.store rfl rfl rfl) _

/-! ## Conversations -/

/-- One request of a conversation, with who holds the lock and what the database refuses meanwhile.
-/
structure Round where
  locked : Bool
  refusals : Refusals
  request : Request

/-- The answers to the requests, each with the store that it leaves. -/
def converse (x : Session) (d : Database) : List Round → List (Except Failure Reply × Store)
  | [] => []
  | round :: rest =>
    let step := x.perform round.refusals (d.setLocked round.locked) round.request
    (step.result, step.database.store) :: converse step.session step.database rest

/-- Alike sessions give the same answers, and leave the same stores, in every conversation, whoever
holds the lock and whatever the database refuses meanwhile. -/
theorem Alike.converse (h : Alike d x y) (rounds : List Round) :
    y.converse d rounds = x.converse d rounds := by
  -- over all pairs of alike sessions and all databases: a round changes both
  induction rounds generalizing x y d with
  | nil => rfl
  | cons round rest ih =>
    -- the lock is in no view, so changing it keeps the sessions alike
    have hlocked : Alike (d.setLocked round.locked) x y :=
      h.later (h.left.store.setLocked round.locked) (.setLocked d round.locked) rfl
    have hstep := alike_perform hlocked round.refusals round.request
    unfold Session.converse
    dsimp only
    rw [hstep.result, hstep.database, ih hstep.sessions]

/-- A regular session is regular after every request, which is what a session being alike to itself
comes to. -/
theorem Regular.perform (h : x.Regular d) (refusals : Refusals) (request : Request) :
    (x.perform refusals d request).session.Regular (x.perform refusals d request).database :=
  (alike_perform (.refl h) refusals request).sessions.left

end Session

end RefSweep
