import RefSweep.Proofs.Digest
import RefSweep.Proofs.Store.Change
import RefSweep.Proofs.Store.Shared

/-!
# Which object a key stands for

An object whose key is stored already is not written. What is stored under its key need not be this
object, even where no two byte sequences share a digest: the same bytes are hashed for an object
whose kind begins with the header of the stored one, or the other way round. Sessions store kinds of
characters only (`Spelled`), so nothing else can take the place of an object. Main statement:
`identity_of_written`.
-/

namespace RefSweep

/-- The kinds of the stored objects are of characters. -/
def Store.Spelled (s : Store) : Prop := ∀ o ∈ s.objectRows, o.kind.strayRun? = none

namespace Session

variable {x y : Session} {d : Database} {α : Type}

/-! ## The view of a session -/

/-- A view that `y` has taken is the one of `x`, or the database. -/
def Views (d : Database) (x y : Session) : Prop :=
  ∀ view, y.transaction = .reading view → x.transaction = .reading view ∨ view = d

theorem views_of_idle (hidle : y.transaction = .idle) : Views d x y := fun view hview => by
  cases hidle.symm.trans hview

/-- A view that is taken while a session goes on is the database itself. -/
theorem Continues.views (hc : Continues d x y) : Views d x y := by
  intro view hview
  rcases hc.transaction with hsame | ⟨-, hnew⟩
  · exact .inl (hsame.symm.trans hview)
  · exact .inr (Transaction.reading.inj (hview.symm.trans hnew))

/-- Beginning a transaction takes no view yet. -/
theorem Views.begin (h : Views d x y) : Views d x y.begin := by
  unfold Session.begin
  split
  · exact fun view hview => by cases hview
  · exact h

/-- An operation that begins by reading a table takes no other view, if what it does with the rows
takes none. -/
theorem views_reading {query : Query} {operation : Session → Store → Step α}
    (refusal : Option DbError)
    (hop : ∀ y, Continues d x y → Views d x (operation y (y.view d)).session) :
    Views d x (x.reading refusal d query operation).session := by
  have hread := continues_read x d query
  unfold reading
  split
  · exact (Continues.refl d x).views
  · split
    · exact (Continues.refl d x).views
    · split
      -- whether it is refused or goes on, the session has at most begun to read
      next y e heq =>
        rw [heq] at hread
        exact hread.views
      next y heq =>
        rw [heq] at hread
        exact hop y hread

end Session

namespace Step

variable {x : Session} {d : Database} {α : Type}

/-- Storing an object or moving a reference leaves the view alone, takes the newest one, or ends the
transaction. -/
theorem Writing.views {passes : Prop} {stores : Store → Prop} {value : α} {step : Step α}
    (h : step.Writing x d passes stores value) : Session.Views d x step.session := by
  cases h with
  | stopped continues => exact continues.views
  | refused | unchanged | committed => exact Session.views_of_idle rfl

/-- So does deleting a reference. -/
theorem Deleting.views {refused : Prop} {name : Text} {step : Step Unit}
    (h : step.Deleting x d refused name) : Session.Views d x step.session := by
  cases h with
  | pending => exact (Session.Continues.refl d x).views
  | takenBack | committed => exact Session.views_of_idle rfl
  | begun continues => exact continues.views.begin

end Step

namespace Session

variable {x : Session} {d : Database}

/-- A request takes no other view than that of the database: after it the session sees what it saw
before, or the rows the request has found. -/
theorem views_perform (h : x.Regular d) (refusals : Refusals) (request : Request) :
    Views d x (x.perform refusals d request).session := by
  -- one case per request: reading goes on, writing and deleting are read off what can come of them
  cases request with
  | list => exact (continues_listing refusals x d).views
  | lookup name =>
    refine views_reading _ fun y hc => ?_
    unfold ifEncodable
    split <;> exact hc.views
  | count => exact views_reading _ fun y hc => hc.views
  | write kind payload links => exact (writing_writeObject h refusals kind payload links).views
  | update name target => exact (writing_updateReference h refusals name target).views
  | delete name => exact (deleting_deleteReference h refusals name).views
  | compact =>
    show Views d x (x.compact refusals d).session
    obtain ⟨-, f, hfail⟩ | ⟨hrest, -⟩ := compact_leaves h.toOrderly refusals
    · rw [hfail]
      exact (Continues.refl d x).views
    · exact views_of_idle hrest.idle
  | close => exact views_of_idle rfl

/-! ## What is stored -/

/-- A successful call gives the key of its object. Whether this is stored is decided by what the
session sees. -/
theorem writeObject_of_ok (h : x.Regular d) {refusals : Refusals} {kind : Text} {payload : Bytes}
    {links : List Text} {key : Text}
    (hok : (x.writeObject refusals d kind payload links).result = .ok key) :
    kind.strayRun? = none ∧ key = Digest.key kind payload ∧
      (x.writeObject refusals d kind payload links).database =
        if (x.view d).holds key then d
        else d.commit (d.store.withObject ⟨key, kind, payload⟩ links.eraseDups) := by
  obtain ⟨y, hread, hc, -⟩ := h.read .object
  revert hok
  unfold writeObject ifEncodable reading
  rw [hread]
  split
  · -- every failure before the decision contradicts the success
    exact nofun
  next hkind =>
    split
    · exact nofun
    · split
      · exact nofun
      · dsimp only
        rw [hc.view_eq]
        split
        -- the session saw the key: nothing is written
        next hheld =>
          intro hok
          obtain rfl := Except.ok.inj hok
          exact ⟨hkind, rfl, (if_pos hheld).symm⟩
        -- it did not: the object is added, if the database lets it
        next hnew =>
          split
          · exact nofun
          · intro hok
            obtain rfl := Except.ok.inj hok
            exact ⟨hkind, rfl, (if_neg hnew).symm⟩

end Session

namespace Store

variable {s : Store}

/-- An object whose kind is of characters can be added to others of that sort. -/
theorem Spelled.withObject (h : s.Spelled) (htables : s.missingTables = []) {row : ObjectRow}
    (hrow : row.kind.strayRun? = none) (targets : List Text) :
    (s.withObject row targets).Spelled := by
  intro o ho
  rw [objectRows_withObject (has_of_missingTables htables .objects), List.mem_append,
    List.mem_singleton] at ho
  obtain ho | rfl := ho
  · exact h o ho
  · exact hrow

/-- Collecting the garbage leaves some of the objects as they were. -/
theorem Spelled.collected (h : s.Spelled) : s.collected.Spelled := by
  intro o ho
  rw [objectRows_collected] at ho
  exact h o (List.mem_of_mem_filter ho)

end Store

namespace Session

variable {x : Session} {d : Database}

/-- No request makes a store hold a kind that is not of characters: the only one to store an object
looks at its kind first. -/
theorem spelled_perform (h : x.Regular d) (hspelled : d.store.Spelled) (refusals : Refusals)
    (request : Request) : (x.perform refusals d request).database.store.Spelled := by
  -- only writing adds an object
  have hcommits : ∀ {step : Step Unit} {s : Store}, step.Commits d (· = s) → s.Spelled →
      step.database.store.Spelled := fun hcommits hs => by
    obtain hsame | ⟨-, _, rfl, hcommit⟩ := hcommits
    · rw [hsame]
      exact hspelled
    · rw [hcommit]
      exact hs
  cases request with
  | list | close => exact hspelled
  | lookup name =>
    have hsame : (x.perform refusals d (.lookup name)).database = d := lookup_database refusals name
    rw [hsame]
    exact hspelled
  | count =>
    have hsame : (x.perform refusals d .count).database = d := countObjects_database refusals
    rw [hsame]
    exact hspelled
  | write kind payload links =>
    show (x.writeObject refusals d kind payload links).database.store.Spelled
    cases hresult : (x.writeObject refusals d kind payload links).result with
    | error f =>
      rw [(writing_writeObject h refusals kind payload links).commits.of_error hresult]
      exact hspelled
    | ok key =>
      obtain ⟨hkind, -, hdatabase⟩ := writeObject_of_ok h hresult
      rw [hdatabase]
      split
      · exact hspelled
      · exact hspelled.withObject h.store.tables hkind _
  | update name target =>
    exact hcommits (writing_updateReference h refusals name target).commits hspelled
  | delete name => exact hcommits (deleting_deleteReference h refusals name).commits hspelled
  | compact =>
    show (x.compact refusals d).database.store.Spelled
    obtain ⟨-, f, hfail⟩ | ⟨-, -, hsame | hcollected⟩ := compact_leaves h.toOrderly refusals
    · rw [hfail]
      exact hspelled
    · rw [hsame]
      exact hspelled
    · rw [hcollected]
      exact hspelled.collected

end Session

namespace Shared

variable {s : Shared} {d : Database}

/-- The objects of the database and those that a session sees have kinds of characters. -/
structure Spelled (s : Shared) : Prop where
  database : s.database.store.Spelled
  views : ∀ x ∈ s.sessions, ∀ view, x.transaction = .reading view → view.store.Spelled

theorem spelled_unused (h : d.store.Spelled) : (unused d).Spelled :=
  ⟨h, fun _ hx => absurd hx List.not_mem_nil⟩

/-- What a session sees holds no kinds but those of characters, be it old or new. -/
theorem Spelled.view (h : s.Spelled) {x : Session} (hx : x ∈ s.sessions) :
    (x.view s.database).Spelled := by
  unfold Session.view
  split
  next view hview => exact h.views x hx view hview
  · exact h.database

/-- Each turn keeps this: the database by what requests do to it, and the views because a new one is
taken of the database. -/
theorem Spelled.step (h : s.Spelled) (horder : s.InOrder) (turn : Turn) :
    (s.step turn).Spelled := by
  cases turn with
  | opens =>
    refine ⟨h.database, fun x hx view hview => ?_⟩
    rcases List.mem_append.1 hx with hx | hx
    · exact h.views x hx view hview
    · rw [List.mem_singleton.1 hx] at hview
      cases hview
  | locks locked => exact ⟨h.database, h.views⟩
  | asks i refusals request =>
    unfold Shared.step
    dsimp only
    cases hi : s.sessions[i]? with
    | none => exact h
    | some x =>
      have hmem := List.mem_of_getElem? hi
      have hx := horder.sessions x hmem
      refine ⟨Session.spelled_perform hx h.database refusals request,
        fun other hother view hview => ?_⟩
      rcases List.mem_or_eq_of_mem_set hother with hother | rfl
      · exact h.views other hother view hview
      · -- a view that was taken in this turn is the database before it
        obtain hold | rfl := Session.views_perform hx refusals request view hview
        · exact h.views x hmem view hold
        · exact h.database

/-- So does every history, by induction on its turns. -/
theorem Spelled.run (h : s.Spelled) (horder : s.InOrder) (turns : List Turn) :
    (s.run turns).Spelled := by
  induction turns generalizing s with
  | nil => exact h
  | cons turn rest ih => exact ih (h.step horder turn) (horder.step turn)

/-- An object is written in the middle of a history, and its key is given back. Among the objects
that are stored then, or that the session saw, those under this key are the object itself, the ones
that repeat it or that it repeats, and those whose digest collides with its own. If the session saw
one of them, the call has stored nothing. -/
theorem identity_of_written (hsound : d.store.Sound) (hspelled : d.store.Spelled)
    (before : List Turn) {i : Nat} {x : Session}
    (hx : ((unused d).run before).sessions[i]? = some x) (refusals : Refusals) (kind : Text)
    (payload : Bytes) (links : List Text) {key : Text}
    (hok : (x.perform refusals ((unused d).run before).database (.write kind payload links)).result =
      .ok (.written key)) :
    let found := (unused d).run before
    let written := found.step (.asks i refusals (.write kind payload links))
    let seen := x.view found.database
    (∀ (kind' : Text) (payload' : Bytes), kind'.strayRun? = none →
      (Digest.preimage kind' payload' = Digest.preimage kind payload ↔
        (kind' = kind ∧ payload' = payload) ∨ Digest.Repeats kind' payload' kind payload ∨
          Digest.Repeats kind payload kind' payload')) ∧
    (∀ o, o ∈ written.database.store.objectRows ∨ o ∈ seen.objectRows →
      (o.key = key ↔
        (o.kind = kind ∧ o.payload = payload) ∨ Digest.Repeats o.kind o.payload kind payload ∨
          Digest.Repeats kind payload o.kind o.payload ∨
            Digest.Collide o.kind o.payload kind payload)) ∧
    if seen.holds key then written.database = found.database
    else ⟨key, kind, payload⟩ ∈ written.database.store.objectRows := by
  intro found written seen
  -- the history before and the call itself keep the order and the digests
  have hfound : found.InOrder := (inOrder_unused hsound).run before
  have hwritten : written.InOrder := hfound.step _
  have hfoundSpelled : found.Spelled := (spelled_unused hspelled).run (inOrder_unused hsound) before
  have hwrittenSpelled : written.Spelled := hfoundSpelled.step hfound _
  have hmem := List.mem_of_getElem? hx
  have hregular := hfound.sessions x hmem
  have hresult : (x.writeObject refusals found.database kind payload links).result = .ok key :=
    Session.perform_write_eq_ok.1 hok
  obtain ⟨hkind, hkey, hstored⟩ := Session.writeObject_of_ok hregular hresult
  have hdatabase : written.database =
      (x.writeObject refusals found.database kind payload links).database := by
    show (found.step _).database = _
    unfold Shared.step
    dsimp only
    rw [hx]
    rfl
  refine ⟨fun kind' payload' hkind' => Digest.preimage_eq_iff hkind' hkind, fun o ho => ?_, ?_⟩
  · -- whether it is stored or seen, the object stands under its digest and has a kind of characters
    obtain ⟨hdigest, hcharacters⟩ :
        o.key = Digest.key o.kind o.payload ∧ o.kind.strayRun? = none := by
      obtain ho | ho := ho
      · exact ⟨hwritten.sound.digests o ho, hwrittenSpelled.database o ho⟩
      · exact ⟨hregular.view_sound.digests o ho, hfoundSpelled.view hmem o ho⟩
    rw [hdigest, hkey]
    exact Digest.key_eq_iff hcharacters hkind
  · rw [hdatabase, hstored]
    split
    · rfl
    · show _ ∈ (found.database.store.withObject _ _).objectRows
      rw [Store.objectRows_withObject (Store.has_of_missingTables hfound.sound.tables .objects)]
      exact List.mem_append_right _ (.head _)

/-! ## An object that is taken for another one -/

namespace Mistaken

/-- The payload of the first object is what would be hashed for an empty object of kind `b`. -/
def payload : Bytes := Digest.preimage "b" []

def first : Text := Digest.key "a" payload

/-- The kind of the second object begins with the header of the first one. -/
def kind : Text := Digest.header "a" 4 ++ "b"

def before : List Turn := [.opens, .asks 0 .none (.write "a" payload [])]

def found : Shared := (unused .created).run before

end Mistaken

open Mistaken in
/-- The second object is another one and was not stored before, but the call gives the key of the
first one and stores nothing. -/
theorem identity_of_written_taken :
    ∃ x, found.sessions[0]? = some x ∧
      (x.perform .none found.database (.write kind [] [])).result = .ok (.written first) ∧
      Digest.preimage kind [] = Digest.preimage "a" payload ∧ kind ≠ "a" ∧
      found.database.store.objectRows = [⟨first, "a", payload⟩] ∧
      (found.step (.asks 0 .none (.write kind [] []))).database = found.database := by
  -- the history is run once, for all that has to be read off it
  obtain ⟨hasked, hrows, hkind⟩ :
      (found.sessions[0]?.map fun x =>
        ((x.writeObject .none found.database kind [] []).result.toOption,
          (x.view found.database).objectRows)) =
          some (some first, [⟨first, "a", payload⟩]) ∧
      found.database.store.objectRows = [⟨first, "a", payload⟩] ∧ kind ≠ "a" := by
    decide +kernel
  obtain ⟨x, hx, hanswer⟩ := Option.map_eq_some_iff.1 hasked
  obtain ⟨hresult, hseen⟩ := Prod.mk.inj hanswer
  have hok : (x.perform .none found.database (.write kind [] [])).result =
      .ok (.written first) := Session.perform_write_eq_ok.2 (Step.toOption_result.1 hresult)
  obtain ⟨hpreimages, -, hstored⟩ := identity_of_written Database.sound_created
    (fun _ ho => absurd ho List.not_mem_nil) before hx .none kind [] [] hok
  -- the second object's kind contains the header and payload of the first
  have hrepeats : Digest.Repeats "a" payload kind [] := ⟨"b", rfl, rfl⟩
  have hheld : (x.view found.database).holds first := by
    rw [Store.holds, hseen]
    simp
  unfold found at hheld
  rw [if_pos hheld] at hstored
  exact ⟨x, hx, hok, ((hpreimages "a" payload rfl).2 (.inr (.inl hrepeats))).symm, hkind, hrows,
    hstored⟩

end Shared

end RefSweep
