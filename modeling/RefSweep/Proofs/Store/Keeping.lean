import Mathlib.Data.List.Infix
import RefSweep.Proofs.Store.Change
import RefSweep.Proofs.Store.Shared

/-!
# What becomes of the links of an object

The links of an object are those that the first writing of it gave. Writing it again adds none, and
nothing takes one away as long as the object stays. So a link to a stored object protects this for
as long as its source is reached, but a link that came with a second writing was never there. Main
statement: `links_of_written`.
-/

namespace RefSweep

namespace Store

variable {s t : Store}

/-- What was reached in `s` is still stored in `t`, and what is stored in both has the same links.
-/
structure Kept (s t : Store) : Prop where
  objects : ∀ key, s.holds key → s.Reaches key → t.holds key
  links : ∀ key, s.holds key → t.holds key →
    ∀ target, ⟨key, target⟩ ∈ t.linkRows ↔ ⟨key, target⟩ ∈ s.linkRows

theorem Kept.refl (s : Store) : Kept s s := ⟨fun _ hheld _ => hheld, fun _ _ _ _ => .rfl⟩

namespace Change

/-- Any change of a whole store keeps the objects the store holds. -/
theorem holds (h : s.Change t) (htables : s.missingTables = []) {key : Text}
    (hheld : s.holds key) : t.holds key := by
  cases h with
  | added row targets new =>
    rw [Store.holds, objectRows_withObject (has_of_missingTables htables .objects),
      List.any_append, Bool.or_eq_true]
    exact .inl hheld
  | moved name target => exact hheld
  | deleted name => exact hheld

/-- Any change of a whole store keeps the links of a stored object exactly: none is lost, and none
is added later. -/
theorem mem_linkRows (h : s.Change t) (htables : s.missingTables = []) {key target : Text}
    (hheld : s.holds key) : ⟨key, target⟩ ∈ t.linkRows ↔ ⟨key, target⟩ ∈ s.linkRows := by
  cases h with
  | added row targets new =>
    rw [linkRows_withObject (has_of_missingTables htables .links), List.mem_append]
    refine or_iff_left fun hnew => ?_
    -- the links that are added go out from the new object
    obtain ⟨_, -, hlink⟩ := List.mem_map.1 hnew
    have hkey : row.key = key := congrArg LinkRow.source hlink
    rw [hkey, hheld] at new
    cases new
  | moved name target => rfl
  | deleted name => rfl

/-- So a change keeps what the store protects, since the objects and the links that lead to them
stay. -/
theorem kept (h : s.Change t) (htables : s.missingTables = []) : Kept s t :=
  ⟨fun _ hheld _ => h.holds htables hheld, fun _ hheld _ _ => h.mem_linkRows htables hheld⟩

end Change

/-- A collection keeps what is protected as well: an object that a reference reaches is never
collected, and neither is a link between two such objects. -/
theorem kept_collected (h : s.ForeignKeys) : Kept s s.collected := by
  refine ⟨fun key hheld hreached => holds_collected.2 ⟨hheld, hreached⟩,
    fun key _ hstays target => ?_⟩
  rw [linkRows_collected h, List.mem_filter]
  exact and_iff_left hstays

/-- A link from a reached object protects what it leads to, and itself. -/
theorem Kept.protects (h : Kept s t) (hkeys : s.ForeignKeys) {key target : Text}
    (hlink : ⟨key, target⟩ ∈ s.linkRows) (htarget : s.holds target) (hreached : s.Reaches key) :
    ⟨key, target⟩ ∈ t.linkRows ∧ t.holds target := by
  have hheld : s.holds key := hkeys.links _ hlink
  have hstays : t.holds key := h.objects key hheld hreached
  exact ⟨(h.links key hheld hstays target).2 hlink, h.objects target htarget (.link hlink hreached)⟩

end Store

namespace Session

variable {x : Session} {d : Database}

/-- Every request a caller can make keeps what is protected, refused or carried out: only a
compaction removes objects, and it removes garbage. -/
theorem kept_perform (h : x.Regular d) (refusals : Refusals) (request : Request) :
    Store.Kept d.store (x.perform refusals d request).database.store := by
  -- a compaction removes, and only garbage; any other request changes one row at most
  by_cases hrequest : request = .compact
  · subst hrequest
    show Store.Kept d.store (x.compact refusals d).database.store
    obtain ⟨-, f, hfail⟩ | ⟨-, -, hsame | hcollected⟩ := compact_leaves h.toOrderly refusals
    · rw [hfail]
      exact .refl _
    · rw [hsame]
      exact .refl _
    · rw [hcollected]
      exact Store.kept_collected h.store.foreignKeys
  · obtain hsame | ⟨-, s, hchange, hcommit⟩ := perform_changes h refusals request hrequest
    · rw [hsame]
      exact .refl _
    · rw [hcommit]
      exact hchange.kept h.store.tables

/-- An object that was there already has the links that it had; a new one has those that it was
given. The latter is all that a session can say that sees an old state of the store: what it takes
to be there need not be there. -/
theorem mem_linkRows_written (h : x.Regular d) {refusals : Refusals} {kind : Text} {payload : Bytes}
    {links : List Text} {key : Text}
    (hok : (x.writeObject refusals d kind payload links).result = .ok key)
    (hstored : (x.writeObject refusals d kind payload links).database.store.holds key)
    (target : Text) :
    ⟨key, target⟩ ∈ (x.writeObject refusals d kind payload links).database.store.linkRows ↔
      if d.store.holds key then ⟨key, target⟩ ∈ d.store.linkRows else target ∈ links := by
  have hwriting := writing_writeObject h refusals kind payload links
  generalize x.writeObject refusals d kind payload links = step at hok hstored hwriting ⊢
  cases hwriting with
  | stopped | refused => cases hok
  | unchanged =>
    -- the view holds the object, and the store does by hypothesis
    have hheld : d.store.holds key := hstored
    rw [if_pos hheld]
    rfl
  | committed _ allowed =>
    obtain ⟨hnew, rfl⟩ := allowed
    obtain rfl := Except.ok.inj hok
    rw [hnew, if_neg Bool.false_ne_true]
    show _ ∈ (d.store.withObject _ _).linkRows ↔ _
    rw [Store.linkRows_withObject (Store.has_of_missingTables h.store.tables .links),
      List.mem_append, List.mem_map]
    constructor
    · rintro (hold | ⟨other, hother, hlink⟩)
      · -- nothing links from an object that is not there
        have hheld := h.store.foreignKeys.links _ hold
        rw [hnew] at hheld
        cases hheld
      · obtain rfl : other = target := congrArg LinkRow.target hlink
        exact List.mem_eraseDups.1 hother
    · exact fun hmem => .inr ⟨target, List.mem_eraseDups.2 hmem, rfl⟩

end Session

namespace Shared

variable {s : Shared} {d : Database}

/-- So does every turn of a program whose turns are in order, the runs of pruning and the locks of
others included. -/
theorem InOrder.kept (h : s.InOrder) (turn : Turn) :
    Store.Kept s.database.store (s.step turn).database.store := by
  obtain hsame | ⟨x, hx, -, refusals, request, -, hstep⟩ | ⟨locked, hlocked⟩ :=
    step_database s turn
  · rw [hsame]
    exact .refl _
  · rw [hstep]
    exact Session.kept_perform (h.sessions x hx) refusals request
  · rw [hlocked]
    exact ⟨fun _ hheld _ => hheld, fun _ _ _ _ => .rfl⟩

/-- The store has a property now and after each of the turns. -/
def Throughout (s : Shared) (turns : List Turn) (P : Store → Prop) : Prop :=
  ∀ mid, mid <+: turns → P (s.run mid).database.store

namespace Throughout

variable {turn : Turn} {rest turns : List Turn} {P : Store → Prop}

theorem now (h : s.Throughout turns P) : P s.database.store := h [] List.nil_prefix

/-- What holds throughout a stretch of turns holds throughout the rest of it, from the state the
first turn leaves. -/
theorem next (h : s.Throughout (turn :: rest) P) : (s.step turn).Throughout rest P :=
  fun mid hmid => h (turn :: mid) (List.cons_prefix_cons.2 ⟨rfl, hmid⟩)

end Throughout

/-- An object that stays keeps its links. -/
theorem InOrder.mem_linkRows_run (h : s.InOrder) {turns : List Turn} {key : Text}
    (hstays : s.Throughout turns (·.holds key)) (target : Text) :
    ⟨key, target⟩ ∈ (s.run turns).database.store.linkRows ↔
      ⟨key, target⟩ ∈ s.database.store.linkRows := by
  induction turns generalizing s with
  | nil => rfl
  | cons turn rest ih =>
    have hkept := (h.kept turn).links key hstays.now hstays.next.now target
    exact (ih (h.step turn) hstays.next).trans hkept

/-- What a link leads to stays as long as the source of the link is reached. -/
theorem InOrder.protected_run (h : s.InOrder) {turns : List Turn} {key target : Text}
    (hreached : s.Throughout turns (·.Reaches key))
    (hlink : ⟨key, target⟩ ∈ s.database.store.linkRows) (htarget : s.database.store.holds target) :
    (s.run turns).database.store.holds target := by
  -- what a turn has to keep is the link, what it leads to, and that references reach its source
  induction turns generalizing s with
  | nil => exact htarget
  | cons turn rest ih =>
    obtain ⟨hlink', htarget'⟩ :=
      (h.kept turn).protects h.sound.foreignKeys hlink htarget hreached.now
    exact ih (h.step turn) hreached.next hlink' htarget'

/-- An object is written in the middle of a history, and its key is given back. As long as it stays
it has the links of this call if it was new, and otherwise those that it had before, so that the
links of this call are lost. The links that it has protect what they lead to as long as references
reach it. -/
theorem links_of_written (hsound : d.store.Sound) (before after : List Turn) {i : Nat} {x : Session}
    (hx : ((unused d).run before).sessions[i]? = some x) (refusals : Refusals) (kind : Text)
    (payload : Bytes) (links : List Text) {key : Text}
    (hok : (x.perform refusals ((unused d).run before).database (.write kind payload links)).result =
      .ok (.written key)) :
    let found := (unused d).run before
    let written := found.step (.asks i refusals (.write kind payload links))
    let last := written.run after
    (written.Throughout after (·.holds key) → ∀ target,
      ⟨key, target⟩ ∈ last.database.store.linkRows ↔
        if found.database.store.holds key then ⟨key, target⟩ ∈ found.database.store.linkRows
        else target ∈ links) ∧
    (written.Throughout after (·.Reaches key) → ∀ target,
      ⟨key, target⟩ ∈ written.database.store.linkRows → written.database.store.holds target →
        last.database.store.holds target) := by
  intro found written last
  have hfound : found.InOrder := (inOrder_unused hsound).run before
  have hwritten : written.InOrder := hfound.step _
  refine ⟨fun hstays target => ?_, fun hreached target hlink htarget =>
    hwritten.protected_run hreached hlink htarget⟩
  have hregular := hfound.sessions x (List.mem_of_getElem? hx)
  -- the turn of this session is the call itself
  have hdatabase : written.database =
      (x.writeObject refusals found.database kind payload links).database := by
    show (found.step _).database = _
    unfold step
    dsimp only
    rw [hx]
    rfl
  have hkey : (x.writeObject refusals found.database kind payload links).result = .ok key :=
    Session.perform_write_eq_ok.1 hok
  -- the links are decided when the object is written, and no later turn changes them
  have hstored := hstays.now
  rw [hdatabase] at hstored
  rw [hwritten.mem_linkRows_run hstays, hdatabase]
  exact Session.mem_linkRows_written hregular hkey hstored target

/-! ## A history in which links are lost -/

namespace Relinked

def leaf : Text := Digest.key "blob" []

def root : Text := Digest.key "commit" []

/-- Two objects are stored, neither of them with a link. -/
def before : List Turn :=
  [.opens, .asks 0 .none (.write "blob" [] []), .asks 0 .none (.write "commit" [] [])]

/-- A reference is pointed at the second one, and the store is compacted. -/
def after : List Turn := [.asks 0 .none (.update "refs/heads/main" root), .asks 0 .none .compact]

def found : Shared := (unused .created).run before

/-- In between the second one was written again, with a link to the first. -/
def written : Shared := found.step (.asks 0 .none (.write "commit" [] [leaf]))

end Relinked

open Relinked in
/-- The call gives the key of its object back, and the object stays and is reached in the end. But
the link that the call was given is not there, and what it leads to is collected. -/
theorem links_of_written_again :
    ∃ x, found.sessions[0]? = some x ∧
      (x.perform .none found.database (.write "commit" [] [leaf])).result = .ok (.written root) ∧
      written.Throughout after (·.holds root) ∧
      ⟨root, leaf⟩ ∉ (written.run after).database.store.linkRows ∧
      (written.run after).database.store.Reaches root ∧
      written.database.store.holds leaf ∧ ¬ (written.run after).database.store.holds leaf := by
  -- what the history computes to, as far as the general statement has to know it
  obtain ⟨hasked, hinits, hheld, hnone, hreached, hleaf, hgone⟩ :
      (found.sessions[0]?.map fun x =>
        (x.writeObject .none found.database "commit" [] [leaf]).result.toOption) =
          some (some root) ∧
      (∀ mid ∈ after.inits, (written.run mid).database.store.holds root) ∧
      found.database.store.holds root ∧ found.database.store.linkRows = [] ∧
      (written.run after).database.store.Reaches root ∧ written.database.store.holds leaf ∧
      ¬ (written.run after).database.store.holds leaf := by
    decide +kernel
  obtain ⟨x, hx, hanswer⟩ := Option.map_eq_some_iff.1 hasked
  have hok : (x.perform .none found.database (.write "commit" [] [leaf])).result =
      .ok (.written root) := Session.perform_write_eq_ok.2 (Step.toOption_result.1 hanswer)
  have hstays : written.Throughout after (·.holds root) := fun mid hmid =>
    hinits mid ((List.mem_inits _ _).2 hmid)
  have hlinks := (links_of_written Database.sound_created before after hx .none "commit" []
    [leaf] hok).1 hstays leaf
  refine ⟨x, hx, hok, hstays, fun hmem => ?_, hreached, hleaf, hgone⟩
  have hold : if found.database.store.holds root then
      (⟨root, leaf⟩ : LinkRow) ∈ found.database.store.linkRows else leaf ∈ [leaf] := hlinks.1 hmem
  rw [if_pos hheld, hnone] at hold
  cases hold

end Shared

end RefSweep
