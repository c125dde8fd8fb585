import RefSweep.Proofs.Store.Dialogue

/-!
# Sessions that share a database

Any number of sessions are opened on one database and asked in any order, while other processes take
and release its lock. Main statement: `InOrder.run`, the store stays sound and the sessions regular.
-/

namespace RefSweep

/-- The database of a store that has just been created. -/
def Database.created : Database := ⟨Store.blank.initialised, 1⟩

theorem Database.sound_created : Database.created.store.Sound := Store.Sound.initialised_blank

/-- A database and the sessions that have been opened on it. -/
structure Shared where
  database : Database
  sessions : List Session

/-- What can happen next: one more session, a request of one of them, counted from 0, or a change of
the lock. -/
inductive Turn where
  | opens
  | asks (session : Nat) (refusals : Refusals) (request : Session.Request)
  | locks (locked : Bool)

namespace Shared

def step (s : Shared) : Turn → Shared
  | .opens => { s with sessions := s.sessions ++ [.justOpened] }
  | .asks i refusals request =>
    match s.sessions[i]? with
    | none => s
    | some x =>
      let step := x.perform refusals s.database request
      ⟨step.database, s.sessions.set i step.session⟩
  | .locks locked => { s with database := s.database.setLocked locked }

def run (s : Shared) (turns : List Turn) : Shared := turns.foldl step s

/-- A database on which no session is open. -/
def unused (d : Database) : Shared := ⟨d, []⟩

structure InOrder (s : Shared) : Prop where
  sound : s.database.store.Sound
  sessions : ∀ x ∈ s.sessions, x.Regular s.database

variable {s : Shared} {d : Database}

theorem inOrder_unused (h : d.store.Sound) : (unused d).InOrder :=
  ⟨h, fun _ hx => absurd hx List.not_mem_nil⟩

/-- A turn is nothing to the database, a request of one of the sessions, or a change of the lock. -/
theorem step_database (s : Shared) (turn : Turn) :
    (s.step turn).database = s.database ∨
      (∃ x ∈ s.sessions, ∃ i refusals request, turn = .asks i refusals request ∧
        (s.step turn).database = (x.perform refusals s.database request).database) ∨
      ∃ locked, (s.step turn).database = s.database.setLocked locked := by
  cases turn with
  | opens => exact .inl rfl
  | locks locked => exact .inr (.inr ⟨locked, rfl⟩)
  | asks i refusals request =>
    unfold step
    dsimp only
    cases hi : s.sessions[i]? with
    | none => exact .inl rfl
    | some x => exact .inr (.inl ⟨x, List.mem_of_getElem? hi, i, refusals, request, rfl, rfl⟩)

/-- Every turn leaves the database sound and each session regular, whichever turn it is. -/
theorem InOrder.step (h : s.InOrder) (turn : Turn) : (s.step turn).InOrder := by
  cases turn with
  | opens =>
    refine ⟨h.sound, fun x hx => ?_⟩
    rcases List.mem_append.1 hx with hx | hx
    · exact h.sessions x hx
    · rw [List.mem_singleton.1 hx]
      exact Session.regular_of_idle h.sound rfl
  | locks locked =>
    have hsound := h.sound.setLocked locked
    exact ⟨hsound, fun x hx => (h.sessions x hx).later (.setLocked s.database locked) hsound⟩
  | asks i refusals request =>
    unfold Shared.step
    dsimp only
    cases hi : s.sessions[i]? with
    | none => exact h
    | some x =>
      have hx := h.sessions x (List.mem_of_getElem? hi)
      have hstep := Session.proper_perform hx.toOrderly refusals request
      refine ⟨hstep.orderly.store, fun other hother => ?_⟩
      -- the session that was asked is another one now, the others are as they were
      rcases List.mem_or_eq_of_mem_set hother with hother | rfl
      · exact (h.sessions other hother).later hstep.precedes hstep.orderly.store
      · exact hx.perform refusals request

/-- So a database that is in order stays so along every list of turns; by induction on the list. -/
theorem InOrder.run (h : s.InOrder) (turns : List Turn) : (s.run turns).InOrder := by
  induction turns generalizing s with
  | nil => exact h
  | cons turn rest ih => exact ih (h.step turn)

end Shared

end RefSweep
