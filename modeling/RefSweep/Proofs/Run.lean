import RefSweep.Prune

/-!
# What a run asks of its storage

The journal of a run mixes calls with pauses, log lines and reports. `Run.calls` keeps the calls.
The lemmas say what each way of putting activities together does to the outcome, to the state and to
the calls, so that later proofs never look into a journal.
-/

namespace RefSweep

variable {σ η α β : Type}

/-- The calls on the storage, in order. -/
def Run.calls (r : Run σ α) : List Call := r.journal.filterMap Event.call?

@[simp] theorem Run.calls_mk (outcome : Except Failure α) (s : σ) (journal : List Event) :
    (⟨outcome, s, journal⟩ : Run σ α).calls = journal.filterMap Event.call? := rfl

/-- How an operation ended: with a failure, or none if it gave a result. -/
def endingOf : Except Failure α → Option Failure
  | .ok _ => none
  | .error f => some f

@[simp] theorem endingOf_ok (a : α) : endingOf (.ok a) = none := rfl

@[simp] theorem endingOf_error (f : Failure) : endingOf (.error f : Except Failure α) = some f :=
  rfl

/-- An operation ends with a failure exactly where its result is that failure, so the ending tells
all that is known of a failed result. -/
theorem endingOf_eq_some {r : Except Failure α} {f : Failure} (h : endingOf r = some f) :
    r = .error f := by
  cases r with
  | ok a => cases h
  | error g => rw [Option.some.inj h]

namespace Activity

/-! ## Outcome, state and calls of a composed activity -/

/-- What two activities leave one after the other, read off the first: the second begins where the
first has ended, and is left out if that has failed. -/
theorem bind_apply (a : Activity σ α) (next : α → Activity σ β) (s : σ) :
    (a >>= next) s =
      match (a s).outcome with
      | .ok v => ⟨(next v (a s).after).outcome, (next v (a s).after).after,
          (a s).journal ++ (next v (a s).after).journal⟩
      | .error f => ⟨.error f, (a s).after, (a s).journal⟩ := by
  cases h : (a s).outcome with
  | ok v => simp only [bind_of_ok h]
  | error f => simp only [bind_of_error h]

/-- A composed activity that gives a value has had one to go on with. -/
theorem bind_eq_ok {a : Activity σ α} {next : α → Activity σ β} {s : σ} {b : β}
    (h : ((a >>= next) s).outcome = .ok b) :
    ∃ v, (a s).outcome = .ok v ∧ (next v (a s).after).outcome = .ok b ∧
      ((a >>= next) s).after = (next v (a s).after).after := by
  cases hv : (a s).outcome with
  | ok v =>
    rw [bind_of_ok hv] at h ⊢
    exact ⟨v, rfl, h, rfl⟩
  | error f =>
    rw [bind_of_error hv] at h
    cases h

/-- The calls of an activity that goes on come before those of what follows. -/
theorem calls_bind_of_ok {a : Activity σ α} {next : α → Activity σ β} {s : σ} {v : α}
    (h : (a s).outcome = .ok v) :
    ((a >>= next) s).calls = (a s).calls ++ (next v (a s).after).calls := by
  rw [bind_of_ok h]
  exact List.filterMap_append ..

/-- What follows a failed activity calls nothing. -/
theorem calls_bind_of_error {a : Activity σ α} {next : α → Activity σ β} {s : σ} {f : Failure}
    (h : (a s).outcome = .error f) : ((a >>= next) s).calls = (a s).calls := by
  rw [bind_of_error h]
  rfl

/-- It does not matter how a sequence of activities is put in brackets: outcome, state and journal
are the same. -/
theorem bind_assoc {γ : Type} (a : Activity σ α) (next : α → Activity σ β)
    (last : β → Activity σ γ) : a >>= next >>= last = a >>= fun v => next v >>= last := by
  funext s
  -- the first failure ends both sides at the same place
  cases ha : (a s).outcome with
  | error f =>
    have hfirst : ((a >>= next) s).outcome = .error f := by rw [bind_of_error ha]
    rw [bind_of_error hfirst, bind_of_error ha, bind_of_error ha]
  | ok v =>
    have hfirst : ((a >>= next) s).outcome = (next v (a s).after).outcome := by rw [bind_of_ok ha]
    cases hnext : (next v (a s).after).outcome with
    | error f =>
      rw [bind_of_error (hfirst.trans hnext), bind_of_ok ha, bind_of_ok ha, bind_of_error hnext]
    | ok w =>
      rw [bind_of_ok (hfirst.trans hnext), bind_of_ok ha, bind_of_ok ha, bind_of_ok hnext]
      simp only [List.append_assoc]

theorem pure_bind (v : α) (next : α → Activity σ β) : pure v >>= next = next v := rfl

/-- A log line before an activity shows only in the journal. -/
@[simp] theorem log_bind (level : Level) (text : Text) (next : Unit → Activity σ β) (s : σ) :
    (log level text >>= next) s =
      ⟨(next () s).outcome, (next () s).after, .logged ⟨level, text⟩ :: (next () s).journal⟩ := rfl

/-- A check that has passed has given its value, and no check changes the state. -/
theorem ofExcept_eq_ok {check : Except Error α} {s : σ} {a : α}
    (h : (ofExcept check s).outcome = .ok a) : check = .ok a ∧ (ofExcept check s).after = s := by
  cases check with
  | ok b => exact ⟨congrArg _ (Except.ok.inj h), rfl⟩
  | error e => cases h

theorem ofExcept_ok_bind (a : α) (next : α → Activity σ β) (s : σ) :
    (ofExcept (.ok a) >>= next) s = next a s := rfl

/-- A check that fails ends the activity with the library's own error, before anything is called or
written. -/
theorem ofExcept_error_bind (e : Error) (next : α → Activity σ β) (s : σ) :
    (ofExcept (.error e) >>= next) s = ⟨.error (.error e), s, []⟩ := rfl

/-- What follows an attempt goes on with its ending as a value. -/
theorem attempt_bind (a : Activity σ α) (next : Except Failure α → Activity σ β) (s : σ) :
    (a.attempt >>= next) s =
      ⟨(next (a s).outcome (a s).after).outcome, (next (a s).outcome (a s).after).after,
        (a s).journal ++ (next (a s).outcome (a s).after).journal⟩ := rfl

/-! ## What an activity does not write -/

section Omits

variable {γ : Type} {view : Event → Option γ}

/-- The activity writes nothing that the view shows. -/
def Omits (view : Event → Option γ) (a : Activity σ α) : Prop :=
  ∀ s, (a s).journal.filterMap view = []

/-- What neither the activity nor anything that may follow it writes, both together do not write. -/
theorem Omits.bind {a : Activity σ α} {next : α → Activity σ β} (ha : Omits view a)
    (hnext : ∀ v, Omits view (next v)) : Omits view (a >>= next) := by
  intro s
  rw [bind_apply]
  split
  next v _ => rw [List.filterMap_append, ha s, hnext v, List.append_nil]
  next => exact ha s

variable (hlogged : ∀ l, view (.logged l) = none)
include hlogged

theorem filterMap_logged (log : List LogLine) : (log.map Event.logged).filterMap view = [] := by
  simp [List.filterMap_map, hlogged]

theorem omits_answer (operation : σ → Answer σ α) : Omits view (answer operation) := fun _ =>
  filterMap_logged hlogged _

/-- A call writes itself and what its answer writes, so a view in which calls and log lines do not
show stays empty. -/
theorem omits_call {c : Call} (hcalled : view (.called c) = none) (operation : σ → Answer σ α) :
    Omits view (call c operation) := fun s =>
  (List.filterMap_cons_none hcalled).trans (omits_answer hlogged operation s)

/-- What is noted of a failure is a log line. -/
theorem filterMap_noting (text : Text) (a : Activity σ α) (s : σ) :
    (a.noting text s).journal.filterMap view = (a s).journal.filterMap view := by
  dsimp only [noting]
  split
  · rw [List.filterMap_append, List.filterMap_cons_none (hlogged _), List.filterMap_nil,
      List.append_nil]
  · rfl

end Omits

/-! ## The calls of single steps -/

/-- To let the storage answer without writing the call is no call. The choice of a storage is such
an answer. -/
theorem calls_answer (operation : σ → Answer σ α) (s : σ) : (answer operation s).calls = [] :=
  omits_answer (fun _ => rfl) operation s

/-- A call ends as the operation does, in the state that this leaves, and is one call whatever lines
are logged. -/
theorem call_apply (c : Call) (operation : σ → Answer σ α) (s : σ) :
    (call c operation s).outcome = (operation s).result ∧
      (call c operation s).after = (operation s).state ∧ (call c operation s).calls = [c] :=
  ⟨rfl, rfl, congrArg (c :: ·) (calls_answer operation s)⟩

@[simp] theorem outcome_noting (text : Text) (a : Activity σ α) (s : σ) :
    (a.noting text s).outcome = (a s).outcome := by
  dsimp only [noting]
  split <;> rfl

@[simp] theorem after_noting (text : Text) (a : Activity σ α) (s : σ) :
    (a.noting text s).after = (a s).after := by
  dsimp only [noting]
  split <;> rfl

@[simp] theorem calls_noting (text : Text) (a : Activity σ α) (s : σ) :
    (a.noting text s).calls = (a s).calls := filterMap_noting (fun _ => rfl) text a s

@[simp] theorem outcome_during (rid : Identifier) (stage : Stage) (a : Activity σ α) (s : σ) :
    (during rid stage a s).outcome = (a s).outcome := outcome_noting ..

@[simp] theorem after_during (rid : Identifier) (stage : Stage) (a : Activity σ α) (s : σ) :
    (during rid stage a s).after = (a s).after := after_noting ..

theorem calls_closing (a : Activity σ α) (last : Activity σ Unit) (s : σ) :
    (a.closing last s).calls = (a s).calls ++ (last (a s).after).calls :=
  List.filterMap_append ..

/-- A failure of the last step replaces the outcome. -/
theorem outcome_closing (a : Activity σ α) (last : Activity σ Unit) (s : σ) :
    (a.closing last s).outcome =
      (endingOf (last (a s).after).outcome).elim (a s).outcome .error := by
  dsimp only [closing]
  cases (last (a s).after).outcome <;> rfl

/-- What is closed in the end has a value only if both have one. -/
theorem closing_eq_ok {a : Activity σ α} {last : Activity σ Unit} {s : σ} {b : α}
    (h : (a.closing last s).outcome = .ok b) : (a s).outcome = .ok b := by
  dsimp only [closing] at h
  split at h
  · exact h
  · cases h

end Activity

end RefSweep
