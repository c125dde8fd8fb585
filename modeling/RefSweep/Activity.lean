import RefSweep.Outcome
import RefSweep.Path
import RefSweep.Seconds

/-!
# Activities

An activity works on the state of a storage, may fail, and leaves a journal: the calls made on the
storage, the pauses, the log lines, and the outcomes handed to the caller, all in the order in which
they happened. What was written stays written when a later step fails, and so does every change of
the state.
-/

namespace RefSweep

/-- How much a log line matters. -/
inductive Level where
  | debug
  | info
  | warning
  deriving DecidableEq, Repr

structure LogLine where
  level : Level
  text : Text
  deriving DecidableEq, Repr

/-- An operation asked of a storage. -/
inductive Call where
  | opened (root : Path) (rid : Text)
  | listed
  | deleted (name : RefName)
  | compacted
  | closed
  deriving DecidableEq, Repr

/-- One entry of a journal. -/
inductive Event where
  | called (call : Call)
  /-- The warning, before a pause, that an operation failed with this cause and is tried again after
  it. It is written by the library that retries: its wording, which names the operation, is not
  modelled, and it is not one of the log lines. -/
  | announced (pause : Seconds) (cause : Failure)
  | slept (pause : Seconds)
  | logged (line : LogLine)
  | reported (outcome : DeletionOutcome)
  deriving DecidableEq, Repr

/-- What a storage operation gives back: its result, the storage after it, and its log lines. -/
structure Answer (σ α : Type) where
  result : Except Failure α
  state : σ
  log : List LogLine

/-- How an activity ended, the storage after it, and its journal. -/
structure Run (σ α : Type) where
  outcome : Except Failure α
  after : σ
  journal : List Event

/-- An activity over the state of a storage. -/
def Activity (σ α : Type) := σ → Run σ α

namespace Activity

variable {σ α β : Type}

protected def pure (a : α) : Activity σ α := fun s => ⟨.ok a, s, []⟩

/-- Goes on with the value of the first activity, if it has one. -/
protected def bind (first : Activity σ α) (next : α → Activity σ β) : Activity σ β := fun s =>
  let r := first s
  match r.outcome with
  | .error f => ⟨.error f, r.after, r.journal⟩
  | .ok a =>
    let r' := next a r.after
    ⟨r'.outcome, r'.after, r.journal ++ r'.journal⟩

instance : Monad (Activity σ) where
  pure := Activity.pure
  bind := Activity.bind

def fail (f : Failure) : Activity σ α := fun s => ⟨.error f, s, []⟩

/-- Gives the value of a check, or fails with its error. -/
def ofExcept (check : Except Error α) : Activity σ α := fun s =>
  ⟨match check with
    | .ok a => .ok a
    | .error e => .error (.error e), s, []⟩

def note (e : Event) : Activity σ Unit := fun s => ⟨.ok (), s, [e]⟩

def log (level : Level) (text : Text) : Activity σ Unit := note (.logged ⟨level, text⟩)

/-- Lets the storage answer, and writes its log lines. -/
def answer (operation : σ → Answer σ α) : Activity σ α := fun s =>
  let a := operation s
  ⟨a.result, a.state, a.log.map .logged⟩

/-- Writes the call and lets the storage answer it. -/
def call (c : Call) (operation : σ → Answer σ α) : Activity σ α := fun s =>
  let r := answer operation s
  ⟨r.outcome, r.after, .called c :: r.journal⟩

/-- Gives the outcome as a value, also when it is a failure. -/
def attempt (a : Activity σ α) : Activity σ (Except Failure α) := fun s =>
  let r := a s
  ⟨.ok r.outcome, r.after, r.journal⟩

/-- Runs `last` after the activity, however that ended. A failure of `last` replaces the outcome. -/
def closing (a : Activity σ α) (last : Activity σ Unit) : Activity σ α := fun s =>
  let r := a s
  let r' := last r.after
  ⟨match r'.outcome with
    | .ok _ => r.outcome
    | .error f => .error f, r'.after, r.journal ++ r'.journal⟩

/-- Writes `text` as a debug line if the activity fails with one of the library's own errors. -/
def noting (text : Text) (a : Activity σ α) : Activity σ α := fun s =>
  let r := a s
  match r.outcome with
  | .error (.error _) => { r with journal := r.journal ++ [.logged ⟨.debug, text⟩] }
  | _ => r

/-! ## What each step does to outcome, state and journal -/

@[simp] theorem pure_apply (a : α) (s : σ) : (pure a : Activity σ α) s = ⟨.ok a, s, []⟩ := rfl

@[simp] theorem fail_apply (f : Failure) (s : σ) : (fail f : Activity σ α) s = ⟨.error f, s, []⟩ :=
  rfl

@[simp] theorem note_apply (e : Event) (s : σ) : note e s = ⟨.ok (), s, [e]⟩ := rfl

@[simp] theorem attempt_apply (a : Activity σ α) (s : σ) :
    a.attempt s = ⟨.ok (a s).outcome, (a s).after, (a s).journal⟩ := rfl

theorem bind_of_ok {first : Activity σ α} {next : α → Activity σ β} {s : σ} {a : α}
    (h : (first s).outcome = .ok a) :
    (first >>= next) s = ⟨(next a (first s).after).outcome, (next a (first s).after).after,
      (first s).journal ++ (next a (first s).after).journal⟩ := by
  change Activity.bind first next s = _
  simp [Activity.bind, h]

theorem bind_of_error {first : Activity σ α} {next : α → Activity σ β} {s : σ} {f : Failure}
    (h : (first s).outcome = .error f) :
    (first >>= next) s = ⟨.error f, (first s).after, (first s).journal⟩ := by
  change Activity.bind first next s = _
  simp [Activity.bind, h]

end Activity

namespace Event

def call? : Event → Option Call
  | called c => some c
  | _ => none

def pause? : Event → Option Seconds
  | slept d => some d
  | _ => none

def line? : Event → Option LogLine
  | logged l => some l
  | _ => none

def outcome? : Event → Option DeletionOutcome
  | reported o => some o
  | _ => none

end Event

end RefSweep
