import RefSweep.Command.Arguments
import RefSweep.Error
import RefSweep.Setting
import RefSweep.Text.Digits

/-!
# Requests

What the command is asked to do. The values of the options are checked in the order in which the
options first come.
-/

namespace RefSweep

/-- Why no request is made of the arguments: a value is refused, or nobody can look whether the home
is a file. -/
inductive RequestFault where
  | refused (fault : CommandFault)
  | unseen (cause : Foreign)

/-- What the command is asked to do. -/
structure Request where
  rid : Option Text
  nid : Option Text
  extra : List Text
  home : Option Text
  backend : BackendChoice
  attempts : Nat
  dryRun : Bool
  verbosity : Nat
  attempts_pos : 0 < attempts

namespace Request

/-- A number of attempts, as the command line spells it. -/
def attempts? (value : Option Text) : Except CommandFault { n : Nat // 0 < n } :=
  match value with
  | none => .ok ⟨1, Nat.one_pos⟩
  | some t =>
    match t.int? with
    | none => .error (.badNumber t)
    | some n => if h : 0 < n.toNat then .ok ⟨n.toNat, h⟩ else .error (.tooSmall n)

/-- A backend by its name. -/
def backend? (value : Option Text) : Except CommandFault BackendChoice :=
  match value with
  | none => .ok .auto
  | some t =>
    match BackendChoice.ofName? t with
    | some choice => .ok choice
    | none => .error (.badBackend t)

/-- A home that is a file is refused. -/
def home? (isFile : Text → Except Foreign Bool) (value : Option Text) :
    Except RequestFault (Option Text) :=
  match value with
  | none => .ok none
  | some t =>
    match isFile t with
    | .error cause => .error (.unseen cause)
    | .ok true => .error (.refused (.homeIsFile t))
    | .ok false => .ok (some t)

/-- The fault in the value of an option, if there is one. -/
def faultIn (a : Arguments) (isFile : Text → Except Foreign Bool) (homeValue : Option Text) :
    Switch → Option RequestFault
  | .home => fault (home? isFile homeValue)
  | .backend => fault ((backend? (a.value? .backend)).mapError .refused)
  | .lockRetries => fault ((attempts? (a.value? .lockRetries)).mapError .refused)
  | _ => none
where
  fault {α : Type} : Except RequestFault α → Option RequestFault
    | .error f => some f
    | .ok _ => none

/-- Checks the values. The home comes from the environment if no option gives it, and is then
checked last; an empty value there counts as none. -/
def ofArguments (a : Arguments) (radHome : Option Text) (isFile : Text → Except Foreign Bool) :
    Except RequestFault Request :=
  let homeValue := (a.value? .home).or (radHome.filter (· ≠ []))
  match (a.given ++ [Switch.home]).findSome? (faultIn a isFile homeValue) with
  | some fault => .error fault
  | none => do
    let home ← home? isFile homeValue
    let backend ← (backend? (a.value? .backend)).mapError .refused
    let attempts ← (attempts? (a.value? .lockRetries)).mapError .refused
    .ok ⟨a.positional[0]?, a.positional[1]?, a.positional.drop 2, home, backend, attempts.val,
      a.has .dryRun, a.count .verbose, attempts.property⟩

end Request

end RefSweep
