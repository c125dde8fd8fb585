import RefSweep.Home
import RefSweep.Setting

/-!
# Configurations

The configuration of a run is made from settings and the environment. `Settings.config` checks each
field on its own and reports all faults together, in the order of the fields' names.
-/

namespace RefSweep

structure Config where
  home : Path
  backend : BackendChoice
  /-- How often an operation is attempted while the store is locked. -/
  attempts : Nat
  /-- The longest pause between two attempts. -/
  waitMax : Seconds
  dryRun : Bool
  attempts_pos : 0 < attempts
  waitMax_nonneg : waitMax.isNonneg = true

namespace Config

/-- The directory that holds all repositories. -/
def storageRoot (c : Config) : Path := c.home.child "storage"

end Config

/-- The fields of a configuration, as messages name them. -/
inductive Field where
  | backend
  | dryRun
  | home
  | lockRetries
  | lockWaitMax
  deriving DecidableEq, Repr

namespace Field

def name : Field → Text
  | backend => "backend"
  | dryRun => "dry_run"
  | home => "home"
  | lockRetries => "lock_retries"
  | lockWaitMax => "lock_wait_max"

end Field

/-- Values for the fields; a field without one takes its default. -/
structure Settings where
  home : Option Setting
  backend : Option Setting
  lockRetries : Option Setting
  lockWaitMax : Option Setting
  dryRun : Option Setting

/-- Why there is no configuration: the default home cannot be found, or fields are refused, listed
in the order of their names. -/
inductive ConfigFault where
  | homeFailed (cause : Foreign)
  | refused (fields : List (Field × SettingFault))

namespace Settings

/-- The settings without those that are given as nothing. -/
def present (s : Settings) : Settings :=
  let given := fun value : Option Setting => value.filter (· ≠ .null)
  ⟨given s.home, given s.backend, given s.lockRetries, given s.lockWaitMax, given s.dryRun⟩

/-- The fault of a checked field, if it has one. -/
def faultOf {α : Type} (field : Field) : Except SettingFault α → Option (Field × SettingFault)
  | .error fault => some (field, fault)
  | .ok _ => none

/-- The longest pause where none is set. -/
def defaultWaitMax : Seconds := .finite 2

theorem defaultWaitMax_nonneg : defaultWaitMax.isNonneg = true := rfl

/-- Checks a value if there is one. -/
def checked {α : Type} (check : Setting → Except SettingFault α) (default : α) :
    Option Setting → Except SettingFault α
  | some value => check value
  | none => .ok default

/-- The configuration, with this home where none is set. -/
def withHome (s : Settings) (defaultHome : Path) : Except ConfigFault Config :=
  let home := checked Setting.path defaultHome s.home
  let backend := checked Setting.backend .auto s.backend
  let attempts := checked Setting.attempts ⟨1, Nat.one_pos⟩ s.lockRetries
  let wait := checked Setting.wait ⟨defaultWaitMax, defaultWaitMax_nonneg⟩ s.lockWaitMax
  let dryRun := checked Setting.onOff false s.dryRun
  match home, backend, attempts, wait, dryRun with
  | .ok home, .ok backend, .ok ⟨attempts, positive⟩, .ok ⟨wait, nonnegative⟩, .ok dryRun =>
    .ok ⟨home, backend, attempts, wait, dryRun, positive, nonnegative⟩
  | _, _, _, _, _ =>
    .error (.refused ([faultOf .backend backend, faultOf .dryRun dryRun, faultOf .home home,
      faultOf .lockRetries attempts, faultOf .lockWaitMax wait].filterMap id))

/-- The configuration of exactly these settings; the default home is looked up only if no home is
given. -/
def config (s : Settings) (env : Environment) : Except ConfigFault Config :=
  match s.home with
  | some _ => s.withHome ⟨.workingDirectory, []⟩
  | none =>
    match env.defaultHome with
    | .error cause => .error (.homeFailed cause)
    | .ok home => s.withHome home

/-- The configuration of these settings over the environment's: the default home is looked up first,
and settings given as nothing do not count. -/
def configOver (s : Settings) (env : Environment) : Except ConfigFault Config :=
  match env.defaultHome with
  | .error cause => .error (.homeFailed cause)
  | .ok home => s.present.withHome home

end Settings

end RefSweep
