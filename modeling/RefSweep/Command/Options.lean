import RefSweep.Text.Quoted
import RefSweep.Text.Similar

/-!
# Options of the command

The options with their spellings, and why arguments are refused.
-/

namespace RefSweep

inductive Switch where
  | home
  | backend
  | lockRetries
  | dryRun
  | verbose
  | help
  deriving DecidableEq, Repr

namespace Switch

/-- All options, in the order of the help. -/
def all : List Switch := [home, backend, lockRetries, dryRun, verbose, help]

/-- The long spelling. -/
def name : Switch → Text
  | home => "--home"
  | backend => "--backend"
  | lockRetries => "--lock-retries"
  | dryRun => "--dry-run"
  | verbose => "--verbose"
  | help => "--help"

def takesValue : Switch → Bool
  | home | backend | lockRetries => true
  | _ => false

/-- The flag of one letter. -/
def ofLetter? (g : Glyph) : Option Switch :=
  if g = 'v' then some verbose else if g = 'h' then some help else none

/-- The option of a long spelling. -/
def ofName? (t : Text) : Option Switch := all.find? (·.name = t)

end Switch

/-- Why the arguments are refused. -/
inductive CommandFault where
  | unknownOption (name : Text)
  | missingValue (option : Switch)
  | unexpectedValue (option : Switch)
  | badBackend (value : Text)
  | badNumber (value : Text)
  | tooSmall (value : Int)
  | homeIsFile (value : Text)
  deriving DecidableEq, Repr

namespace CommandFault

/-- The options that a mistyped one may have meant, in order. -/
def suggestions (name : Text) : List Text :=
  if name.startsWith (Text.of "--") then
    (Similar.best 3 (Switch.all.map Switch.name) name).mergeSort Text.le
  else []

/-- What is said about the options that may have been meant. -/
def hint : List Text → Text
  | [] => []
  | [one] => " Did you mean " ++ one.quoted ++ "?"
  | many => " (Did you mean one of: " ++ Text.joined ", " (many.map Text.quoted) ++ "?)"

/-- What is said about a value that an option does not take. -/
def badValue (option : Switch) (problem : Text) : Text :=
  "Invalid value for " ++ option.name.quoted ++ ": " ++ problem

def message : CommandFault → Text
  | unknownOption name => "No such option " ++ name.quoted ++ "." ++ hint (suggestions name)
  | missingValue option => "Option " ++ option.name.quoted ++ " requires an argument."
  | unexpectedValue option => "Option " ++ option.name.quoted ++ " does not take a value."
  | badBackend value =>
    badValue .backend (value.quoted ++ " is not one of 'auto', 'sqlite', 'git'.")
  | badNumber value => badValue .lockRetries (value.quoted ++ " is not a valid integer range.")
  | tooSmall value => badValue .lockRetries (Text.ofInt value ++ " is not in the range x>=1.")
  | homeIsFile value => badValue .home ("Directory " ++ value.quoted ++ " is a file.")

/-- The message comes after the lines that show the usage. -/
def showsUsage : CommandFault → Bool
  | missingValue _ | unexpectedValue _ => false
  | _ => true

end CommandFault

end RefSweep
