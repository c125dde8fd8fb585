import RefSweep.Command.Request
import RefSweep.Command.Report

/-!
# Help and usage errors

What the command prints when it is asked for help, and when its arguments are refused.
-/

namespace RefSweep

namespace Report

/-- The most characters that a line of the usage may have. -/
def usageWidth : Nat := 80

/-- The room that the arguments need after the command's name. -/
def usageRoom : Nat := 20

/-- A line to which words are added; a word that does not fit begins a new line. -/
def filled (width : Nat) (indent line : Text) : List Text → Text
  | [] => line
  | word :: rest =>
    if line.length + 1 + word.length ≤ width then filled width indent (line ++ " " ++ word) rest
    else line ++ "\n" ++ filled width indent (indent ++ word) rest

/-- The lines that show how the command is used. The arguments stand below the command if its name
leaves no room for them. -/
def usageLine (program : Text) : Text :=
  let lead : Text := "Usage: " ++ program ++ " "
  let spaces := fun n => List.replicate n (Glyph.char ' ')
  let arguments := filled usageWidth
  let others : List Text := ["[RID]", "[NID]"]
  if lead.length + usageRoom ≤ usageWidth then
    arguments (spaces lead.length) (lead ++ "[OPTIONS]") others ++ "\n"
  else lead ++ "\n" ++ arguments (spaces 11) (spaces 11 ++ "[OPTIONS]") others ++ "\n"

/-- The description and the options. -/
def helpBody : Text := "
  Delete every ref under namespaces/NID/ in repository RID, then compact.

  Prints \"Deleted <ref>\" for each removed reference. Exits 1 on usage or fatal
  errors, 2 if some deletions or the compaction failed.

Options:
  --home DIRECTORY              Node home directory; repositories live in
                                <home>/storage. [env: RAD_HOME, default:
                                ~/.radicle]
  --backend [auto|sqlite|git]   Storage backend; 'auto' detects it from the
                                repository layout.  [default: auto]
  --lock-retries INTEGER RANGE  Attempts per operation when the store is locked
                                by another process.  [default: 1; x>=1]
  --dry-run                     List matching refs without deleting or
                                compacting.
  -v, --verbose                 Log progress to stderr (-vv for debug).
  -h, --help                    Show this message and exit.
"

/-- The help: usage, description, options. -/
def help (program : Text) : Printed := ⟨.out, usageLine program.withoutStyling ++ helpBody⟩

/-- Refused arguments: the usage where the fault shows it, and the message. -/
def refusal (program : Text) (fault : CommandFault) : Printed :=
  let program := program.withoutStyling
  let usage := if fault.showsUsage then
    usageLine program ++ "Try '" ++ program ++ " --help' for help.\n\n" else []
  ⟨.err, usage ++ "Error: " ++ fault.message ++ "\n"⟩

end Report

end RefSweep
