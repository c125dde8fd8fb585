import RefSweep.Activity
import RefSweep.Text.Markup
import RefSweep.Text.Terminal
import RefSweep.Text.Wrapped

/-!
# What the command prints

Standard output carries one line for each deleted reference, and for each one that a dry run would
delete; everything else goes to standard error. Lines of the error output are markup into which
names and messages are put in escaped form; a line whose parts together form a tag that closes
nothing cannot be shown.
-/

namespace RefSweep

/-- Where output goes. -/
inductive Channel where
  | out
  | err
  deriving DecidableEq, Repr

structure Printed where
  channel : Channel
  text : Text
  deriving DecidableEq, Repr

namespace Report

/-- A line that is printed as it is, whatever the width of the terminal. This is assumed of the
printer: some of its versions drop white space that reaches beyond the last column, also where lines
are not to be wrapped. -/
def plainLine (channel : Channel) (t : Text) : Printed :=
  ⟨channel, t.onTerminal ++ [Glyph.char '\n']⟩

/-- A line of markup on standard error. -/
def markupLine (t : Text) : Except Markup.Fault Printed := (Markup.render t).map (plainLine .err)

def usage (program : Text) : Printed :=
  plainLine .err ("usage: " ++ program ++ " <rid> <nid>")

def error (message : Text) : Except Markup.Fault Printed :=
  markupLine ("[red]Error:[/red] " ++ Markup.escape message)

/-- One deletion: a success on standard output, a failure on standard error. -/
def deletion (o : DeletionOutcome) : Except Markup.Fault Printed :=
  if o.deleted then .ok (plainLine .out ("Deleted " ++ o.name.text.display))
  else
    let reason := match o.error with
      | some (g :: t) => Text.display (g :: t)
      | _ => Text.of "unknown error"
    markupLine ("[red]Failed[/red] to delete " ++ Markup.escape o.name.text.display ++ ": " ++
      Markup.escape reason ++ if o.retryable then Text.of " [dim](retryable)[/dim]" else [])

/-- A dry run: what would be deleted, or that nothing matches. -/
def dryRun (r : PruneResult) : List Printed :=
  r.matched.map (fun name => plainLine .out ("Would delete " ++ name.text.display)) ++
    if r.matched.isEmpty then [plainLine .err "No references match."] else []

/-- A compaction that failed; a successful one prints nothing. -/
def compaction (c : CompactionResult) : Except Markup.Fault (List Printed) :=
  if c.ok then .ok []
  else (error ("Compaction failed: " ++ c.error.getD "None" ++
    if c.retryable then Text.of " (retryable, re-run to compact)" else [])).map ([·])

/-- The summary of a run with failures. -/
def summary (r : PruneResult) : Except Markup.Fault Printed :=
  markupLine ("[yellow]" ++ Text.ofNat r.deleted.length ++ " deleted, " ++
    Text.ofNat r.failed.length ++ " failed[/yellow] in " ++ Markup.escape r.repository ++
    " for peer " ++ Markup.escape r.peer)

/-- The name of a level, at least eight characters wide. -/
def levelName : Level → Text
  | .debug => "DEBUG   "
  | .info => "INFO    "
  | .warning => "WARNING "

/-- How many cells the text of a log line may take. -/
def logWidth : Nat := 71

/-- A log line: the level, and the text with its further lines under the first. -/
def logLine (l : LogLine) : Printed :=
  let indent := List.replicate 9 (Glyph.char ' ')
  let lines := (l.text.onTerminal.split '\n').flatMap (Text.wrapped logWidth)
  ⟨.err, levelName l.level ++ [.char ' '] ++ Text.joined (.char '\n' :: indent) lines ++
    [.char '\n']⟩

/-- What was printed on a channel. -/
def onChannel (channel : Channel) (printed : List Printed) : Text :=
  (printed.filter (·.channel = channel)).flatMap (·.text)

end Report

end RefSweep
