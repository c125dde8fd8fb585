import RefSweep.Command.Help
import RefSweep.Host.Run

/-!
# The command

One invocation of the command on a host: read the arguments, prune, report. The exit status is 0
when everything succeeded, 1 when the request was no good or the run was cut short, and 2 when some
deletion or the compaction failed, or the arguments cannot be read.
-/

namespace RefSweep

/-- How an invocation ended. -/
structure Finish where
  code : Nat
  printed : List Printed
  pauses : List Seconds
  /-- What ended the program from outside its own error handling. -/
  escaped : Option Foreign

namespace Finish

/-- Ends with a status and some output, without any run. -/
def early (code : Nat) (printed : List Printed) : Finish := ⟨code, printed, [], none⟩

end Finish

namespace Command

/-- The command writes log lines of this level. -/
def logs (verbosity : Nat) : Level → Bool
  | .debug => 2 ≤ verbosity
  | _ => 1 ≤ verbosity

/-- What the command prints for an entry of the journal, while the run goes on. The warning about a
pause, which a command that logs would show as well, is left out: its wording is not modelled. -/
def printed? (verbosity : Nat) : Event → Option Printed
  | .logged line => if logs verbosity line.level then some (Report.logLine line) else none
  | .reported outcome => (Report.deletion outcome).toOption
  | _ => none

/-- Follows a run: it is cut short by the first outcome that cannot be shown. -/
def observer : Observer := fun seen =>
  match seen.getLast?.map Report.deletion with
  | some (.error fault) => some (Foreign.markup fault)
  | _ => none

/-- The configuration of a request. Its home stands as it was given. -/
def config (request : Request) (defaultHome : Path) : Config where
  home := match request.home with
    | some t => Path.parse t
    | none => defaultHome
  backend := request.backend
  attempts := request.attempts
  waitMax := Settings.defaultWaitMax
  dryRun := request.dryRun
  attempts_pos := request.attempts_pos
  waitMax_nonneg := Settings.defaultWaitMax_nonneg

/-- What is printed at the end, the exit status, and what escaped. -/
structure Conclusion where
  code : Nat
  printed : List Printed
  escaped : Option Foreign

namespace Conclusion

def cut (cause : Foreign) : Conclusion := ⟨1, [], some cause⟩

/-- Goes on after a line of markup, if it can be shown. -/
def after (shown : Except Markup.Fault (List Printed)) (next : List Printed → Conclusion) :
    Conclusion :=
  match shown with
  | .error fault => cut (.markup fault)
  | .ok printed => next printed

/-- The conclusion with something printed before it. -/
def behind (printed : List Printed) (c : Conclusion) : Conclusion :=
  { c with printed := printed ++ c.printed }

end Conclusion

/-- What a run comes to. -/
def conclusion (program : Text) (dryRun : Bool) : Except Failure PruneResult → Conclusion
  | .error (.foreign cause) => .cut cause
  | .error (.error e) =>
    .after ((Report.error e.message).map ([·])) fun message =>
      ⟨1, message ++ if e.isUsage then [Report.usage program] else [], none⟩
  | .ok result =>
    if dryRun then ⟨0, Report.dryRun result, none⟩
    else
      .after ((result.compaction.map Report.compaction).getD (.ok [])) fun compaction =>
        if result.ok then ⟨0, compaction, none⟩
        else
          .behind compaction <| .after ((Report.summary result).map ([·])) fun summary =>
            ⟨2, summary, none⟩

/-- The debug line about arguments that are not used. -/
def ignored (extra : List Text) : List LogLine :=
  if extra = [] then [] else [⟨.debug, "Ignoring extra arguments: " ++ Text.joined " " extra⟩]

/-- Carries out a request for one peer of one repository. -/
def perform (program : Text) (request : Request) (rid nid : Text) (env : Environment) (h : Host) :
    Finish × Host :=
  let before := (ignored request.extra).filterMap fun l => printed? request.verbosity (.logged l)
  match env.defaultHome with
  | .error cause => (⟨1, before, [], some cause⟩, h)
  | .ok defaultHome =>
    let run := Host.prune (config request defaultHome) rid nid (some observer) h
    let conclusion := conclusion program request.dryRun run.outcome
    (⟨conclusion.code,
      before ++ run.journal.filterMap (printed? request.verbosity) ++ conclusion.printed,
      run.journal.filterMap Event.pause?, conclusion.escaped⟩, run.after)

def run (program : Text) (words : List Text) (env : Environment) (h : Host) : Finish × Host :=
  match Arguments.read words with
  | .error fault => (.early 2 [Report.refusal program fault], h)
  | .ok arguments =>
    if arguments.has .help then (.early 0 [Report.help program], h)
    else
      match Request.ofArguments arguments env.radHome h.files.namesFile with
      | .error (.refused fault) => (.early 2 [Report.refusal program fault], h)
      | .error (.unseen cause) => (⟨1, [], [], some cause⟩, h)
      | .ok request =>
        match request.rid, request.nid with
        | some rid, some nid => perform program request rid nid env h
        | _, _ => (.early 1 [Report.usage program], h)

end Command

end RefSweep
