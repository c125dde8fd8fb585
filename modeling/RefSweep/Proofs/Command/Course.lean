import RefSweep.Command.Run
import RefSweep.Proofs.Command.Report
import RefSweep.Proofs.Opening

/-!
# The exit status of the command

`Command.demand` is what the words of a command line ask for: nothing of it depends on a repository
or on a store. Only a demand to prune reaches them, and then the status says how the run ended. Main
statement: `exit_status`, the exact conditions for each status. It is 2 for two reasons: something
could not be deleted or compacted, and the arguments could not be read. A request that lacks an
argument ends with 1.
-/

namespace RefSweep.Command

/-- What the words of a command line ask for. -/
inductive Demand where
  /-- An option is unknown, lacks its value or has one that is refused. -/
  | refused (fault : CommandFault)
  | help
  /-- Nobody can look whether the home is a file. -/
  | unseen (cause : Foreign)
  /-- There are fewer than two other arguments. -/
  | incomplete
  | prune (request : Request) (rid nid : Text)

/-- What the words ask for, given the home that the environment names and a way to look whether a
path is a file. -/
def demand (words : List Text) (radHome : Option Text) (isFile : Text → Except Foreign Bool) :
    Demand :=
  match Arguments.read words with
  | .error fault => .refused fault
  | .ok arguments =>
    if arguments.has .help then .help
    else
      match Request.ofArguments arguments radHome isFile with
      | .error (.refused fault) => .refused fault
      | .error (.unseen cause) => .unseen cause
      | .ok request =>
        match request.rid, request.nid with
        | some rid, some nid => .prune request rid nid
        | _, _ => .incomplete

section

variable {program : Text} {words : List Text} {env : Environment} {h : Host} {request : Request}
  {rid nid : Text} {radHome : Option Text} {isFile : Text → Except Foreign Bool}

/-- The command does what is asked for: what the words demand decides alone which of the five ways
an invocation goes, and only the last of them does anything to the host. -/
theorem run_eq : run program words env h =
    match demand words env.radHome h.files.namesFile with
    | .refused fault => (.early 2 [Report.refusal program fault], h)
    | .help => (.early 0 [Report.help program], h)
    | .unseen cause => (⟨1, [], [], some cause⟩, h)
    | .incomplete => (.early 1 [Report.usage program], h)
    | .prune request rid nid => perform program request rid nid env h := by
  unfold run demand
  -- both follow the same choices in the same order, so each case is an evaluation
  cases Arguments.read words with
  | error fault => rfl
  | ok arguments =>
    dsimp only
    cases arguments.has .help with
    | true => rfl
    | false =>
      cases Request.ofArguments arguments env.radHome h.files.namesFile with
      | error fault => cases fault <;> rfl
      | ok request =>
        simp only [Bool.false_eq_true, if_false]
        cases request.rid <;> cases request.nid <;> rfl

/-- A request takes the first positional argument for the repository, the second for the peer, and
sets the others aside. -/
theorem ofArguments_positional {arguments : Arguments}
    (hrequest : Request.ofArguments arguments radHome isFile = .ok request) :
    request.rid = arguments.positional[0]? ∧ request.nid = arguments.positional[1]? ∧
      request.extra = arguments.positional.drop 2 := by
  unfold Request.ofArguments at hrequest
  dsimp only at hrequest
  split at hrequest
  · cases hrequest
  · -- all values are checked before the request is put together
    simp only [bind, Except.bind] at hrequest
    repeat' split at hrequest
    all_goals cases hrequest
    exact ⟨rfl, rfl, rfl⟩

/-- A request to prune was made of the arguments that were read. No other way through the words
leads to one. -/
theorem ofArguments_of_demand (hdemand : demand words radHome isFile = .prune request rid nid) :
    ∃ arguments, Arguments.read words = .ok arguments ∧
      Request.ofArguments arguments radHome isFile = .ok request ∧
      request.rid = some rid ∧ request.nid = some nid := by
  unfold demand at hdemand
  split at hdemand
  · cases hdemand
  next arguments hread =>
    split at hdemand
    · cases hdemand
    · split at hdemand
      · cases hdemand
      · cases hdemand
      next request' hrequest =>
        split at hdemand
        -- only the last case of all asks for a run
        next hrid hnid =>
          obtain ⟨rfl, rfl, rfl⟩ := Demand.prune.inj hdemand
          exact ⟨arguments, hread, hrequest, hrid, hnid⟩
        · cases hdemand

/-- What is pruned is named by the first two arguments; the others are not used. -/
theorem positional_of_demand (hdemand : demand words radHome isFile = .prune request rid nid) :
    ∃ arguments, Arguments.read words = .ok arguments ∧
      arguments.positional = rid :: nid :: request.extra := by
  obtain ⟨arguments, hread, hrequest, hrid, hnid⟩ := ofArguments_of_demand hdemand
  obtain ⟨hfirst, hsecond, hextra⟩ := ofArguments_positional hrequest
  rw [hrid] at hfirst
  rw [hnid] at hsecond
  refine ⟨arguments, hread, ?_⟩
  -- a list with fewer than two arguments lacks one that the request has
  match hpositional : arguments.positional with
  | [] => rw [hpositional] at hfirst; cases hfirst
  | [only] => rw [hpositional] at hsecond; cases hsecond
  | first :: second :: rest =>
    rw [hpositional] at hfirst hsecond hextra
    cases hfirst
    cases hsecond
    rw [hextra]
    rfl

end

/-! ## Conclusions -/

/-- A run that ends in a failure has status 1, whatever the failure is. -/
theorem code_of_error (program : Text) (dryRun : Bool) (f : Failure) :
    (conclusion program dryRun (.error f)).code = 1 := by
  cases f with
  | foreign cause => rfl
  | error e =>
    obtain ⟨printed, hprinted, -⟩ := Report.error_ok e.message
    rw [conclusion, hprinted]
    rfl

/-- A result that is about an accepted repository can be reported. Its lines can always be printed,
so the status is decided by the result and never by the printing. -/
theorem code_of_ok (program : Text) (dryRun : Bool) {result : PruneResult}
    (hrepository : Glyph.char '[' ∉ result.repository) :
    (conclusion program dryRun (.ok result)).code = if dryRun || result.ok then 0 else 2 := by
  cases dryRun with
  | true => rfl
  | false =>
    -- the lines of the report never fail to print, so the status is that of the result
    obtain ⟨lines, hlines⟩ : ∃ lines,
        (result.compaction.map Report.compaction).getD (.ok []) = .ok lines := by
      cases result.compaction with
      | none => exact ⟨[], rfl⟩
      | some c =>
        obtain ⟨lines, hlines, -⟩ := Report.compaction_ok c
        exact ⟨lines, hlines⟩
    obtain ⟨summary, hsummary, -⟩ := Report.summary_ok hrepository
    simp only [conclusion, hlines, hsummary, Conclusion.after, Except.map]
    cases result.ok <;> rfl

/-! ## The exit status -/

/-- The words ask for a run, and it ends so. -/
def Ends (words : List Text) (env : Environment) (h : Host) (request : Request)
    (outcome : Except Failure PruneResult) : Prop :=
  ∃ rid nid home, demand words env.radHome h.files.namesFile = .prune request rid nid ∧
    env.defaultHome = .ok home ∧
    (Host.prune (config request home) rid nid (some observer) h).outcome = outcome

section

variable {program : Text} {words : List Text} {env : Environment} {h : Host} {request : Request}
  {rid nid : Text} {home : Path}

/-- Words that do not demand a run end none. -/
theorem not_ends (hdemand : ∀ request rid nid,
      demand words env.radHome h.files.namesFile ≠ .prune request rid nid)
    (request : Request) (outcome : Except Failure PruneResult) :
    ¬ Ends words env h request outcome := by
  rintro ⟨rid, nid, home, hprune, -⟩
  exact hdemand request rid nid hprune

/-- Words that do demand one end it with that request, and with the outcome of pruning on this host.
-/
theorem ends_iff (hdemand : demand words env.radHome h.files.namesFile = .prune request rid nid)
    (hhome : env.defaultHome = .ok home) {request' : Request}
    {outcome : Except Failure PruneResult} :
    Ends words env h request' outcome ↔ request' = request ∧
      outcome = (Host.prune (config request home) rid nid (some observer) h).outcome := by
  constructor
  · rintro ⟨rid', nid', home', hdemand', hhome', rfl⟩
    obtain ⟨rfl, rfl, rfl⟩ := Demand.prune.inj (hdemand'.symm.trans hdemand)
    obtain rfl := Except.ok.inj (hhome'.symm.trans hhome)
    exact ⟨rfl, rfl⟩
  · rintro ⟨rfl, rfl⟩
    exact ⟨rid, nid, home, hdemand, hhome, rfl⟩

/-- The status of an invocation that runs is that of the run's conclusion: 1 after a failure, and
otherwise 0 or 2 as the result is fine or not, with 0 for every dry run. -/
theorem code_of_prune (program : Text)
    (hdemand : demand words env.radHome h.files.namesFile = .prune request rid nid)
    (hhome : env.defaultHome = .ok home) :
    (run program words env h).1.code =
      match (Host.prune (config request home) rid nid (some observer) h).outcome with
      | .error _ => 1
      | .ok result => if request.dryRun || result.ok then 0 else 2 := by
  have hcode : (run program words env h).1.code = (conclusion program request.dryRun
      (Host.prune (config request home) rid nid (some observer) h).outcome).code := by
    rw [run_eq, hdemand]
    dsimp only
    rw [perform, hhome]
  rw [hcode]
  split
  next f heq =>
    rw [heq]
    exact code_of_error program request.dryRun f
  next result heq =>
    -- the repository of a result is an identifier, and no bracket stands in one
    obtain ⟨o, -, hrepository, -⟩ := pruneNamespace_result heq
    rw [heq]
    exact code_of_ok program request.dryRun (hrepository ▸ o.id.bracket_notMem_text)

/-- With fewer than two positional arguments no run is demanded. -/
theorem not_prune_of_positional {arguments : Arguments}
    (hread : Arguments.read words = .ok arguments) (hfew : arguments.positional.length < 2) :
    demand words radHome isFile ≠ .prune request rid nid := by
  intro hdemand
  obtain ⟨arguments', hread', hpositional⟩ := positional_of_demand hdemand
  obtain rfl := Except.ok.inj (hread.symm.trans hread')
  rw [hpositional, List.length_cons, List.length_cons] at hfew
  omega

/-- Where nothing is to be pruned the host stays as it is, and nothing of it counts but which paths
are files. -/
theorem run_of_not_prune (hdemand : ∀ request rid nid,
      demand words env.radHome h.files.namesFile ≠ .prune request rid nid) :
    (run program words env h).2 = h ∧
      ∀ h' : Host, h'.files.namesFile = h.files.namesFile →
        (run program words env h').1 = (run program words env h).1 := by
  constructor
  · -- every case but the run hands the host back
    rw [run_eq]
    cases hasked : demand words env.radHome h.files.namesFile with
    | prune request rid nid => exact absurd hasked (hdemand request rid nid)
    | refused | help | unseen | incomplete => rfl
  · -- and asks it for nothing but which paths are files
    intro h' hfiles
    rw [run_eq, run_eq, hfiles]
    cases hasked : demand words env.radHome h.files.namesFile with
    | prune request rid nid => exact absurd hasked (hdemand request rid nid)
    | refused | help | unseen | incomplete => rfl

/-- What the status of an invocation means. -/
structure Status (words : List Text) (env : Environment) (h : Host) (code : Nat) : Prop where
  /-- The words are refused, or a run that is not dry completes and its result is not ok. -/
  two : code = 2 ↔ (∃ fault, demand words env.radHome h.files.namesFile = .refused fault) ∨
    ∃ request result, Ends words env h request (.ok result) ∧ request.dryRun = false ∧
      result.ok = false
  /-- Help is asked for, or a run completes that is dry or has a result that is ok. -/
  zero : code = 0 ↔ demand words env.radHome h.files.namesFile = .help ∨
    ∃ request result, Ends words env h request (.ok result) ∧
      (request.dryRun = true ∨ result.ok = true)
  /-- The home cannot be looked at, an argument is missing, no home is known, or the run fails. -/
  one : code = 1 ↔ (∃ cause, demand words env.radHome h.files.namesFile = .unseen cause) ∨
    demand words env.radHome h.files.namesFile = .incomplete ∨
    (∃ request rid nid cause,
      demand words env.radHome h.files.namesFile = .prune request rid nid ∧
      env.defaultHome = .error cause) ∨
    ∃ request f, Ends words env h request (.error f)

/-- An invocation that demands no run has the status its help, its version or its fault has. -/
theorem status_of_not_prune (hdemand : ∀ request rid nid,
      demand words env.radHome h.files.namesFile ≠ .prune request rid nid) :
    Status words env h (run program words env h).1.code := by
  have hnever := not_ends hdemand
  rw [run_eq]
  cases hasked : demand words env.radHome h.files.namesFile with
  | prune request rid nid => exact absurd hasked (hdemand request rid nid)
  | refused | help | unseen | incomplete => constructor <;> simp [Finish.early, hnever, hasked]

/-- An invocation whose home cannot be told fails before the run starts, with status 1. -/
theorem status_of_unknown_home
    (hdemand : demand words env.radHome h.files.namesFile = .prune request rid nid)
    {cause : Foreign} (hhome : env.defaultHome = .error cause) :
    Status words env h (run program words env h).1.code := by
  have hnever : ∀ request outcome, ¬ Ends words env h request outcome := by
    rintro request outcome ⟨_, _, home, -, hknown, -⟩
    cases hhome.symm.trans hknown
  have hcode : (run program words env h).1.code = 1 := by
    rw [run_eq, hdemand]
    dsimp only
    rw [perform, hhome]
  constructor <;> simp [hcode, hnever, hdemand, hhome]

/-- Every invocation has one of the three statuses, as the words, the environment and the host
decide. -/
theorem status_run (program : Text) (words : List Text) (env : Environment) (h : Host) :
    Status words env h (run program words env h).1.code := by
  cases hasked : demand words env.radHome h.files.namesFile with
  | refused | help | unseen | incomplete => exact status_of_not_prune (by simp [hasked])
  | prune request rid nid =>
    cases hhome : env.defaultHome with
    | error cause => exact status_of_unknown_home hasked hhome
    | ok home =>
      have hcode := code_of_prune program hasked hhome
      -- there is one run that the words ask for, so that its outcome decides
      have hends : ∀ request' outcome, Ends words env h request' outcome ↔ request' = request ∧
          outcome = (Host.prune (config request home) rid nid (some observer) h).outcome :=
        fun _ _ => ends_iff hasked hhome
      cases hout : (Host.prune (config request home) rid nid (some observer) h).outcome with
      | error f =>
        rw [hout] at hcode
        constructor <;> simp [hcode, hends, hout, hasked, hhome]
      | ok result =>
        rw [hout] at hcode
        cases hdry : request.dryRun <;> cases hok : result.ok <;>
          constructor <;> simp [hcode, hends, hout, hdry, hok, hasked, hhome]

end

/-- For all words, environments and hosts the status says how the invocation ended, as `Status` has
it. Unless the words ask for a run, which takes two arguments, no repository and no store is looked
at: the host stays as it is, and on every other host on which the same paths are files the
invocation is the same. -/
theorem exit_status (program : Text) (words : List Text) (env : Environment) (h : Host) :
    Status words env h (run program words env h).1.code ∧
    ((∀ request rid nid,
        demand words env.radHome h.files.namesFile ≠ .prune request rid nid) →
      (run program words env h).2 = h ∧
      ∀ h' : Host, h'.files.namesFile = h.files.namesFile →
        (run program words env h').1 = (run program words env h).1) ∧
    ∀ arguments, Arguments.read words = .ok arguments → arguments.positional.length < 2 →
      ∀ request rid nid,
        demand words env.radHome h.files.namesFile ≠ .prune request rid nid :=
  ⟨status_run program words env h, run_of_not_prune,
    fun _ hread hfew _ _ _ => not_prune_of_positional hread hfew⟩

/-- An unknown option ends the command with the status of a run that has failed in part; a missing
argument does not. -/
theorem exit_status_unknown_option :
    let env : Environment := ⟨none, "/home", []⟩
    let h : Host := ⟨⟨[]⟩, .missing, []⟩
    (run "nsprune" ["--zzz"] env h).1.code = 2 ∧
      (∀ request outcome, ¬ Ends ["--zzz"] env h request outcome) ∧
      (run "nsprune" ["rid"] env h).1.code = 1 := by
  intro env h
  -- what each of the two lines of words demands is found by evaluation
  have hrefused : demand ["--zzz"] env.radHome h.files.namesFile =
      .refused (.unknownOption "--zzz") := rfl
  have hincomplete : demand ["rid"] env.radHome h.files.namesFile = .incomplete := rfl
  obtain ⟨hstatus, -, -⟩ := exit_status "nsprune" ["--zzz"] env h
  obtain ⟨hstatus', -, -⟩ := exit_status "nsprune" ["rid"] env h
  refine ⟨hstatus.two.2 (.inl ⟨_, hrefused⟩), not_ends (by simp [hrefused]), ?_⟩
  exact hstatus'.one.2 (.inr (.inl hincomplete))

end RefSweep.Command
