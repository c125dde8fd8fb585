import RefSweep.Proofs.Command.Course
import RefSweep.Proofs.Host.Account
import RefSweep.Proofs.Host.Opening
import RefSweep.Proofs.Reports

/-!
# Standard output as a record

Of all that an invocation prints, only the lines of deleted references go to standard output, and in
a dry run those of the references that would be deleted. `Recorded` says which names these are,
without looking at anything printed. Main statement: `output_records`, the output is the lines of
these names and nothing else, however the invocation ends, and it tells which names they are.
-/

namespace RefSweep

namespace Report

/-! ## What goes to standard output -/

/-- What two stretches of printing put on a channel is what the first puts there and then what the
second does. -/
theorem onChannel_append (channel : Channel) (ps ps' : List Printed) :
    onChannel channel (ps ++ ps') = onChannel channel ps ++ onChannel channel ps' := by
  simp [onChannel]

/-- What goes to standard error leaves standard output alone. -/
theorem onChannel_out_of_err {ps : List Printed} (h : ∀ p ∈ ps, p.channel = .err) :
    onChannel .out ps = [] := by
  have hnone : ps.filter (·.channel = .out) = [] :=
    List.filter_eq_nil_iff.2 fun p hp => by simp [h p hp]
  rw [onChannel, hnone]
  rfl

/-- A line that is printed with markup goes to standard error, never among the records. -/
theorem channel_markupLine {t : Text} {p : Printed} (h : markupLine t = .ok p) :
    p.channel = .err := by
  unfold markupLine at h
  cases hrendered : Markup.render t with
  | error fault => rw [hrendered] at h; cases h
  | ok shown =>
    rw [hrendered] at h
    rw [← Except.ok.inj h]
    rfl

end Report

namespace Command

open Report

/-- The line of a deletion goes to standard output exactly if the deletion succeeded. The line of a
failed one goes to standard error, as all lines with markup do. -/
theorem onChannel_out_reported (verbosity : Nat) (o : DeletionOutcome) :
    onChannel .out (printed? verbosity (.reported o)).toList =
      (deletedNames [o]).flatMap fun name =>
        (plainLine .out ("Deleted " ++ name.text.display)).text := by
  cases hdeleted : o.deleted with
  | true => simp [printed?, deletion, hdeleted, deletedNames, onChannel, plainLine, Except.toOption]
  -- a failed deletion is printed with markup, and such a line never goes to standard output
  | false =>
    have herr : ∀ p ∈ (printed? verbosity (.reported o)).toList, p.channel = .err := by
      intro p hp
      have hline : (deletion o).toOption = some p := Option.mem_toList.1 hp
      cases hok : deletion o with
      | error fault => rw [hok] at hline; cases hline
      | ok p' =>
        rw [hok] at hline
        obtain rfl := Option.some.inj hline
        rw [deletion, if_neg (by simp [hdeleted])] at hok
        exact channel_markupLine hok
    rw [onChannel_out_of_err herr]
    simp [deletedNames, hdeleted]

/-- Of all that happens only the reports are printed as lines about deletions. -/
theorem aside_printed? {verbosity : Nat} {e : Event} (h : e.outcome? = none) :
    ∀ p ∈ (printed? verbosity e).toList, Aside p := by
  intro p hp
  cases e with
  | reported o => cases h
  | called | announced | slept => cases hp
  | logged line =>
    have hline : (if logs verbosity line.level then some (logLine line) else none) = some p :=
      Option.mem_toList.1 hp
    split at hline
    · rw [← Option.some.inj hline]
      exact aside_logLine line
    · cases hline

/-- The only event that carries an outcome is the report of it. -/
theorem reported_of_outcome? {e : Event} {o : DeletionOutcome} (h : e.outcome? = some o) :
    e = .reported o := by
  cases e with
  | reported o' => exact congrArg _ (Option.some.inj h)
  | called | announced | slept | logged => cases h

/-- What is printed for the entries of a journal, one after another. -/
theorem filterMap_printed?_cons (verbosity : Nat) (e : Event) (rest : List Event) :
    (e :: rest).filterMap (printed? verbosity) =
      (printed? verbosity e).toList ++ rest.filterMap (printed? verbosity) := by
  rw [List.filterMap_cons]
  cases printed? verbosity e <;> rfl

/-- While a run goes on, standard output gets the lines of the deletions that were reported. -/
theorem onChannel_out_journal (verbosity : Nat) (journal : List Event) :
    onChannel .out (journal.filterMap (printed? verbosity)) =
      (deletedNames (journal.filterMap Event.outcome?)).flatMap fun name =>
        (plainLine .out ("Deleted " ++ name.text.display)).text := by
  -- by induction on the journal: an event prints a line on standard output only if it reports
  induction journal with
  | nil => rfl
  | cons e rest ih =>
    rw [filterMap_printed?_cons, onChannel_append, ih]
    cases hreported : e.outcome? with
    | none =>
      rw [onChannel_out_of_err fun p hp => (aside_printed? hreported p hp).channel,
        List.filterMap_cons_none hreported]
      rfl
    | some o =>
      obtain rfl := reported_of_outcome? hreported
      rw [onChannel_out_reported, List.filterMap_cons_some hreported, ← List.flatMap_append,
        ← deletedNames_append]
      rfl

/-! ## What is printed in the end -/

/-- What is printed at the end of a run that failed goes to standard error and is not about a
deletion, whatever the failure is. -/
theorem aside_failed {program : Text} {dryRun : Bool} {f : Failure} :
    ∀ p ∈ (conclusion program dryRun (.error f)).printed, Aside p := by
  cases f with
  | foreign cause => exact fun p hp => absurd hp List.not_mem_nil
  | error e =>
    -- a library error prints its message, and for some of them the usage line below it
    obtain ⟨message, hmessage, haside⟩ := error_ok e.message
    intro p hp
    rw [conclusion, hmessage] at hp
    rcases List.mem_append.1 hp with hp | hp
    · rw [List.mem_singleton.1 hp]
      exact haside
    · split at hp
      · rw [List.mem_singleton.1 hp]
        exact aside_usage program
      · cases hp

/-- So is the summary of a completed run, for a repository in whose name no markup can open. -/
theorem aside_completed {program : Text} {result : PruneResult}
    (hrepository : Glyph.char '[' ∉ result.repository) :
    ∀ p ∈ (conclusion program false (.ok result)).printed, Aside p := by
  -- the lines about the compaction come first, then the summary if something failed
  obtain ⟨lines, hlines, hasides⟩ : ∃ lines,
      (result.compaction.map Report.compaction).getD (.ok []) = .ok lines ∧
        ∀ p ∈ lines, Aside p := by
    cases result.compaction with
    | none => exact ⟨[], rfl, fun p hp => absurd hp List.not_mem_nil⟩
    | some c => exact compaction_ok c
  obtain ⟨line, hline, haside⟩ := summary_ok hrepository
  intro p hp
  simp only [conclusion, hlines, hline, Conclusion.after, Except.map] at hp
  cases hok : result.ok with
  | true =>
    rw [hok] at hp
    exact hasides p hp
  | false =>
    rw [hok] at hp
    rcases List.mem_append.1 hp with hp | hp
    · exact hasides p hp
    · rw [List.mem_singleton.1 hp]
      exact haside

/-- A dry run prints on standard output one line for each matched name, and only these. -/
theorem onChannel_out_dryRun (result : PruneResult) :
    onChannel .out (dryRun result) =
      result.matched.flatMap fun name =>
        (plainLine .out ("Would delete " ++ name.text.display)).text := by
  have hnote : onChannel .out
      (if result.matched.isEmpty then [plainLine .err "No references match."] else []) = [] := by
    refine onChannel_out_of_err fun p hp => ?_
    split at hp
    · rw [List.mem_singleton.1 hp]
      rfl
    · cases hp
  rw [dryRun, onChannel_append, hnote, List.append_nil]
  simp [onChannel, plainLine, List.filter_map, Function.comp_def, List.flatMap_map]

/-! ## The record of an invocation -/

/-- The word before the names on record. -/
def recordWord (dryRun : Bool) : Text := if dryRun then "Would delete " else "Deleted "

/-- The names that an invocation has to put on record, by whether it is a dry run: those that the
storage has answered to have deleted, in the order of its answers; and for a dry run that completes,
those of the owned references, in the order of the listing. -/
inductive Recorded (words : List Text) (env : Environment) (h : Host) : Bool → List RefName → Prop
    where
  /-- There is no run, since no home is known. -/
  | homeless {request rid nid cause}
      (asked : demand words env.radHome h.files.namesFile = .prune request rid nid)
      (unknown : env.defaultHome = .error cause) : Recorded words env h request.dryRun []
  | deleted {request rid nid home exchanges}
      (asked : demand words env.radHome h.files.namesFile = .prune request rid nid)
      (known : env.defaultHome = .ok home) (wet : request.dryRun = false)
      (heard : Heard (Host.pick (config request home)) (config request home).storageRoot rid nid h
        (Host.prune (config request home) rid nid (some observer) h) exchanges) :
      Recorded words env h false (succeeded exchanges)
  | failed {request rid nid home f}
      (asked : demand words env.radHome h.files.namesFile = .prune request rid nid)
      (known : env.defaultHome = .ok home) (dry : request.dryRun = true)
      (ended : (Host.prune (config request home) rid nid (some observer) h).outcome = .error f) :
      Recorded words env h true []
  | matched {request rid nid home o result}
      (asked : demand words env.radHome h.files.namesFile = .prune request rid nid)
      (known : env.defaultHome = .ok home) (dry : request.dryRun = true)
      (opened : (openNamespace (Host.pick (config request home)) (config request home).storageRoot
        rid nid h).outcome = .ok o)
      (ended : (Host.prune (config request home) rid nid (some observer) h).outcome = .ok result) :
      Recorded words env h true ((o.owner.owned (o.storage.references o.handle
        (openNamespace (Host.pick (config request home)) (config request home).storageRoot
          rid nid h).after).1.references).map (·.name))

section

variable {program : Text} {words : List Text} {env : Environment} {h : Host} {request : Request}
  {rid nid : Text} {home : Path} {dryRun : Bool} {names : List RefName}

/-- So are the lines about ignored arguments, which are printed before the run starts. -/
theorem aside_before (request : Request) :
    ∀ p ∈ (ignored request.extra).filterMap fun line =>
      printed? request.verbosity (.logged line), Aside p := by
  intro p hp
  obtain ⟨line, -, hprinted⟩ := List.mem_filterMap.1 hp
  have hnone : (Event.logged line).outcome? = none := rfl
  exact aside_printed? hnone p (Option.mem_toList.2 hprinted)

/-- What an invocation prints that runs: some lines in front, those of the run, and the
conclusion. -/
theorem printed_run (program : Text)
    (hdemand : demand words env.radHome h.files.namesFile = .prune request rid nid)
    (hhome : env.defaultHome = .ok home) :
    let pruned := Host.prune (config request home) rid nid (some observer) h
    ∃ before, (∀ p ∈ before, Aside p) ∧
      (run program words env h).1.printed =
        before ++ pruned.journal.filterMap (printed? request.verbosity) ++
          (conclusion program request.dryRun pruned.outcome).printed := by
  refine ⟨_, aside_before request, ?_⟩
  rw [run_eq, hdemand]
  dsimp only
  rw [perform, hhome]

/-- An invocation that knows no home prints no line about a deletion. -/
theorem aside_homeless (program : Text)
    (hdemand : demand words env.radHome h.files.namesFile = .prune request rid nid)
    {cause : Foreign} (hhome : env.defaultHome = .error cause) :
    ∀ p ∈ (run program words env h).1.printed, Aside p := by
  rw [run_eq, hdemand]
  dsimp only
  rw [perform, hhome]
  exact aside_before request

/-- The conclusion of a run that is not dry has no line about a deletion. -/
theorem aside_conclusion (program : Text) (config : Config) (rid nid : Text)
    (observer : Option Observer) (h : Host) :
    ∀ p ∈ (conclusion program false (Host.prune config rid nid observer h).outcome).printed,
      Aside p := by
  cases hended : (Host.prune config rid nid observer h).outcome with
  | error f => exact aside_failed
  | ok result =>
    obtain ⟨o, -, hrepository, -⟩ := pruneNamespace_result hended
    exact aside_completed (hrepository ▸ o.id.bracket_notMem_text)

/-- Standard output of a run: the lines of the deletions, and what the conclusion adds. Nothing else
is printed on it, before the run or during it. -/
theorem onChannel_out_run (program : Text)
    (hdemand : demand words env.radHome h.files.namesFile = .prune request rid nid)
    (hhome : env.defaultHome = .ok home) :
    let pruned := Host.prune (config request home) rid nid (some observer) h
    onChannel .out (run program words env h).1.printed =
      ((deletedNames pruned.reports).flatMap fun name =>
        (plainLine .out ("Deleted " ++ name.text.display)).text) ++
      onChannel .out (conclusion program request.dryRun pruned.outcome).printed := by
  obtain ⟨before, hbefore, hprinted⟩ := printed_run program hdemand hhome
  dsimp only
  rw [hprinted, onChannel_append, onChannel_append, onChannel_out_journal,
    onChannel_out_of_err fun p hp => (hbefore p hp).channel]
  rfl

/-- The names on record can be read, as they come from a listing, which parses each of its names. -/
theorem Recorded.parse (hrecorded : Recorded words env h dryRun names) :
    ∀ name ∈ names, RefName.parse name.text = .ok name := by
  cases hrecorded with
  | homeless | failed => exact fun name hname => absurd hname List.not_mem_nil
  | deleted _ _ _ heard =>
    intro name hname
    obtain ⟨e, he, hcall⟩ := mem_succeeded hname
    obtain ⟨o, hopened, r, hr, rfl⟩ := heard.deleted he hcall
    exact Host.parse_of_mem_opened hopened (List.mem_filter.1 hr).1
  | matched _ _ _ hopened =>
    intro name hname
    obtain ⟨r, hr, rfl⟩ := List.mem_map.1 hname
    exact Host.parse_of_mem_opened hopened (List.mem_filter.1 hr).1

/-- Lines of a plain word and a parsed name are the records of these names, one by one. -/
theorem lines_eq_record {word : Text} (hword : word.Plain)
    (hnames : ∀ name ∈ names, RefName.parse name.text = .ok name) :
    (names.flatMap fun name => (plainLine .out (word ++ name.text.display)).text) =
      record word names :=
  List.flatMap_congr fun name hname => by rw [plainLine_name .out hword (hnames name hname)]

/-- Standard output holds the lines of the names on record, and nothing else. -/
theorem Recorded.output (program : Text) (hrecorded : Recorded words env h dryRun names) :
    onChannel .out (run program words env h).1.printed = record (recordWord dryRun) names := by
  have hparse := hrecorded.parse
  cases hrecorded with
  | homeless hdemand hhome =>
    exact onChannel_out_of_err fun p hp => (aside_homeless program hdemand hhome p hp).channel
  | @deleted request rid nid home exchanges hdemand hhome hwet hheard =>
    obtain ⟨exchanges', hheard', htold⟩ := pruneNamespace_reports
      (Host.pick (config request home)) (config request home) rid nid observer h
    -- what was reported is what was heard, and nothing after it speaks of deletions
    obtain rfl := hheard'.unique hheard
    have hasides := aside_conclusion program (config request home) rid nid (some observer) h
    rw [onChannel_out_run program hdemand hhome, hwet,
      onChannel_out_of_err fun p hp => (hasides p hp).channel, List.append_nil,
      ← lines_eq_record (by decide) hparse, ← htold]
    rfl
  | @failed request rid nid home f hdemand hhome hdry hended =>
    have hsilent : (Host.prune (config request home) rid nid (some observer) h).reports = [] :=
      pruneNamespace_reports_eq_nil _ _ _ _ (.inl hdry)
    rw [onChannel_out_run program hdemand hhome, hended, hsilent,
      onChannel_out_of_err fun p hp => (aside_failed p hp).channel]
    rfl
  | @matched request rid nid home o result hdemand hhome hdry hopened hended =>
    obtain ⟨o', hopened', -, -, -, hmatched⟩ := pruneNamespace_result hended
    obtain rfl := Except.ok.inj (hopened'.symm.trans hopened)
    have hconclusion : (conclusion program request.dryRun
        (Host.prune (config request home) rid nid (some observer) h).outcome).printed =
        Report.dryRun result := by
      rw [hdry, hended]
      rfl
    have hsilent : (Host.prune (config request home) rid nid (some observer) h).reports = [] :=
      pruneNamespace_reports_eq_nil _ _ _ _ (.inl hdry)
    rw [onChannel_out_run program hdemand hhome, hconclusion, hsilent, onChannel_out_dryRun,
      hmatched, lines_eq_record (by decide) hparse]
    rfl

/-- Every run has names to put on record, whichever way it ends: none if it fails early, those it
has deleted, or those a dry run has matched. -/
theorem exists_recorded
    (hdemand : demand words env.radHome h.files.namesFile = .prune request rid nid) :
    ∃ names, Recorded words env h request.dryRun names := by
  -- the cases are those of `Recorded`: no home, a run that deletes, a dry run and its failure
  cases hhome : env.defaultHome with
  | error cause => exact ⟨[], .homeless hdemand hhome⟩
  | ok home =>
    cases hdry : request.dryRun with
    | false =>
      obtain ⟨exchanges, hheard⟩ := exists_heard (Host.pick (config request home))
        (config request home) rid nid (some observer) h
      exact ⟨_, .deleted hdemand hhome hdry hheard⟩
    | true =>
      cases hended : (Host.prune (config request home) rid nid (some observer) h).outcome with
      | error f => exact ⟨[], .failed hdemand hhome hdry hended⟩
      | ok result =>
        obtain ⟨o, hopened, -⟩ := pruneNamespace_result hended
        exact ⟨_, .matched hdemand hhome hdry hopened hended⟩

/-- Where nothing is to be pruned, only help goes to standard output. -/
theorem onChannel_out_of_not_prune (program : Text)
    (hdemand : ∀ request rid nid,
      demand words env.radHome h.files.namesFile ≠ .prune request rid nid)
    (hhelp : demand words env.radHome h.files.namesFile ≠ .help) :
    onChannel .out (run program words env h).1.printed = [] := by
  rw [run_eq]
  cases hasked : demand words env.radHome h.files.namesFile with
  | prune request rid nid => exact absurd hasked (hdemand request rid nid)
  | help => exact absurd hasked hhelp
  | refused | unseen | incomplete => rfl

end

/-- Standard output is a record of what was deleted, and for a dry run of what would be: every run
has names to put on record, and however it ends its output is the lines of these names in their
order and nothing else. The names can be read, and from equal outputs of two runs of the same kind
they can be told. -/
theorem output_records (program : Text) (words : List Text) (env : Environment) (h : Host) :
    (∀ request rid nid, demand words env.radHome h.files.namesFile = .prune request rid nid →
      ∃ names, Recorded words env h request.dryRun names) ∧
    (∀ dryRun names, Recorded words env h dryRun names →
      (∀ name ∈ names, RefName.parse name.text = .ok name) ∧
      (onChannel .out (run program words env h).1.printed = names.flatMap fun name =>
        recordWord dryRun ++ name.text.display ++ [.char '\n']) ∧
      ∀ program' words' env' h' names', Recorded words' env' h' dryRun names' →
        onChannel .out (run program' words' env' h').1.printed =
          onChannel .out (run program words env h).1.printed → names' = names) ∧
    ((∀ request rid nid,
        demand words env.radHome h.files.namesFile ≠ .prune request rid nid) →
      demand words env.radHome h.files.namesFile ≠ .help →
      onChannel .out (run program words env h).1.printed = []) := by
  refine ⟨fun request rid nid hdemand => exists_recorded hdemand, fun dryRun names hrecorded => ?_,
    onChannel_out_of_not_prune program⟩
  -- parsed names hold no line feed, so the lines can be told apart and the names be read
  refine ⟨hrecorded.parse, hrecorded.output program, ?_⟩
  intro program' words' env' h' names' hrecorded' hsame
  rw [hrecorded.output, hrecorded'.output] at hsame
  have hword : Glyph.char '\n' ∉ recordWord dryRun := by cases dryRun <;> decide
  exact record_inj hword hrecorded'.parse hrecorded.parse hsame

open Sample in
/-- Of two references one is guarded, and the compaction meets a lock: the other one is on record. A
dry run has both on record. -/
theorem output_records_guarded :
    let env : Environment := ⟨some "/home", "/root", []⟩
    let h : Host := { host with refusals := [.none, .none, .none, .one 0 .databaseLocked] }
    (∃ names, Recorded ["repo", "alice"] env h false names ∧
      record "Deleted " names = "Deleted namespaces/alice/x\n" ∧
      (run "nsprune" ["repo", "alice"] env h).1.code = 2) ∧
    ∃ names, Recorded ["--dry-run", "repo", "alice"] env h true names ∧
      record "Would delete " names =
        "Would delete namespaces/alice/x\nWould delete namespaces/alice/y\n" := by
  intro env h
  -- the theorem gives the names on record, the evaluation shows which they are
  obtain ⟨hexists, hrecords, -⟩ := output_records "nsprune" ["repo", "alice"] env h
  obtain ⟨hexists', hrecords', -⟩ := output_records "nsprune" ["--dry-run", "repo", "alice"] env h
  obtain ⟨names, hnames⟩ := hexists _ _ _ rfl
  obtain ⟨names', hnames'⟩ := hexists' _ _ _ rfl
  obtain ⟨-, hout, -⟩ := hrecords _ names hnames
  obtain ⟨-, hout', -⟩ := hrecords' _ names' hnames'
  refine ⟨⟨names, hnames, hout.symm.trans ?_, ?_⟩, names', hnames', hout'.symm.trans ?_⟩ <;>
    decide +kernel

end Command

end RefSweep
