import Mathlib.Data.List.Forall2
import RefSweep.Proofs.Command.Arguments
import RefSweep.Proofs.Command.Record
import RefSweep.Proofs.Host.Prediction
import RefSweep.Proofs.Host.Recovery

/-!
# What a dry run of the command predicts

The lines of a dry run and those of the run that it stands for, from the same host. `Report.saying`
picks the lines that begin with certain words out of all that is printed, on either channel, and
`Report.Tells` says which name such a line is about.
-/

namespace RefSweep

namespace Report

variable {words : List Text} {ps ps' : List Printed} {p : Printed} {name name' : RefName}

/-- The lines that begin with one of these words, in the order in which they are printed. A line is
here one whole print: a line feed in the text of an error does not make two of it. -/
def saying (words : List Text) (ps : List Printed) : List Printed :=
  ps.filter fun p => ∃ word ∈ words, word <+: p.text

/-- The lines that say some words, in two stretches of printing, are those of the first and then
those of the second. -/
theorem saying_append (words : List Text) (ps ps' : List Printed) :
    saying words (ps ++ ps') = saying words ps ++ saying words ps' := List.filter_append ..

/-- Among lines on standard error that are not about a deletion none says a deletion's words. -/
theorem saying_asides (hwords : words ⊆ deletionWords) (h : ∀ p ∈ ps, Aside p) :
    saying words ps = [] := by
  refine List.filter_eq_nil_iff.2 fun p hp hsays => ?_
  obtain ⟨word, hword, hbegins⟩ := of_decide_eq_true hsays
  exact (h p hp).other word (hwords hword) hbegins

theorem saying_all (h : ∀ p ∈ ps, ∃ word ∈ words, word <+: p.text) : saying words ps = ps :=
  List.filter_eq_self.2 fun p hp => decide_eq_true (h p hp)

/-- The line is the one of a reference of this name that was deleted or could not be. -/
inductive Tells (name : RefName) (p : Printed) : Prop where
  | deleted (line : p = named .out "Deleted " name)
  | failed (channel : p.channel = .err)
      (begins : Text.of "Failed to delete " ++ (name.text.display ++ Text.of ": ") <+: p.text)

/-- A line that tells of a name begins with the words of a deletion or of its failure. -/
theorem Tells.says (h : Tells name p) :
    ∃ word ∈ [Text.of "Deleted ", Text.of "Failed to delete "], word <+: p.text := by
  cases h with
  | deleted line =>
    refine ⟨_, .head _, ?_⟩
    rw [line, named, List.append_assoc]
    exact List.prefix_append ..
  | failed _ begins => exact ⟨_, .tail _ (.head _), (List.prefix_append ..).trans begins⟩

/-- A line is about one name: whatever its outcome was, the name can be read off it. -/
theorem Tells.unique (h : Tells name p) (h' : Tells name' p)
    (hname : RefName.parse name.text = .ok name) (hname' : RefName.parse name'.text = .ok name') :
    name = name' := by
  have hcolon : ∀ {name : RefName}, RefName.parse name.text = .ok name →
      Glyph.char ':' ∉ name.text.display := fun hname =>
    Text.char_notMem_display (by decide) fun hmem =>
      absurd (RefName.not_forbidden hname hmem) (by decide)
  refine RefName.eq_of_display_eq hname hname' ?_
  cases h with
  | deleted line =>
    cases h' with
    | deleted line' =>
      have htext := congrArg Printed.text (line.symm.trans line')
      exact List.append_cancel_left (List.append_cancel_right htext)
    | failed herr => rw [line] at herr; cases herr
  | failed herr begins =>
    cases h' with
    | deleted line' => rw [line'] at herr; cases herr
    | failed _ begins' =>
      -- the name reaches up to the first colon
      have hread : ∀ {name : RefName} {rest : Text}, RefName.parse name.text = .ok name →
          Text.of "Failed to delete " ++ (name.text.display ++ Text.of ": ") ++ rest = p.text →
          Text.cut (.char ':') (p.text.drop 17) = (name.text.display, .char ' ' :: rest) := by
        intro name rest hname htext
        rw [← htext, List.append_assoc, List.append_assoc]
        exact Text.cut_append (hcolon hname) _
      obtain ⟨rest, htext⟩ := begins
      obtain ⟨rest', htext'⟩ := begins'
      exact congrArg Prod.fst ((hread hname htext).symm.trans (hread hname' htext'))

end Report

namespace Command

open Report

/-- The words of the lines of a run that is not dry. -/
def reportWords : List Text := ["Deleted ", "Failed to delete "]

/-- The line about the outcome of a parsed name is printed without an error, and tells of the name.
-/
theorem tells_deletion {o : DeletionOutcome} (hname : RefName.parse o.name.text = .ok o.name) :
    ∃ p, deletion o = .ok p ∧ Tells o.name p := by
  cases hdeleted : o.deleted with
  | true => exact ⟨_, deletion_success hname hdeleted, .deleted rfl⟩
  | false =>
    obtain ⟨p, hok, hchannel, hbegins⟩ := deletion_failure hname hdeleted
    exact ⟨p, hok, .failed hchannel hbegins⟩

/-- The observer of the command takes what can be shown. -/
theorem takes_observer {names : List RefName}
    (hnames : ∀ name ∈ names, RefName.parse name.text = .ok name) :
    Takes (some observer) names := by
  intro seen outcome hname
  have hlast : (seen ++ [outcome]).getLast? = some outcome := List.getLast?_concat ..
  obtain ⟨p, hshown, -⟩ := tells_deletion (hnames _ hname)
  show observer (seen ++ [outcome]) = none
  rw [observer, hlast, Option.map_some, hshown]

/-- While a run goes on there is a line for each report, in their order. All other events print
lines that are not about a deletion, at any verbosity. -/
theorem saying_journal (verbosity : Nat) {journal : List Event}
    (hnames : ∀ o ∈ journal.filterMap Event.outcome?, RefName.parse o.name.text = .ok o.name) :
    List.Forall₂ Tells ((journal.filterMap Event.outcome?).map (·.name))
      (saying reportWords (journal.filterMap (printed? verbosity))) := by
  -- by induction on the journal: only a report prints a line that says a deletion's words
  induction journal with
  | nil => exact .nil
  | cons e rest ih =>
    rw [filterMap_printed?_cons, saying_append]
    cases hreported : e.outcome? with
    | none =>
      rw [List.filterMap_cons_none hreported] at hnames ⊢
      rw [saying_asides (by decide) (aside_printed? hreported)]
      exact ih hnames
    | some o =>
      obtain rfl := reported_of_outcome? hreported
      rw [List.filterMap_cons_some hreported] at hnames ⊢
      obtain ⟨p, hok, htells⟩ := tells_deletion (hnames o (.head _))
      have hline : (printed? verbosity (.reported o)).toList = [p] := by
        rw [printed?, hok]
        rfl
      have hsays : saying reportWords [p] = [p] := saying_all fun p' hp' => by
        rw [List.mem_singleton.1 hp']
        exact htells.says
      rw [hline, hsays]
      exact .cons htells (ih fun o ho => hnames o (.tail _ ho))

/-- A journal without reports has no lines about deletions. -/
theorem aside_journal {verbosity : Nat} {journal : List Event}
    (hnone : journal.filterMap Event.outcome? = []) :
    ∀ p ∈ journal.filterMap (printed? verbosity), Aside p := by
  intro p hp
  obtain ⟨e, he, hprinted⟩ := List.mem_filterMap.1 hp
  exact aside_printed? (List.filterMap_eq_nil_iff.1 hnone e he) p (Option.mem_toList.2 hprinted)

/-- A dry run says of each matched name, in order, that it would be deleted. -/
theorem saying_dryRun {result : PruneResult}
    (hnames : ∀ name ∈ result.matched, RefName.parse name.text = .ok name) :
    saying [Text.of "Would delete "] (Report.dryRun result) =
      result.matched.map (named .out "Would delete ") := by
  -- the note that nothing matches goes to standard error and says other words
  have hnote : saying [Text.of "Would delete "]
      (if result.matched.isEmpty then [plainLine .err "No references match."] else []) = [] := by
    split
    · decide +kernel
    · rfl
  have hlines : (result.matched.map fun name =>
      plainLine .out ("Would delete " ++ name.text.display)) =
        result.matched.map (named .out "Would delete ") :=
    List.map_congr_left fun name hname => plainLine_name .out (by decide) (hnames name hname)
  rw [Report.dryRun, saying_append, hnote, List.append_nil, hlines]
  refine saying_all fun p hp => ?_
  obtain ⟨name, -, rfl⟩ := List.mem_map.1 hp
  refine ⟨_, .head _, ?_⟩
  rw [named, List.append_assoc]
  exact List.prefix_append ..

section

variable {program : Text} {words words' : List Text} {env : Environment} {h : Host}
  {request : Request} {rid nid : Text} {home : Path}

/-- The names that the lines of an invocation are to be about; none if they cannot be told. -/
def predictedNames (request : Request) (home : Path) (rid nid : Text) (h : Host) : List RefName :=
  (predicted (Host.pick (config request home)) (config request home).storageRoot rid nid
    h).toOption.getD []

/-- Every predicted name is parsed back from its text. -/
theorem parse_of_mem_predictedNames (request : Request) (home : Path) (rid nid : Text) (h : Host) :
    ∀ name ∈ predictedNames request home rid nid h, RefName.parse name.text = .ok name := by
  unfold predictedNames
  cases hnames : predicted (Host.pick (config request home)) (config request home).storageRoot rid
      nid h with
  | error f => exact fun name hname => absurd hname List.not_mem_nil
  | ok names => exact Host.parse_of_mem_predicted hnames

/-- What a run that is not dry reports are outcomes of the predicted names, in their order, and of
nothing if they could not be predicted. -/
theorem reports_predictedNames (hwet : request.dryRun = false) {exchanges : List Exchange}
    (hheard : Heard (Host.pick (config request home)) (config request home).storageRoot rid nid h
      (Host.prune (config request home) rid nid (some observer) h) exchanges)
    (hrecovered : Recovered exchanges) :
    (Host.prune (config request home) rid nid (some observer) h).reports.map (·.name) =
      predictedNames request home rid nid h := by
  have houtcomes := Host.prune_wet_predicted _ hwet hheard hrecovered fun _ hnames =>
    takes_observer (Host.parse_of_mem_predicted hnames)
  unfold predictedNames
  cases hnames : predicted (Host.pick (config request home)) (config request home).storageRoot rid
      nid h with
  | error f =>
    -- a failure that was predicted comes before the first deletion, so nothing was reported
    have hnone : (Host.prune (config request home) rid nid (some observer) h).reports = [] :=
      pruneNamespace_reports_eq_nil _ _ _ _ (.inr (predicted_eq_error hnames))
    rw [hnone]
    rfl
  | ok names =>
    rw [hnames] at houtcomes
    cases hended : (Host.prune (config request home) rid nid (some observer) h).outcome with
    | error f => rw [hended] at houtcomes; cases houtcomes
    | ok result =>
      rw [hended] at houtcomes
      have hechoed : result.outcomes =
          (Host.prune (config request home) rid nid (some observer) h).reports :=
        pruneNamespace_echoes _ _ _ _ _ h result hended
      rw [← hechoed]
      exact Except.ok.inj houtcomes

/-- A run that is not dry prints one line for each of the names, in their order. -/
theorem saying_run (program : Text)
    (hdemand : demand words env.radHome h.files.namesFile = .prune request rid nid)
    (hhome : env.defaultHome = .ok home) (hwet : request.dryRun = false) {exchanges : List Exchange}
    (hheard : Heard (Host.pick (config request home)) (config request home).storageRoot rid nid h
      (Host.prune (config request home) rid nid (some observer) h) exchanges)
    (hrecovered : Recovered exchanges) :
    List.Forall₂ Tells (predictedNames request home rid nid h)
      (saying reportWords (run program words env h).1.printed) := by
  have hreports := reports_predictedNames hwet hheard hrecovered
  have hnames : ∀ o ∈ (Host.prune (config request home) rid nid (some observer) h).reports,
      RefName.parse o.name.text = .ok o.name := fun o ho =>
    parse_of_mem_predictedNames request home rid nid h o.name (hreports ▸ List.mem_map_of_mem ho)
  have hlines := saying_journal request.verbosity hnames
  have hconclusion := aside_conclusion program (config request home) rid nid (some observer) h
  obtain ⟨before, hbefore, hprinted⟩ := printed_run program hdemand hhome
  -- only what is printed while the run goes on speaks of deletions
  rw [hprinted, hwet, saying_append, saying_append, saying_asides (by decide) hbefore,
    saying_asides (by decide) hconclusion, List.nil_append, List.append_nil, ← hreports]
  exact hlines

/-- A dry run prints the lines of the predicted names, in their order. They are all printed at its
end, as it reports nothing on the way. -/
theorem saying_dry (program : Text)
    (hdemand : demand words env.radHome h.files.namesFile = .prune request rid nid)
    (hhome : env.defaultHome = .ok home) (hdry : request.dryRun = true) :
    saying [Text.of "Would delete "] (run program words env h).1.printed =
      (predictedNames request home rid nid h).map (named .out "Would delete ") := by
  have hsilent : (Host.prune (config request home) rid nid (some observer) h).reports = [] :=
    pruneNamespace_reports_eq_nil _ _ _ _ (.inl hdry)
  -- the lines are printed at the end of the run, as the run itself reports nothing
  have hconclusion : saying [Text.of "Would delete "] (conclusion program true
      (Host.prune (config request home) rid nid (some observer) h).outcome).printed =
        (predictedNames request home rid nid h).map (named .out "Would delete ") := by
    have hmatched := Host.prune_dry_predicted (config request home) rid nid (some observer) h hdry
    have hparse := parse_of_mem_predictedNames request home rid nid h
    unfold predictedNames at hparse ⊢
    rw [← hmatched] at hparse ⊢
    cases hended : (Host.prune (config request home) rid nid (some observer) h).outcome with
    | error f => exact saying_asides (by decide) aside_failed
    | ok result =>
      rw [hended] at hparse
      exact saying_dryRun hparse
  obtain ⟨before, hbefore, hprinted⟩ := printed_run program hdemand hhome
  rw [hprinted, hdry, saying_append, saying_append, saying_asides (by decide) hbefore,
    saying_asides (by decide) (aside_journal hsilent), hconclusion]
  rfl

/-- The lines of a run tell which names they are about. This is how the lines of a dry run and of
the other one are compared. -/
theorem eq_of_forall₂_tells {names names' : List RefName} {ps : List Printed}
    (hlines : List.Forall₂ Tells names ps) (hlines' : List.Forall₂ Tells names' ps)
    (hnames : ∀ name ∈ names, RefName.parse name.text = .ok name)
    (hnames' : ∀ name ∈ names', RefName.parse name.text = .ok name) : names = names' := by
  induction hlines generalizing names' with
  | nil =>
    cases hlines'
    rfl
  | cons htells _ ih =>
    cases hlines' with
    | cons htells' hrest' =>
      rw [htells.unique htells' (hnames _ (.head _)) (hnames' _ (.head _)),
        ih hrest' (fun n hn => hnames n (.tail _ hn)) fun n hn => hnames' n (.tail _ hn)]

end

/-- A dry run predicts the run that it stands for. With any storage that closes it asks for no
deletion and no compaction, and gives the names that the other run, from the same state, matches and
has the outcomes for (`Predicts`). On a host, where closing does not fail, it leaves everything as
it is. On the command line, where `--dry-run` turns one into the other, the lines of the names that
would be deleted are those of the names that then are deleted or cannot be, in the order in which
they are printed. -/
theorem dry_run_predicts {σ η : Type} (pick : Identifier → σ → Answer σ (Storage σ η))
    (config : Config) (rid peer : Text) (s : σ) (h : Host) :
    ((∀ observer,
        ∀ c ∈ (pruneNamespace pick { config with dryRun := true } rid peer observer s).calls,
          c ≠ .compacted ∧ ∀ name, c ≠ .deleted name) ∧
      ((∀ o, (openNamespace pick config.storageRoot rid peer s).outcome = .ok o →
        ∀ t, (o.storage.close o.handle t).result = .ok ()) → Predicts pick config rid peer s)) ∧
    ((∀ observer,
        Host.Untouched h (Host.prune { config with dryRun := true } rid peer observer h).after) ∧
      Predicts (Host.pick config) config rid peer h) ∧
    ∀ program words env request rid nid,
      demand words env.radHome h.files.namesFile = .prune request rid nid →
      request.dryRun = false →
      (∀ home exchanges, env.defaultHome = .ok home →
        Heard (Host.pick (Command.config request home)) (Command.config request home).storageRoot
          rid nid h (Host.prune (Command.config request home) rid nid (some observer) h) exchanges →
        Recovered exchanges) →
      let dryDemand := Demand.prune { request with dryRun := true } rid nid
      demand (Text.of "--dry-run" :: words) env.radHome h.files.namesFile = dryDemand ∧
      ∀ words', demand words' env.radHome h.files.namesFile = dryDemand →
        ∃ names, (∀ name ∈ names, RefName.parse name.text = .ok name) ∧
          saying [Text.of "Would delete "] (run program words' env h).1.printed =
            names.map (named .out "Would delete ") ∧
          let lines := saying reportWords (run program words env h).1.printed
          List.Forall₂ Tells names lines ∧
            ∀ names', (∀ name ∈ names', RefName.parse name.text = .ok name) →
              List.Forall₂ Tells names' lines → names' = names := by
  refine ⟨⟨fun observer => ?_, predicts_of_closes⟩, ⟨fun observer => ?_, ?_⟩, ?_⟩
  · exact pruneNamespace_dry_calls rfl
  · exact Host.prune_dry_untouched rfl rid peer observer h
  · exact Host.predicts config rid peer h
  · intro program words env request rid nid hdemand hwet hrecovered dryDemand
    refine ⟨demand_dryRun hdemand, fun words' hdemand' => ?_⟩
    cases hhome : env.defaultHome with
    | error cause =>
      have hasides := aside_homeless program hdemand hhome
      have hasides' := aside_homeless program hdemand' hhome
      refine ⟨[], fun name hname => absurd hname List.not_mem_nil, ?_, ?_⟩
      · exact saying_asides (by decide) hasides'
      · rw [saying_asides (by decide) hasides]
        exact ⟨.nil, fun names' _ hlines' => by cases hlines'; rfl⟩
    | ok home =>
      obtain ⟨exchanges, hheard⟩ := exists_heard (Host.pick (Command.config request home))
        (Command.config request home) rid nid (some observer) h
      have hlines := saying_run program hdemand hhome hwet hheard
        (hrecovered home exchanges hhome hheard)
      -- what is predicted does not depend on whether the run is dry
      have hdry := saying_dry program hdemand' hhome rfl
      have hparse := parse_of_mem_predictedNames request home rid nid h
      refine ⟨predictedNames request home rid nid h, hparse, hdry, hlines,
        fun names' hnames' hlines' => ?_⟩
      exact eq_of_forall₂_tells hlines' hlines hnames' hparse

end Command

namespace Sample

/-- The names in the sample store hold no stray bytes. -/
theorem strayRun?_of_stores_host {handle : Handle} {d : Database}
    (hstored : Host.Stores handle host d) : ∀ row ∈ d.store.refRows, row.name.strayRun? = none := by
  obtain ⟨-, address, -, hheld⟩ := hstored
  obtain ⟨place, hplace⟩ := hheld.mem_entries
  simp only [host, List.mem_cons, Prod.mk.injEq, reduceCtorEq, and_false, List.not_mem_nil,
    false_or, or_false, Entry.database.injEq] at hplace
  rw [hplace.2]
  decide +kernel

end Sample

namespace Command

open Report Sample in
/-- The deletion of one name meets a lock and that of the other one a guard; the dry run names both.
-/
theorem dry_run_predicts_refused :
    let env : Environment := ⟨some "/home", "/root", []⟩
    let names := predicted (Host.pick Sample.config) Sample.config.storageRoot "repo" "alice" host
    (∃ exchanges,
      let wet :=
        Host.prune { Sample.config with dryRun := false } "repo" "alice" (some observer) host
      Heard (Host.pick Sample.config) Sample.config.storageRoot "repo" "alice" host wet exchanges ∧
        Recovered exchanges ∧ wet.outcome.map (·.outcomes.map (·.name)) = names) ∧
    ∃ names, names.map (named .out "Would delete ") =
        [⟨.out, "Would delete namespaces/alice/x\n"⟩,
          ⟨.out, "Would delete namespaces/alice/y\n"⟩] ∧
      List.Forall₂ Tells names
        (saying reportWords (run "nsprune" ["repo", "alice"] env host).1.printed) := by
  intro env names
  obtain ⟨⟨-, hgeneral⟩, -, hcommand⟩ :=
    dry_run_predicts (Host.pick Sample.config) Sample.config "repo" "alice" host host
  -- the storages of the host always close, and its names hold no stray bytes
  have hpredicts := hgeneral fun _ => Host.closes_opened
  constructor
  · obtain ⟨exchanges, hheard, hwet⟩ := hpredicts.wet (some observer)
    have hrecovered : Recovered exchanges :=
      Host.prune_recovered { Sample.config with dryRun := false } hheard fun _ _ =>
        strayRun?_of_stores_host
    obtain ⟨-, houtcomes⟩ := hwet hrecovered fun _ hnames =>
      takes_observer (Host.parse_of_mem_predicted hnames)
    exact ⟨exchanges, hheard, hrecovered, houtcomes⟩
  · obtain ⟨-, hlines⟩ := hcommand "nsprune" ["repo", "alice"] env _ _ _ rfl rfl
      fun home exchanges _ hheard =>
        Host.prune_recovered _ hheard fun _ _ => strayRun?_of_stores_host
    obtain ⟨names, -, hdry, htells, -⟩ := hlines ["--dry-run", "repo", "alice"] rfl
    refine ⟨names, hdry.symm.trans ?_, htells⟩
    decide +kernel

end Command

end RefSweep
