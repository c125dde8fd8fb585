import RefSweep.Proofs.Account
import RefSweep.Proofs.Opening

/-!
# What a run reports

A caller that watches a run sees the outcomes one by one. `Faithful` activities report exactly the
deletions that the storage has answered with success, in the order of its answers, also when they
fail in the end. Main statements: `pruneNamespace_reports`, every run is faithful, whatever the
storage and the observer do, and `pruneNamespace_echoes`, the result of a run holds what was
reported.
-/

namespace RefSweep

variable {σ η α β : Type}

/-- The outcomes that were handed to the caller. -/
def Run.reports (r : Run σ α) : List DeletionOutcome := r.journal.filterMap Event.outcome?

/-- The names whose deletion the storage has answered with success, in the order of its answers. -/
def succeeded (es : List Exchange) : List RefName :=
  es.filterMap fun e =>
    match e.call, e.ending with
    | .deleted name, none => some name
    | _, _ => none

theorem succeeded_append (es es' : List Exchange) :
    succeeded (es ++ es') = succeeded es ++ succeeded es' := List.filterMap_append

theorem deletedNames_append (os os' : List DeletionOutcome) :
    deletedNames (os ++ os') = deletedNames os ++ deletedNames os' := by
  simp [deletedNames]

/-- Only a name that the storage was asked to delete can be among those whose deletion it has
answered with success. -/
theorem mem_succeeded {es : List Exchange} {name : RefName} (h : name ∈ succeeded es) :
    ∃ e ∈ es, e.call = .deleted name := by
  obtain ⟨e, he, hsome⟩ := List.mem_filterMap.1 h
  refine ⟨e, he, ?_⟩
  split at hsome
  next hcall _ => rw [hcall, Option.some.inj hsome]
  · cases hsome

theorem succeeded_compactions (endings : List (Option Failure)) :
    succeeded (round .compacted endings) = [] := by
  simp [succeeded, round, List.filterMap_map]

/-- A round of attempts succeeds at most with the last one, as each attempt before it has met a
lock. -/
theorem succeeded_round {limit : Nat} {endings : List (Option Failure)} {last : Option Failure}
    (name : RefName) (hpers : Persistent limit endings) (hlast : endings.getLast? = some last) :
    succeeded (round (.deleted name) endings) = if last = none then [name] else [] := by
  obtain ⟨front, rfl⟩ := List.getLast?_eq_some_iff.1 hlast
  -- before the last attempt each one has met a lock
  have hfront : ∀ ending ∈ front, ending ≠ none := by
    intro ending hmem hnone
    obtain ⟨i, hi, hget⟩ := List.mem_iff_getElem.1 hmem
    have hlock := hpers.metLock_of_lt (i := i) (by simp [hi])
    rw [List.getElem_append_left hi, hget, hnone] at hlock
    cases hlock
  have hnone : succeeded (round (.deleted name) front) = [] := by
    refine List.filterMap_eq_nil_iff.2 fun e he => ?_
    obtain ⟨ending, hmem, rfl⟩ := List.mem_map.1 he
    cases ending with
    | none => exact absurd rfl (hfront none hmem)
    | some f => rfl
  have hsplit : round (.deleted name) (front ++ [last]) =
      round (.deleted name) front ++ [⟨.deleted name, last⟩] := by simp [round]
  rw [hsplit, succeeded_append, hnone]
  cases last <;> rfl

/-! ## Reports of composed activities -/

namespace Activity

/-- An activity that goes on reports first what it has reported so far. -/
theorem reports_bind_of_ok {a : Activity σ α} {next : α → Activity σ β} {s : σ} {v : α}
    (h : (a s).outcome = .ok v) :
    ((a >>= next) s).reports = (a s).reports ++ (next v (a s).after).reports := by
  rw [bind_of_ok h]
  exact List.filterMap_append ..

/-- What follows a failed activity is not carried out and reports nothing. -/
theorem reports_bind_of_error {a : Activity σ α} {next : α → Activity σ β} {s : σ} {f : Failure}
    (h : (a s).outcome = .error f) : ((a >>= next) s).reports = (a s).reports := by
  rw [bind_of_error h]
  rfl

theorem reports_log_bind (level : Level) (text : Text) (next : Unit → Activity σ β) (s : σ) :
    ((log level text >>= next) s).reports = (next () s).reports := rfl

/-- The activity reports nothing. -/
def Silent (a : Activity σ α) : Prop := ∀ s, (a s).reports = []

theorem Silent.bind {a : Activity σ α} {next : α → Activity σ β} (ha : Silent a)
    (hnext : ∀ v, Silent (next v)) : Silent (a >>= next) := Omits.bind ha hnext

theorem silent_pure (a : α) : Silent (pure a : Activity σ α) := fun _ => rfl

theorem silent_fail (f : Failure) : Silent (fail f : Activity σ α) := fun _ => rfl

theorem silent_log (level : Level) (text : Text) : Silent (log level text : Activity σ Unit) :=
  fun _ => rfl

theorem silent_call (c : Call) (operation : σ → Answer σ α) : Silent (call c operation) :=
  omits_call (fun _ => rfl) rfl operation

theorem Silent.attempt {a : Activity σ α} (ha : Silent a) : Silent a.attempt := ha

theorem reports_noting (text : Text) (a : Activity σ α) (s : σ) :
    (a.noting text s).reports = (a s).reports := filterMap_noting (fun _ => rfl) text a s

theorem Silent.during {a : Activity σ α} (ha : Silent a) (rid : Identifier) (stage : Stage) :
    Silent (during rid stage a) := fun s => (reports_noting _ a s).trans (ha s)

theorem reports_closing (a : Activity σ α) (last : Activity σ Unit) (s : σ) :
    (a.closing last s).reports = (a s).reports ++ (last (a s).after).reports :=
  List.filterMap_append ..

/-- Attempts at a silent activity are silent together: warnings and pauses are all that stands
between them. -/
theorem silent_retrying (retry : Option RetryPolicy) {a : Activity σ α} (ha : Silent a) :
    Silent (retrying retry a) := by
  cases retry with
  | none => exact ha
  | some p =>
    intro s
    obtain ⟨m, -, -, -, hrun⟩ := retryFrom_attempts p a p.further 1 s
    rw [retrying, retryingOn, Run.reports, hrun,
      filterMap_journalOf (fun _ _ => rfl) (fun _ => rfl)]
    exact List.flatMap_eq_nil_iff.2 fun i _ => ha _

theorem outcomes_told (watch : Observer) (outcome : DeletionOutcome) :
    (told (some watch) outcome).filterMap Event.outcome? = [outcome] := rfl

end Activity

open Activity

/-- Attempting a deletion reports nothing yet. The outcome is handed over by what calls it, after
the last attempt. -/
theorem silent_attemptDeletion (storage : Storage σ η) (handle : η) (retry : Option RetryPolicy)
    (reference : Reference) : Silent (attemptDeletion storage handle retry reference) := by
  refine Silent.bind (silent_retrying retry (silent_call _ _)).attempt fun ending => ?_
  match ending with
  | .ok _ => exact Silent.bind (silent_log _ _) fun _ => silent_pure _
  | .error (.error e) => exact Silent.bind (silent_log _ _) fun _ => silent_pure _
  | .error (.foreign cause) => exact silent_fail _

theorem silent_listReferences (storage : Storage σ η) (handle : η) :
    Silent (listReferences storage handle) := silent_call _ _

/-- A compaction is recorded in the result and not reported, whether it succeeds, fails or escapes.
-/
theorem silent_compactRepository (storage : Storage σ η) (handle : η) (retry : Option RetryPolicy) :
    Silent (compactRepository storage handle retry) := by
  refine Silent.bind (silent_retrying retry (silent_call _ _)).attempt fun ending => ?_
  match ending with
  | .ok _ => exact Silent.bind (silent_log _ _) fun _ => silent_pure _
  | .error (.error e) => exact Silent.bind (silent_log _ _) fun _ => silent_pure _
  | .error (.foreign cause) => exact silent_fail _

/-! ## Faithful activities -/

/-- The activity reports exactly the deletions that the storage answers with success. -/
def Faithful (storage : Storage σ η) (handle : η) (a : Activity σ α) : Prop :=
  ∀ s, ∃ es, Performs storage handle s (a s) es ∧ deletedNames (a s).reports = succeeded es

namespace Faithful

variable {storage : Storage σ η} {handle : η}

/-- Faithful activities may follow one another, whatever value is handed on: the reports are put
together as the exchanges are. -/
theorem bind {a : Activity σ α} {next : α → Activity σ β} (ha : Faithful storage handle a)
    (hnext : ∀ v, Faithful storage handle (next v)) : Faithful storage handle (a >>= next) := by
  intro s
  obtain ⟨es, hperf, htold⟩ := ha s
  cases h : (a s).outcome with
  | ok v =>
    obtain ⟨es', hperf', htold'⟩ := hnext v (a s).after
    refine ⟨es ++ es', hperf.bind_of_ok h hperf', ?_⟩
    rw [reports_bind_of_ok h, deletedNames_append, succeeded_append, htold, htold']
  | error f =>
    refine ⟨es, hperf.bind_of_error h, ?_⟩
    rw [reports_bind_of_error h, htold]

/-- An activity that neither asks for a deletion that could succeed nor reports anything. -/
theorem of_silent {a : Activity σ α} (hsilent : Silent a)
    (hperf : ∀ s, ∃ es, Performs storage handle s (a s) es ∧ succeeded es = []) :
    Faithful storage handle a := by
  intro s
  obtain ⟨es, hperf, hnone⟩ := hperf s
  exact ⟨es, hperf, by rw [hsilent s, hnone]; rfl⟩

/-- A log line in front changes nothing about reports and answers. -/
theorem log_bind {level : Level} {text : Text} {next : Unit → Activity σ β}
    (h : Faithful storage handle (next ())) :
    Faithful storage handle (log level text >>= next) := by
  intro s
  obtain ⟨es, hperf, htold⟩ := h s
  exact ⟨es, hperf.log_bind, htold⟩

theorem pure (a : α) : Faithful storage handle (pure a : Activity σ α) :=
  fun _ => ⟨[], .nothing rfl rfl, rfl⟩

/-- An activity is as faithful in the body of a stage as outside it. -/
theorem during {a : Activity σ α} (ha : Faithful storage handle a) (rid : Identifier)
    (stage : Stage) : Faithful storage handle (during rid stage a) := by
  intro s
  obtain ⟨es, hperf, htold⟩ := ha s
  exact ⟨es, hperf.during rid stage, by rw [← htold]; exact congrArg _ (reports_noting _ a s)⟩

/-- An activity that is faithful stays so with a faithful one run behind it, in the end and on every
path. -/
theorem closing {a : Activity σ α} {last : Activity σ Unit} (ha : Faithful storage handle a)
    (hlast : Faithful storage handle last) : Faithful storage handle (a.closing last) := by
  intro s
  obtain ⟨es, hperf, htold⟩ := ha s
  obtain ⟨es', hperf', htold'⟩ := hlast (a s).after
  refine ⟨es ++ es', hperf.closing hperf', ?_⟩
  rw [succeeded_append, ← htold, ← htold', ← deletedNames_append, reports_closing]

end Faithful

section Runs

variable (storage : Storage σ η) (handle : η)

/-- An attempted deletion succeeds with the storage exactly if its outcome says so: no success is
lost and none is made up. -/
theorem attemptDeletion_succeeded (retry : Option RetryPolicy) (reference : Reference) (s : σ) :
    let attempted := attemptDeletion storage handle retry reference s
    ∃ es, Performs storage handle s attempted es ∧
      succeeded es = match attempted.outcome with
        | .ok outcome => deletedNames [outcome]
        | .error _ => [] := by
  obtain ⟨endings, last, hperf, hpers, hlast, hout⟩ :=
    attemptDeletion_performs storage handle retry reference s
  refine ⟨_, hperf, ?_⟩
  rw [succeeded_round reference.name hpers hlast, hout]
  -- only an ending without any failure counts as a deletion on both sides
  match last with
  | none => rfl
  | some (.error e) => rfl
  | some (.foreign cause) => rfl

/-- Deletions that are watched are reported as they are answered, and the outcomes they give are
those that were reported. -/
theorem deleteEach_reports (retry : Option RetryPolicy) (watch : Observer)
    (references : List Reference) (seen : List DeletionOutcome) (s : σ) :
    let deleting := deleteEach storage handle retry (some watch) seen references s
    (∃ es, Performs storage handle s deleting es ∧
      deletedNames deleting.reports = succeeded es) ∧
    ∀ outcomes, deleting.outcome = .ok outcomes → outcomes = seen ++ deleting.reports := by
  -- for all outcomes in front, as each deletion adds its own to them
  induction references generalizing seen s with
  | nil =>
    refine ⟨⟨[], .nothing rfl rfl, rfl⟩, fun outcomes hok => ?_⟩
    rw [← Except.ok.inj hok]
    exact (List.append_nil seen).symm
  | cons reference rest ih =>
    dsimp only
    obtain ⟨es, hperf, hsucceeded⟩ := attemptDeletion_succeeded storage handle retry reference s
    have hsilent : (attemptDeletion storage handle retry reference s).journal.filterMap
        Event.outcome? = [] := silent_attemptDeletion storage handle retry reference s
    rcases deleteEach_cons storage handle retry (some watch) reference rest seen s with
      ⟨f, hf, hrun⟩ | ⟨outcome, f, ho, -, hrun⟩ | ⟨outcome, ho, -, hrun⟩
    · rw [hf] at hsucceeded
      rw [hrun]
      refine ⟨⟨es, ⟨hperf.calls, hperf.states⟩, ?_⟩, fun outcomes hok => by cases hok⟩
      rw [Run.reports, hsilent, hsucceeded]
      rfl
    · -- the observer has seen the outcome before it ends the run
      rw [ho] at hsucceeded
      rw [hrun]
      refine ⟨⟨es, hperf.tell _, ?_⟩, fun outcomes hok => by cases hok⟩
      rw [Run.reports, List.filterMap_append, hsilent, outcomes_told, hsucceeded]
      rfl
    · rw [ho] at hsucceeded
      obtain ⟨⟨es', hperf', htold⟩, hechoes⟩ := ih (seen ++ [outcome])
        (attemptDeletion storage handle retry reference s).after
      rw [hrun]
      refine ⟨⟨es ++ es', hperf.tell_then hperf', ?_⟩, fun outcomes hok => ?_⟩
      · rw [Run.reports, List.filterMap_append, List.filterMap_append, hsilent, outcomes_told,
          List.nil_append, deletedNames_append, succeeded_append, hsucceeded, ← htold]
        rfl
      · rw [hechoes outcomes hok, Run.reports, Run.reports, List.filterMap_append,
          List.filterMap_append, hsilent, outcomes_told, List.append_assoc]
        rfl

theorem faithful_listReferences : Faithful storage handle (listReferences storage handle) :=
  .of_silent (silent_listReferences storage handle) fun s =>
    ⟨_, (listReferences_performs storage handle s).1, rfl⟩

/-- With a complete listing, all that is added to the deletions themselves is to give their
outcomes. -/
theorem faithful_pruneReferences (retry : Option RetryPolicy) (watch : Observer)
    (matched : List Reference) :
    Faithful storage handle
      (pruneReferences storage handle retry (some watch) ⟨matched, none⟩) := by
  intro s
  rw [pruneReferences_eq]
  exact (deleteEach_reports storage handle retry watch matched [] s).1

/-- The attempts at a compaction are calls, but no deletions. -/
theorem faithful_compactRepository (retry : Option RetryPolicy) :
    Faithful storage handle (compactRepository storage handle retry) := by
  refine .of_silent (silent_compactRepository storage handle retry) fun s => ?_
  obtain ⟨endings, -, hperf, -⟩ := compactRepository_performs storage handle retry s
  exact ⟨_, hperf, succeeded_compactions endings⟩

/-- The part of a run for which the repository is open is put together of stages, each of them
faithful; only the deletions have anything to report. -/
theorem faithful_pruneOpened (config : Config) (rid : Identifier) (peer : Peer) (watch : Observer) :
    Faithful storage handle (pruneOpened storage handle config rid peer (some watch)) := by
  have hlisting := (faithful_listReferences storage handle).during rid .filtering
  unfold pruneOpened
  refine .log_bind (.log_bind (hlisting.bind fun references => .log_bind ?_))
  split
  · exact .log_bind (.pure _)
  · -- the deletions report, and nothing after them
    have hdeleting := (faithful_pruneReferences storage handle
      (some ⟨config.attempts, config.waitMax⟩) watch (peer.owned references)).during rid .deleting
    have hcompacting := (faithful_compactRepository storage handle
      (some ⟨config.attempts, config.waitMax⟩)).during rid .compacting
    exact .log_bind (hdeleting.bind fun outcomes =>
      .log_bind (hcompacting.bind fun compaction => .log_bind (.pure _)))

end Runs

/-! ## Results hold what was reported -/

/-- Of each value that the activity gives, `said` is what was reported on the way. -/
def Echoes (said : α → List DeletionOutcome) (a : Activity σ α) : Prop :=
  ∀ s v, (a s).outcome = .ok v → said v = (a s).reports

namespace Echoes

variable {said : β → List DeletionOutcome}

/-- What is echoed is not changed by a silent activity in front. -/
theorem silent_bind {a : Activity σ α} {next : α → Activity σ β} (ha : Silent a)
    (hnext : ∀ v, Echoes said (next v)) : Echoes said (a >>= next) := by
  intro s b hb
  obtain ⟨v, hv, hrest, -⟩ := bind_eq_ok hb
  rw [reports_bind_of_ok hv, ha s, hnext v _ b hrest]
  rfl

/-- What is echoed is not changed by a silent activity behind, if the value that this gives holds
what was echoed before. -/
theorem bind_silent {a : Activity σ α} {next : α → Activity σ β}
    {before : α → List DeletionOutcome} (ha : Echoes before a) (hnext : ∀ v, Silent (next v))
    (hsaid : ∀ v s b, (next v s).outcome = .ok b → said b = before v) :
    Echoes said (a >>= next) := by
  intro s b hb
  obtain ⟨v, hv, hrest, -⟩ := bind_eq_ok hb
  rw [reports_bind_of_ok hv, hnext v, List.append_nil, ← ha s v hv]
  exact hsaid v _ b hrest

theorem of_silent {a : Activity σ β} (ha : Silent a)
    (hsaid : ∀ s b, (a s).outcome = .ok b → said b = []) : Echoes said a :=
  fun s b hb => (hsaid s b hb).trans (ha s).symm

end Echoes

/-- The deletions give exactly the outcomes that were reported. -/
theorem echoes_pruneReferences (storage : Storage σ η) (handle : η) (retry : Option RetryPolicy)
    (watch : Observer) (matched : List Reference) (rid : Identifier) (stage : Stage) :
    Echoes id (during rid stage
      (pruneReferences storage handle retry (some watch) ⟨matched, none⟩)) := by
  intro s outcomes hok
  rw [outcome_during, pruneReferences_eq] at hok
  have hreported : (during rid stage (pruneReferences storage handle retry (some watch)
      ⟨matched, none⟩) s).reports = _ := reports_noting _ _ s
  rw [hreported, pruneReferences_eq]
  exact (deleteEach_reports storage handle retry watch matched [] s).2 outcomes hok

/-- The result of the part of a run for which the repository is open holds exactly the outcomes that
were reported, none in a dry run. -/
theorem echoes_pruneOpened (storage : Storage σ η) (handle : η) (config : Config)
    (rid : Identifier) (peer : Peer) (watch : Observer) :
    Echoes PruneResult.outcomes
      (pruneOpened storage handle config rid peer (some watch)) := by
  have hlisting := (silent_listReferences storage handle).during rid .filtering
  unfold pruneOpened
  refine .silent_bind (silent_log _ _) fun _ => .silent_bind (silent_log _ _) fun _ =>
    .silent_bind hlisting fun references => .silent_bind (silent_log _ _) fun _ => ?_
  split
  · refine .of_silent (.bind (silent_log _ _) fun _ => silent_pure _) fun s b hb => ?_
    rw [← Except.ok.inj hb]
  · refine .silent_bind (silent_log _ _) fun _ =>
      .bind_silent (echoes_pruneReferences storage handle _ watch _ rid .deleting)
        (fun outcomes => ?_) fun outcomes s b hb => ?_
    · -- the compaction is silent, and the result that follows it holds the outcomes it was made of
      have hcompacting := (silent_compactRepository storage handle
        (some ⟨config.attempts, config.waitMax⟩)).during rid .compacting
      exact .bind (silent_log _ _) fun _ => hcompacting.bind fun _ =>
        .bind (silent_log _ _) fun _ => silent_pure _
    · obtain ⟨-, -, hb, -⟩ := bind_eq_ok hb
      obtain ⟨compaction, -, hb, -⟩ := bind_eq_ok hb
      obtain ⟨-, -, hb, -⟩ := bind_eq_ok hb
      rw [← Except.ok.inj hb]
      rfl

/-- Without a complete listing nothing is reported, and neither is in a dry run, since only the
deletions report. -/
theorem reports_pruneOpened_eq_nil {storage : Storage σ η} {handle : η} {config : Config} {s : σ}
    (h : config.dryRun = true ∨ (storage.references handle s).1.failure ≠ none) (rid : Identifier)
    (peer : Peer) (observer : Option Observer) :
    (pruneOpened storage handle config rid peer observer s).reports = [] := by
  have hlisting := (silent_listReferences storage handle).during rid .filtering
  unfold pruneOpened advance
  rw [reports_log_bind, reports_log_bind]
  -- a dry run goes past the deletions, and a listing that fails ends the run before them
  rcases h with hdry | hfailed
  · refine Silent.bind hlisting (fun references => .bind (silent_log _ _) fun _ => ?_) s
    rw [if_pos hdry]
    exact .bind (silent_log _ _) fun _ => silent_pure _
  · obtain ⟨f, hf⟩ := Option.ne_none_iff_exists'.1 hfailed
    have hout : (during rid .filtering (listReferences storage handle) s).outcome = .error f := by
      rw [outcome_during, (listReferences_performs storage handle s).2, Listing.all, hf]
    rw [reports_bind_of_error hout, hlisting]

/-! ## Whole runs -/

section Namespace

variable (pick : Identifier → σ → Answer σ (Storage σ η)) (config : Config) (rid peer : Text)
  (watch : Observer)

theorem silent_openNamespace (root : Path) : Silent (openNamespace pick root rid peer) :=
  omits_openNamespace (fun _ => rfl) (fun _ => rfl)

/-- Every run reports exactly the deletions that its storage has answered with success, in their
order, whether it comes to a result or is cut short. -/
theorem pruneNamespace_reports (s : σ) :
    let run := pruneNamespace pick config rid peer (some watch) s
    ∃ exchanges, Heard pick config.storageRoot rid peer s run exchanges ∧
      deletedNames run.reports = succeeded exchanges := by
  have hsilent := silent_openNamespace pick rid peer config.storageRoot s
  cases hopen : (openNamespace pick config.storageRoot rid peer s).outcome with
  | error f =>
    refine ⟨[], .nothing hopen, ?_⟩
    obtain ⟨-, -, hjournal⟩ := pruneNamespace_of_error (some watch) hopen
    rw [Run.reports, hjournal]
    exact congrArg deletedNames hsilent
  | ok o =>
    -- opening and closing report nothing, so what is told comes from the part in between
    have hclose : Faithful o.storage o.handle (call .closed (o.storage.close o.handle)) :=
      .of_silent (silent_call _ _) fun s => ⟨_, .single (.closed s), rfl⟩
    obtain ⟨exchanges, hperf, htold⟩ := (faithful_pruneOpened o.storage o.handle config o.id
      o.owner watch).closing hclose (openNamespace pick config.storageRoot rid peer s).after
    refine ⟨exchanges, .talked hopen ?_ ?_, ?_⟩
    · rw [pruneNamespace_eq_bind, calls_bind_of_ok hopen, calls_openNamespace hopen, hperf.calls]
      rfl
    · rw [pruneNamespace_eq_bind, bind_of_ok hopen]
      exact hperf.states
    · rw [pruneNamespace_eq_bind, reports_bind_of_ok hopen, hsilent]
      exact htold

/-- A dry run reports nothing, and neither does one that has no complete listing. -/
theorem pruneNamespace_reports_eq_nil {observer : Option Observer} {s : σ}
    (h : config.dryRun = true ∨
      ∀ o, (openNamespace pick config.storageRoot rid peer s).outcome = .ok o →
        (o.storage.references o.handle
          (openNamespace pick config.storageRoot rid peer s).after).1.failure ≠ none) :
    (pruneNamespace pick config rid peer observer s).reports = [] := by
  have hsilent := silent_openNamespace pick rid peer config.storageRoot s
  rw [pruneNamespace_eq_bind]
  cases hopen : (openNamespace pick config.storageRoot rid peer s).outcome with
  | error f => rw [reports_bind_of_error hopen, hsilent]
  | ok o =>
    rw [reports_bind_of_ok hopen, hsilent, reports_closing, silent_call,
      reports_pruneOpened_eq_nil (h.imp_right fun hfailed => hfailed o hopen)]
    rfl

/-- The result of a run holds the outcomes that were reported. -/
theorem pruneNamespace_echoes :
    Echoes PruneResult.outcomes (pruneNamespace pick config rid peer (some watch)) := by
  rw [pruneNamespace_eq_bind]
  refine .silent_bind (silent_openNamespace pick rid peer config.storageRoot)
    fun o s result hok => ?_
  have hopened := echoes_pruneOpened o.storage o.handle config o.id o.owner watch s result
    (closing_eq_ok hok)
  have hclosed := silent_call .closed (o.storage.close o.handle)
    (pruneOpened o.storage o.handle config o.id o.owner (some watch) s).after
  rw [reports_closing, hopened, hclosed, List.append_nil]

end Namespace

end RefSweep
