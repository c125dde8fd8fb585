import RefSweep.Proofs.Ending
import RefSweep.Proofs.Opening
import RefSweep.Proofs.Retry

/-!
# The visits of a run

A run takes its references one after another. The attempts at one of them are its visit: it begins
in the state where the visit before has ended, and the compaction begins where the last one ends. A
pause stands between two attempts and nowhere else in a run. `Repeated` says what the attempts at
one operation leave, and `Carried` how a run is put together. Main statements:
`attemptDeletion_repeated` and `compactRepository_repeated`, what decides how many attempts there
are; `pruneNamespace_carried`, every run that is not dry consists of visits and at most one
compaction, and so do its pauses and its result.
-/

namespace RefSweep

open Activity

variable {σ η α β : Type}

/-- The pauses of a run, in order. -/
def Run.pauses (r : Run σ α) : List Seconds := r.journal.filterMap Event.pause?

/-! ## The attempts at one operation -/

/-- The state in which attempt number `i`, from 0, begins of those that follow one another from this
state on. -/
def attemptState (operation : σ → Answer σ α) (s : σ) (i : Nat) : σ :=
  (fun t => (operation t).state)^[i] s

/-- How this attempt ends. -/
def attemptEnding (operation : σ → Answer σ α) (s : σ) (i : Nat) : Option Failure :=
  endingOf (operation (attemptState operation s i)).result

/-- What the attempts at an operation leave in a run, of which `m` follow the first one. -/
structure Repeated (p : RetryPolicy) (c : Call) (operation : σ → Answer σ α) (s : σ) (m : Nat)
    (run : Run σ β) : Prop where
  calls : run.calls = List.replicate (m + 1) c
  pauses : run.pauses = (List.range m).map fun i => p.pause (i + 1)
  allowed : m ≤ p.further
  /-- An attempt is followed by another one exactly if it met a lock and one is left. -/
  again : ∀ i ≤ m, (i < m ↔ metLock (attemptEnding operation s i) = true ∧ i < p.further)

section Attempts

variable {p : RetryPolicy} {c : Call} {operation : σ → Answer σ α} {s : σ} {m : Nat}

/-- An attempt that met a lock is followed by another one as long as one is left. -/
theorem Repeated.of_lock {run : Run σ β} {i : Nat} {action detail : Text}
    (h : Repeated p c operation s m run) (hi : i ≤ m)
    (hlock : (operation (attemptState operation s i)).result =
      .error (Error.locked action detail)) : i < m ↔ i < p.further := by
  have hmet : metLock (attemptEnding operation s i) = true := by
    rw [attemptEnding, hlock]
    rfl
  exact (h.again i hi).trans (and_iff_right hmet)

/-- An attempt that met no lock is the last one. -/
theorem Repeated.of_other {run : Run σ β} {i : Nat} (h : Repeated p c operation s m run)
    (hi : i ≤ m) (hother : metLock (attemptEnding operation s i) = false) : ¬ i < m := fun hlt =>
  Bool.false_ne_true (hother.symm.trans ((h.again i hi).1 hlt).1)

theorem pauses_journalOf {a : Activity σ α} (ha : Omits Event.pause? a) (p : RetryPolicy) (s : σ)
    (k m : Nat) :
    (journalOf p a s k m).filterMap Event.pause? = (List.range m).map fun i => p.pause (k + i) := by
  have hinvocation : ∀ i, (a.invocation s i).journal.filterMap Event.pause? = [] := fun i => ha _
  have hannounced : ∀ d (result : Except Failure α),
      (announcement d result).filterMap Event.pause? = [] := fun d result => by
    cases result <;> rfl
  rw [journalOf, List.filterMap_append, hinvocation, List.nil_append, List.filterMap_flatMap,
    List.map_eq_flatMap]
  simp [hinvocation, hannounced, Event.pause?]

/-- Under a policy a call is made as often as it meets a lock and once more, as far as the policy
allows, with a pause before each further time. The last one decides. -/
theorem retrying_repeated (p : RetryPolicy) (c : Call) (operation : σ → Answer σ α) (s : σ) :
    let run := retrying (some p) (call c operation) s
    ∃ m, Repeated p c operation s m run ∧
      run.outcome = (operation (attemptState operation s m)).result := by
  obtain ⟨m, hm, hlocks, hstop, hrun⟩ := retryFrom_attempts p (call c operation) p.further 1 s
  have hquiet : Omits Event.pause? (call c operation) := omits_call (fun _ => rfl) rfl operation
  dsimp only
  rw [retrying, retryingOn, hrun]
  refine ⟨m, ⟨?_, ?_, hm, fun i hi => ⟨fun hlt => ?_, fun hagain => ?_⟩⟩, rfl⟩
  · -- the journal of the attempts holds their calls and, in between, the pauses
    exact calls_journalOf (fun t => (call_apply c operation t).2.2) s 1 m
  · rw [Run.pauses, pauses_journalOf hquiet]
    simp only [Nat.add_comm 1]
  · exact ⟨hlocks i hlt, Nat.lt_of_lt_of_le hlt hm⟩
  · -- the last attempt is not followed by another one, so it met no lock or was the last allowed
    refine Nat.lt_of_le_of_ne hi ?_
    rintro rfl
    cases hagain.1.symm.trans (hstop hagain.2)

/-- An activity that records how the attempts ended leaves no more than they do, if all that it
writes are log lines. -/
theorem recording_repeated (p : RetryPolicy) (c : Call) (operation : σ → Answer σ α) (s : σ)
    {next : Except Failure α → Activity σ β} (recorded : Option Failure → Except Failure β → Prop)
    (hnext : ∀ result t, (∃ log : List LogLine, (next result t).journal = log.map Event.logged) ∧
      recorded (endingOf result) (next result t).outcome) :
    let run := ((retrying (some p) (call c operation)).attempt >>= next) s
    ∃ m, Repeated p c operation s m run ∧
      recorded (attemptEnding operation s m) run.outcome := by
  intro run
  let tried := retrying (some p) (call c operation) s
  obtain ⟨m, hrepeated, hout⟩ : ∃ m, Repeated p c operation s m tried ∧
      tried.outcome = (operation (attemptState operation s m)).result :=
    retrying_repeated p c operation s
  obtain ⟨⟨log, hlog⟩, hrecorded⟩ := hnext tried.outcome tried.after
  -- log lines are neither calls nor pauses
  have hjournal : run.journal = tried.journal ++ log.map .logged := by
    rw [← hlog]
    rfl
  refine ⟨m, ⟨?_, ?_, hrepeated.allowed, hrepeated.again⟩, ?_⟩
  · rw [← hrepeated.calls, Run.calls, hjournal, List.filterMap_append,
      filterMap_logged fun _ => rfl]
    exact List.append_nil _
  · rw [← hrepeated.pauses, Run.pauses, hjournal, List.filterMap_append,
      filterMap_logged fun _ => rfl]
    exact List.append_nil _
  · rw [attemptEnding, ← hout]
    exact hrecorded

end Attempts

section Operations

variable (storage : Storage σ η) (handle : η) (p : RetryPolicy)

/-- The attempts at one reference give the outcome that tells how the last of them ended, and the
pauses between them are those of the policy. -/
theorem attemptDeletion_repeated (reference : Reference) (s : σ) :
    let operation := storage.deleteReference handle reference.name
    let run := attemptDeletion storage handle (some p) reference s
    ∃ m, Repeated p (.deleted reference.name) operation s m run ∧
      run.outcome = DeletionOutcome.ofEnding reference.name (attemptEnding operation s m) := by
  refine recording_repeated p (.deleted reference.name) _ s
    (fun last outcome => outcome = DeletionOutcome.ofEnding reference.name last) fun result t => ?_
  cases result with
  | ok value => exact ⟨⟨[_], rfl⟩, rfl⟩
  | error f =>
    cases f with
    | error e => exact ⟨⟨[_], rfl⟩, rfl⟩
    | foreign cause => exact ⟨⟨[], rfl⟩, rfl⟩

/-- The attempts at a compaction are recorded as the last of them ended. -/
theorem compactRepository_repeated (s : σ) :
    let operation := storage.compact handle
    let run := compactRepository storage handle (some p) s
    ∃ m, Repeated p .compacted operation s m run ∧
      CompactionRecorded (attemptEnding operation s m) run.outcome := by
  refine recording_repeated p .compacted _ s CompactionRecorded fun result t => ?_
  cases result with
  | ok stats => exact ⟨⟨[_], rfl⟩, .success stats⟩
  | error f =>
    cases f with
    | error e => exact ⟨⟨[_], rfl⟩, .failure e⟩
    | foreign cause => exact ⟨⟨[], rfl⟩, .escaped cause⟩

end Operations

/-! ## One visit after another -/

/-- A reference, and the state in which the attempts at it begin. -/
structure Visit (σ : Type) where
  reference : Reference
  start : σ

/-- What the attempts of a visit leave. -/
def Visit.run (storage : Storage σ η) (handle : η) (p : RetryPolicy) (visit : Visit σ) :
    Run σ DeletionOutcome := attemptDeletion storage handle (some p) visit.reference visit.start

/-- Each of these visits begins where the one before has ended, from the first state to the last. -/
inductive Consecutive (storage : Storage σ η) (handle : η) (p : RetryPolicy) :
    σ → List (Visit σ) → σ → Prop where
  | nil (s : σ) : Consecutive storage handle p s [] s
  | cons {s t : σ} {visits : List (Visit σ)} (reference : Reference)
      (others : Consecutive storage handle p
        (attemptDeletion storage handle (some p) reference s).after visits t) :
      Consecutive storage handle p s (⟨reference, s⟩ :: visits) t

/-- The deletions are visits of the first references, of all of them if they give their outcomes. -/
theorem deleteEach_visits (storage : Storage σ η) (handle : η) (p : RetryPolicy)
    (observer : Option Observer) (references : List Reference) (seen : List DeletionOutcome)
    (s : σ) :
    let run := deleteEach storage handle (some p) observer seen references s
    ∃ visits, Consecutive storage handle p s visits run.after ∧
      visits.map (·.reference) <+: references ∧
      run.pauses = visits.flatMap (fun visit => (visit.run storage handle p).pauses) ∧
      ∀ outcomes, run.outcome = .ok outcomes → visits.map (·.reference) = references ∧
        outcomes.map .ok =
          seen.map .ok ++ visits.map (fun visit => (visit.run storage handle p).outcome) := by
  -- for all outcomes in front, as each visit adds its own to them
  induction references generalizing seen s with
  | nil =>
    refine ⟨[], .nil s, List.prefix_rfl, rfl, fun outcomes hok => ⟨rfl, ?_⟩⟩
    rw [← Except.ok.inj hok, List.map_nil, List.append_nil]
  | cons reference rest ih =>
    dsimp only
    have htold : ∀ o, (told observer o).filterMap Event.pause? = [] := fun o => by
      cases observer <;> rfl
    rcases deleteEach_cons storage handle (some p) observer reference rest seen s with
      ⟨f, hf, hrun⟩ | ⟨outcome, f, ho, -, hrun⟩ | ⟨outcome, ho, -, hrun⟩
    · rw [hrun]
      exact ⟨[⟨reference, s⟩], .cons reference (.nil _), by simp, by simp [Run.pauses, Visit.run],
        nofun⟩
    · rw [hrun]
      refine ⟨[⟨reference, s⟩], .cons reference (.nil _), by simp, ?_, nofun⟩
      simp [Run.pauses, Visit.run, htold]
    · obtain ⟨visits, hvisits, hprefix, hpauses, hend⟩ := ih (seen ++ [outcome])
        (attemptDeletion storage handle (some p) reference s).after
      rw [hrun]
      refine ⟨⟨reference, s⟩ :: visits, .cons reference hvisits, by simpa using hprefix, ?_,
        fun outcomes hok => ?_⟩
      · rw [List.flatMap_cons, ← hpauses, Run.pauses, List.filterMap_append,
          List.filterMap_append, htold, List.nil_append]
        rfl
      · obtain ⟨hall, hsame⟩ := hend outcomes hok
        refine ⟨congrArg (reference :: ·) hall, ?_⟩
        have hfirst : (Visit.run storage handle p ⟨reference, s⟩).outcome = .ok outcome := ho
        rw [hsame, List.map_cons, hfirst]
        simp

/-! ## Whole runs -/

/-- How often a run attempts an operation, and how long it pauses. -/
def Config.policy (config : Config) : RetryPolicy := ⟨config.attempts, config.waitMax⟩

/-- No pause of a run is below zero, so a clock that takes all others changes nothing in a run. -/
theorem Config.retryingOn_policy (config : Config) {clock : Clock}
    (hclock : ∀ pause : Seconds, pause.isNonneg = true → clock pause = none) (a : Activity σ α) :
    retryingOn clock (some config.policy) a = retrying (some config.policy) a :=
  retryingOn_eq_retrying a fun _ _ _ =>
    hclock _ (RetryPolicy.isNonneg_pause (.inl config.waitMax_nonneg))

/-- How a run that has found these references, in this state, is put together: of visits, and of a
compaction from one state on if it gets so far. -/
structure Carried (storage : Storage σ η) (handle : η) (config : Config)
    (references : List Reference) (s : σ) (visits : List (Visit σ)) (compacted : Option σ)
    (run : Run σ PruneResult) : Prop where
  consecutive : ∃ t, Consecutive storage handle config.policy s visits t ∧ ∀ u ∈ compacted, u = t
  reached : visits.map (·.reference) <+: references
  /-- The run pauses nowhere but in its visits and its compaction. -/
  pauses : run.pauses =
    visits.flatMap (fun visit => (visit.run storage handle config.policy).pauses) ++
      compacted.elim [] fun t => (compactRepository storage handle (some config.policy) t).pauses
  /-- A result holds what they gave, and then no reference was left out. -/
  result : ∀ result, run.outcome = .ok result →
    visits.map (·.reference) = references ∧
    result.outcomes.map .ok =
      visits.map (fun visit => (visit.run storage handle config.policy).outcome) ∧
    ∃ t compaction, compacted = some t ∧ result.compaction = some compaction ∧
      (compactRepository storage handle (some config.policy) t).outcome = .ok compaction

section Pauses

variable {a : Activity σ α} {next : α → Activity σ β} {s : σ}

theorem pauses_bind_of_ok {v : α} (h : (a s).outcome = .ok v) :
    ((a >>= next) s).pauses = (a s).pauses ++ (next v (a s).after).pauses := by
  rw [bind_of_ok h]
  exact List.filterMap_append ..

theorem pauses_bind_of_error {f : Failure} (h : (a s).outcome = .error f) :
    ((a >>= next) s).pauses = (a s).pauses := by
  rw [bind_of_error h]
  rfl

theorem pauses_log_bind (level : Level) (text : Text) (next : Unit → Activity σ β) (s : σ) :
    ((log level text >>= next) s).pauses = (next () s).pauses := rfl

theorem pauses_during (rid : Identifier) (stage : Stage) (a : Activity σ α) (s : σ) :
    (during rid stage a s).pauses = (a s).pauses := filterMap_noting (fun _ => rfl) _ a s

end Pauses

section Runs

variable {storage : Storage σ η} {handle : η} {config : Config} {s : σ}

/-- What follows the listing in a run that is not dry: a visit to each reference in order, and the
compaction if none of them has ended the run. -/
theorem deleting_carried (rid : Identifier) (observer : Option Observer) (matched : List Reference)
    (repository peer : Text) (names : List RefName) (s : σ) :
    let ending : Activity σ PruneResult := do
      advance rid .filtering .deleting
      let outcomes ← during rid .deleting
        (pruneReferences storage handle (some config.policy) observer ⟨matched, none⟩)
      advance rid .deleting .compacting
      let compaction ← during rid .compacting
        (compactRepository storage handle (some config.policy))
      advance rid .compacting .done
      pure ⟨repository, peer, names, outcomes, some compaction⟩
    ∃ visits compacted, Carried storage handle config matched s visits compacted (ending s) := by
  obtain ⟨visits, hvisits, hreached, hpauses, hend⟩ :=
    deleteEach_visits storage handle config.policy observer matched [] s
  rw [← pruneReferences_eq] at hvisits hpauses hend
  rw [← outcome_during rid .deleting] at hend
  rw [← after_during rid .deleting] at hvisits
  rw [← pauses_during rid .deleting] at hpauses
  dsimp only
  cases hdeleted : (during rid .deleting (pruneReferences storage handle (some config.policy)
      observer ⟨matched, none⟩) s).outcome with
  -- the deletions end the run: there is no compaction
  | error f =>
    refine ⟨visits, none, ⟨_, hvisits, fun u hu => absurd hu (Option.not_mem_none u)⟩, hreached,
      ?_, ?_⟩
    · rw [advance, pauses_log_bind, pauses_bind_of_error hdeleted, hpauses]
      exact (List.append_nil _).symm
    · rw [advance, log_bind, bind_of_error hdeleted]
      intro result hok
      cases hok
  -- the compaction is the last thing that can pause, whether it is recorded or escapes
  | ok outcomes =>
    obtain ⟨hall, houtcomes⟩ := hend outcomes hdeleted
    refine ⟨visits, some _, ⟨_, hvisits, fun u hu => (Option.some.inj hu).symm⟩, hreached, ?_, ?_⟩
    all_goals
      cases hcompacted : (during rid .compacting (compactRepository storage handle
        (some config.policy)) (during rid .deleting (pruneReferences storage handle
          (some config.policy) observer ⟨matched, none⟩) s).after).outcome with
      | error f => ?_
      | ok compaction => ?_
    · rw [advance, pauses_log_bind, pauses_bind_of_ok hdeleted, hpauses, advance, pauses_log_bind,
        pauses_bind_of_error hcompacted, pauses_during]
      rfl
    · rw [advance, pauses_log_bind, pauses_bind_of_ok hdeleted, hpauses, advance, pauses_log_bind,
        pauses_bind_of_ok hcompacted, pauses_during]
      exact congrArg _ (List.append_nil _)
    · rw [advance, log_bind, bind_of_ok hdeleted, advance, log_bind, bind_of_error hcompacted]
      intro result hok
      cases hok
    · rw [advance, log_bind, bind_of_ok hdeleted, advance, log_bind, bind_of_ok hcompacted]
      intro result hok
      obtain rfl := Except.ok.inj hok
      rw [outcome_during] at hcompacted
      exact ⟨hall, houtcomes, _, compaction, rfl, rfl, hcompacted⟩

/-- A run on an open repository that is not dry and lists everything is carried out as visits and at
most one compaction, which begin where the listing has left off. -/
theorem pruneOpened_carried (rid : Identifier) (peer : Peer) (observer : Option Observer)
    (hwet : config.dryRun = false) (hlisted : (storage.references handle s).1.failure = none) :
    let listed := storage.references handle s
    ∃ visits compacted, Carried storage handle config (peer.owned listed.1.references) listed.2
      visits compacted (pruneOpened storage handle config rid peer observer s) := by
  intro listed
  have hall : (during rid .filtering (listReferences storage handle) s).outcome =
      .ok listed.1.references := by
    rw [outcome_during, (listReferences_performs storage handle s).2, Listing.all, hlisted]
  have hafter : (during rid .filtering (listReferences storage handle) s).after = listed.2 :=
    after_during ..
  -- nothing is retried before the deletions, so the listing has no pauses
  have hquiet : (during rid .filtering (listReferences storage handle) s).pauses = [] :=
    (pauses_during ..).trans (omits_call (fun _ => rfl) rfl _ s)
  obtain ⟨visits, compacted, hcarried⟩ := deleting_carried rid observer
    (peer.owned listed.1.references) rid.text peer.id.text
    ((peer.owned listed.1.references).map (·.name)) listed.2
  refine ⟨visits, compacted, hcarried.consecutive, hcarried.reached, ?_, ?_⟩
  · rw [← hcarried.pauses]
    unfold pruneOpened
    rw [hwet, advance, pauses_log_bind, advance, pauses_log_bind, pauses_bind_of_ok hall, hquiet,
      hafter]
    rfl
  · rw [← hafter] at hcarried
    unfold pruneOpened
    rw [hwet, advance, log_bind, advance, log_bind, bind_of_ok hall, log_bind]
    exact hcarried.result

/-- Without a complete listing there is nothing to pause for, and no result. Nothing is retried
before the deletions. -/
theorem pruneOpened_unlisted (rid : Identifier) (peer : Peer) (observer : Option Observer)
    {f : Failure} (hfailed : (storage.references handle s).1.failure = some f) :
    let run := pruneOpened storage handle config rid peer observer s
    run.pauses = [] ∧ run.outcome = .error f := by
  have hout : (during rid .filtering (listReferences storage handle) s).outcome = .error f := by
    rw [outcome_during, (listReferences_performs storage handle s).2, Listing.all, hfailed]
  have hquiet : (during rid .filtering (listReferences storage handle) s).pauses = [] :=
    (pauses_during ..).trans (omits_call (fun _ => rfl) rfl _ s)
  dsimp only
  unfold pruneOpened
  constructor
  · rw [advance, pauses_log_bind, advance, pauses_log_bind, pauses_bind_of_error hout, hquiet]
  · rw [advance, log_bind, advance, log_bind, bind_of_error hout]

end Runs

/-- Every run that is not dry ends before its listing is complete, without a pause and without a
result, or it is put together of visits and at most one compaction. -/
theorem pruneNamespace_carried (pick : Identifier → σ → Answer σ (Storage σ η)) {config : Config}
    (rid peer : Text) (observer : Option Observer) (s : σ) (hwet : config.dryRun = false) :
    let run := pruneNamespace pick config rid peer observer s
    let opening := openNamespace pick config.storageRoot rid peer s
    (run.pauses = [] ∧ ∃ f, run.outcome = .error f) ∨
      ∃ o, opening.outcome = .ok o ∧
        let listed := o.storage.references o.handle opening.after
        listed.1.failure = none ∧ ∃ visits compacted, Carried o.storage o.handle config
          (o.owner.owned listed.1.references) listed.2 visits compacted run := by
  intro run opening
  have hquiet : opening.pauses = [] := omits_openNamespace (fun _ => rfl) (fun _ => rfl) s
  cases hopen : opening.outcome with
  | error f =>
    obtain ⟨hout, -, hjournal⟩ := pruneNamespace_of_error observer hopen
    exact .inl ⟨(congrArg (List.filterMap Event.pause?) hjournal).trans hquiet, f, hout⟩
  | ok o =>
    let opened := pruneOpened o.storage o.handle config o.id o.owner observer opening.after
    have hrun : run = _ := congrFun pruneNamespace_eq_bind s
    -- closing does not pause either
    have hpauses : run.pauses = opened.pauses := by
      rw [hrun, pauses_bind_of_ok hopen]
      change opening.pauses ++ (opened.journal ++ _).filterMap Event.pause? = _
      rw [hquiet, List.filterMap_append, omits_call (fun _ => rfl) rfl]
      exact List.append_nil _
    -- and it can only turn a result into a failure
    have hresult : ∀ result, run.outcome = .ok result → opened.outcome = .ok result := by
      intro result hok
      rw [hrun, bind_of_ok hopen] at hok
      exact closing_eq_ok hok
    cases hlisted : (o.storage.references o.handle opening.after).1.failure with
    | some f =>
      obtain ⟨hnone, hfailed⟩ : opened.pauses = [] ∧ opened.outcome = .error f :=
        pruneOpened_unlisted o.id o.owner observer hlisted
      refine .inl ⟨hpauses.trans hnone, ?_⟩
      cases hout : run.outcome with
      | error g => exact ⟨g, rfl⟩
      | ok result => cases hfailed.symm.trans (hresult result hout)
    | none =>
      obtain ⟨visits, compacted, hcarried⟩ :=
        pruneOpened_carried o.id o.owner observer hwet hlisted
      exact .inr ⟨o, rfl, hlisted, visits, compacted, hcarried.consecutive, hcarried.reached,
        hpauses.trans hcarried.pauses,
        fun result hok => hcarried.result result (hresult result hok)⟩

end RefSweep
