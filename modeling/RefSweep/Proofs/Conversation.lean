import RefSweep.Proofs.Exchange

/-!
# The conversation of a run with its storage

`Conversation` is the grammar of what a run may say once the repository is open, and `Deletions`
that of its longest part. Both have no states, only calls and how they ended. `deleteEach_cons` says
what becomes of one deletion. Main statements: `deleteEach_performs` and `pruneOpened_performs`,
whatever the storage and the observer do, a run keeps to the grammar.
-/

namespace RefSweep

variable {σ η α β : Type}

/-! ## The deletions -/

/-- What becomes of a deletion whose last attempt ended so: an outcome, or a failure that ends the
run. -/
def DeletionOutcome.ofEnding (name : RefName) : Option Failure → Except Failure DeletionOutcome
  | none => .ok (.success name)
  | some (.error e) => .ok (.failure name e)
  | some (.foreign cause) => .error (.foreign cause)

/-- The failure of the observer at the newest of these outcomes. -/
def complaint? (observer : Option Observer) (seen : List DeletionOutcome) : Option Failure :=
  observer.bind (· seen)

/-- The grammar of the deletions: the references get their rounds of attempts in order, and the next
one is reached exactly when the last attempt left an outcome and the observer took it. -/
inductive Deletions (limit : Nat) (observer : Option Observer) :
    List DeletionOutcome → List Reference → List Exchange →
      Except Failure (List DeletionOutcome) → Prop where
  | finished (seen : List DeletionOutcome) : Deletions limit observer seen [] [] (.ok seen)
  | next {seen reference rest endings last outcome exchanges result}
      (attempts : Persistent limit endings) (ended : endings.getLast? = some last)
      (recorded : DeletionOutcome.ofEnding reference.name last = .ok outcome)
      (taken : complaint? observer (seen ++ [outcome]) = none)
      (others : Deletions limit observer (seen ++ [outcome]) rest exchanges result) :
      Deletions limit observer seen (reference :: rest)
        (round (.deleted reference.name) endings ++ exchanges) result
  | refused {seen reference rest endings last outcome f}
      (attempts : Persistent limit endings) (ended : endings.getLast? = some last)
      (recorded : DeletionOutcome.ofEnding reference.name last = .ok outcome)
      (complained : complaint? observer (seen ++ [outcome]) = some f) :
      Deletions limit observer seen (reference :: rest)
        (round (.deleted reference.name) endings) (.error f)
  | escaped {seen reference rest endings last f}
      (attempts : Persistent limit endings) (ended : endings.getLast? = some last)
      (unrecorded : DeletionOutcome.ofEnding reference.name last = .error f) :
      Deletions limit observer seen (reference :: rest)
        (round (.deleted reference.name) endings) (.error f)

/-! ## One deletion after the other -/

/-- What is written when an observer is told of an outcome. -/
def told (observer : Option Observer) (outcome : DeletionOutcome) : List Event :=
  if observer.isSome then [.reported outcome] else []

@[simp] theorem calls_told (observer : Option Observer) (outcome : DeletionOutcome) :
    (told observer outcome).filterMap Event.call? = [] := by
  cases observer <;> rfl

/-- Telling an outcome changes nothing. It fails as the observer does. -/
theorem report_eq (observer : Option Observer) (seen : List DeletionOutcome)
    (outcome : DeletionOutcome) (s : σ) :
    Activity.report observer seen outcome s =
      ⟨match complaint? observer (seen ++ [outcome]) with
        | none => .ok ()
        | some f => .error f, s, told observer outcome⟩ := by
  cases observer with
  | none => rfl
  | some watch =>
    unfold Activity.report
    simp only [Activity.bind_apply, Activity.note_apply, complaint?, Option.bind_some]
    cases watch (seen ++ [outcome]) <;> rfl

section Runs

open Activity

variable (storage : Storage σ η) (handle : η)

/-- What becomes of the deletion that comes first: the run ends as its attempts fail, or as the
observer fails who is told of its outcome, or it goes on with the others. -/
theorem deleteEach_cons (retry : Option RetryPolicy) (observer : Option Observer)
    (reference : Reference) (rest : List Reference) (seen : List DeletionOutcome) (s : σ) :
    let first := attemptDeletion storage handle retry reference s
    let others := fun outcome =>
      deleteEach storage handle retry observer (seen ++ [outcome]) rest first.after
    let run := deleteEach storage handle retry observer seen (reference :: rest) s
    (∃ f, first.outcome = .error f ∧ run = ⟨.error f, first.after, first.journal⟩) ∨
    (∃ outcome f, first.outcome = .ok outcome ∧ complaint? observer (seen ++ [outcome]) = some f ∧
      run = ⟨.error f, first.after, first.journal ++ told observer outcome⟩) ∨
    ∃ outcome, first.outcome = .ok outcome ∧ complaint? observer (seen ++ [outcome]) = none ∧
      run = ⟨(others outcome).outcome, (others outcome).after,
        first.journal ++ (told observer outcome ++ (others outcome).journal)⟩ := by
  dsimp only
  rw [deleteEach]
  -- first the attempts decide, and then what the observer makes of their outcome
  cases hout : (attemptDeletion storage handle retry reference s).outcome with
  | error f => exact .inl ⟨f, rfl, bind_of_error hout⟩
  | ok outcome =>
    have hreport := report_eq observer seen outcome
      (attemptDeletion storage handle retry reference s).after
    rw [bind_of_ok hout]
    cases hc : complaint? observer (seen ++ [outcome]) with
    | some f =>
      rw [hc] at hreport
      exact .inr (.inl ⟨outcome, f, rfl, hc, by
        rw [bind_of_error (congrArg Run.outcome hreport), hreport]⟩)
    | none =>
      rw [hc] at hreport
      exact .inr (.inr ⟨outcome, rfl, hc, by
        rw [bind_of_ok (congrArg Run.outcome hreport), hreport]⟩)

section Told

variable {storage handle} {observer : Option Observer} {outcome : DeletionOutcome} {s : σ}
  {first : Run σ α} {es es' : List Exchange}

/-- Telling an outcome is no exchange with the storage. -/
theorem Performs.tell (h : Performs storage handle s first es) (result : Except Failure β) :
    Performs storage handle s
      ⟨result, first.after, first.journal ++ told observer outcome⟩ es := by
  refine ⟨?_, h.states⟩
  rw [Run.calls_mk, List.filterMap_append, calls_told, List.append_nil]
  exact h.calls

/-- A run that performs some exchanges, is told of, and goes on with others performs them all in a
row. -/
theorem Performs.tell_then {others : Run σ β} (h : Performs storage handle s first es)
    (h' : Performs storage handle first.after others es') :
    Performs storage handle s ⟨others.outcome, others.after,
      first.journal ++ (told observer outcome ++ others.journal)⟩ (es ++ es') := by
  refine ⟨?_, h.states.append h'.states⟩
  rw [Run.calls_mk, List.filterMap_append, List.filterMap_append, calls_told, List.nil_append,
    List.map_append, ← h.calls, ← h'.calls]
  rfl

end Told

/-- The attempts at one deletion are a round of requests for the same name, as persistent as the
policy allows; what is recorded of the name is the ending of the last of them. -/
theorem attemptDeletion_performs (retry : Option RetryPolicy) (reference : Reference) (s : σ) :
    ∃ endings last,
      Performs storage handle s (attemptDeletion storage handle retry reference s)
        (round (.deleted reference.name) endings) ∧
      Persistent (RetryPolicy.limit retry) endings ∧ endings.getLast? = some last ∧
      (attemptDeletion storage handle retry reference s).outcome =
        DeletionOutcome.ofEnding reference.name last := by
  obtain ⟨endings, hperf, hpers, hlast⟩ :=
    retrying_performs storage handle retry (.deleted reference.name) s
  refine ⟨endings, _, ?_, hpers, hlast, ?_⟩
  -- whatever the attempts ended with, only a log line follows
  · cases hr : (retrying retry (call (.deleted reference.name)
        (storage.deleteReference handle reference.name)) s).outcome with
    | ok v => exact hperf.attempt.bind_nothing (congrArg Except.ok hr) rfl rfl
    | error f => cases f <;> exact hperf.attempt.bind_nothing (congrArg Except.ok hr) rfl rfl
  · unfold attemptDeletion
    rw [attempt_bind]
    cases (retrying retry (call (.deleted reference.name)
        (storage.deleteReference handle reference.name)) s).outcome with
    | ok v => rfl
    | error f => cases f <;> rfl

/-- Whatever the storage and the observer do, the deletions keep to the grammar: a round of attempts
for each reference, in order, until one escapes or the observer ends the run. -/
theorem deleteEach_performs (retry : Option RetryPolicy) (observer : Option Observer)
    (references : List Reference) (seen : List DeletionOutcome) (s : σ) :
    ∃ exchanges,
      Performs storage handle s (deleteEach storage handle retry observer seen references s)
        exchanges ∧
      Deletions (RetryPolicy.limit retry) observer seen references exchanges
        (deleteEach storage handle retry observer seen references s).outcome := by
  -- by induction on the references; what the observer has seen grows along with it
  induction references generalizing seen s with
  | nil => exact ⟨[], .nothing rfl rfl, .finished seen⟩
  | cons reference rest ih =>
    obtain ⟨endings, last, hperf, hpers, hlast, hout⟩ :=
      attemptDeletion_performs storage handle retry reference s
    rcases deleteEach_cons storage handle retry observer reference rest seen s with
      ⟨f, hf, hrun⟩ | ⟨outcome, f, ho, hc, hrun⟩ | ⟨outcome, ho, hc, hrun⟩
    · -- a failure from outside the library leaves no outcome
      rw [hrun]
      exact ⟨_, ⟨hperf.calls, hperf.states⟩, .escaped hpers hlast (hout.symm.trans hf)⟩
    · -- the observer ends the run, after all attempts of this reference
      rw [hrun]
      exact ⟨_, hperf.tell _, .refused hpers hlast (hout.symm.trans ho) hc⟩
    · obtain ⟨exchanges, hperf', hdel⟩ := ih (seen ++ [outcome])
        (attemptDeletion storage handle retry reference s).after
      rw [hrun]
      exact ⟨_, hperf.tell_then hperf', .next hpers hlast (hout.symm.trans ho) hc hdel⟩

/-! ## The whole run -/

/-- How a compaction is recorded whose last attempt ended so. -/
inductive CompactionRecorded : Option Failure → Except Failure CompactionResult → Prop where
  | success (stats : CompactionStats) : CompactionRecorded none (.ok (.success stats))
  | failure (e : Error) : CompactionRecorded (some (.error e)) (.ok (.failure e))
  | escaped (cause : Foreign) :
      CompactionRecorded (some (.foreign cause)) (.error (.foreign cause))

/-- The attempts at a compaction are such a round as well, and the result records the ending of the
last. -/
theorem compactRepository_performs (retry : Option RetryPolicy) (s : σ) :
    ∃ endings last,
      Performs storage handle s (compactRepository storage handle retry s)
        (round .compacted endings) ∧
      Persistent (RetryPolicy.limit retry) endings ∧ endings.getLast? = some last ∧
      CompactionRecorded last (compactRepository storage handle retry s).outcome := by
  obtain ⟨endings, hperf, hpers, hlast⟩ :=
    retrying_performs storage handle retry .compacted s
  refine ⟨endings, _, ?_, hpers, hlast, ?_⟩
  · -- whether the failure is recorded or escapes, recording it asks for nothing more
    cases hr : (retrying retry (call .compacted (storage.compact handle)) s).outcome with
    | ok v => exact hperf.attempt.bind_nothing (congrArg Except.ok hr) rfl rfl
    | error f => cases f <;> exact hperf.attempt.bind_nothing (congrArg Except.ok hr) rfl rfl
  · unfold compactRepository
    rw [attempt_bind]
    cases (retrying retry (call .compacted (storage.compact handle)) s).outcome with
    | ok stats => exact .success stats
    | error f =>
      cases f with
      | error e => exact .failure e
      | foreign cause => exact .escaped cause

end Runs

/-- The grammar of a run on an open repository, up to its closing: what it asks, how that ends, and
what the run makes of it. A listing that fails and a dry run end it; otherwise the deletions follow,
and the compaction after the last of them. -/
inductive Conversation (config : Config) (rid : Identifier) (peer : Peer)
    (observer : Option Observer) (listing : Listing) :
    List Exchange → Except Failure PruneResult → Prop where
  | unlisted {f} (failed : listing.failure = some f) :
      Conversation config rid peer observer listing [⟨.listed, some f⟩] (.error f)
  | dry (listed : listing.failure = none) (dry : config.dryRun = true) :
      Conversation config rid peer observer listing [⟨.listed, none⟩]
        (.ok ⟨rid.text, peer.id.text, (peer.owned listing.references).map (·.name), [], none⟩)
  | stopped {deletions f} (listed : listing.failure = none) (wet : config.dryRun = false)
      (deleting : Deletions config.attempts observer [] (peer.owned listing.references) deletions
        (.error f)) :
      Conversation config rid peer observer listing (⟨.listed, none⟩ :: deletions) (.error f)
  | compacted {deletions outcomes endings last result} (listed : listing.failure = none)
      (wet : config.dryRun = false)
      (deleting : Deletions config.attempts observer [] (peer.owned listing.references) deletions
        (.ok outcomes))
      (compacting : Persistent config.attempts endings) (ended : endings.getLast? = some last)
      (recorded : CompactionRecorded last result) :
      Conversation config rid peer observer listing
        (⟨.listed, none⟩ :: (deletions ++ round .compacted endings))
        (result.map fun compaction => ⟨rid.text, peer.id.text,
          (peer.owned listing.references).map (·.name), outcomes, some compaction⟩)

/-- All the requests of a round are the same one. -/
theorem mem_round {c : Call} {endings : List (Option Failure)} {e : Exchange}
    (h : e ∈ round c endings) : e.call = c := by
  obtain ⟨ending, -, rfl⟩ := List.mem_map.1 h
  rfl

/-- Deletions ask for nothing but these references: each of their exchanges is about one that is
listed. -/
theorem Deletions.calls {limit : Nat} {observer : Option Observer} {seen : List DeletionOutcome}
    {refs : List Reference} {exchanges : List Exchange}
    {result : Except Failure (List DeletionOutcome)}
    (h : Deletions limit observer seen refs exchanges result) :
    ∀ e ∈ exchanges, ∃ r ∈ refs, e.call = .deleted r.name := by
  -- by induction on the grammar: a round is about its own name, the others by hypothesis
  induction h with
  | finished => exact fun e he => absurd he List.not_mem_nil
  | next _ _ _ _ _ ih =>
    intro e he
    rcases List.mem_append.1 he with he | he
    · exact ⟨_, .head _, mem_round he⟩
    · obtain ⟨r, hr, hcall⟩ := ih e he
      exact ⟨r, .tail _ hr, hcall⟩
  | refused => exact fun e he => ⟨_, .head _, mem_round he⟩
  | escaped => exact fun e he => ⟨_, .head _, mem_round he⟩

/-- A conversation begins with the listing. More than that is only asked after a complete one in a
run that is not dry: deletions of owned references, and compactions. -/
theorem Conversation.calls {config : Config} {rid : Identifier} {peer : Peer}
    {observer : Option Observer} {listing : Listing} {exchanges : List Exchange}
    {result : Except Failure PruneResult}
    (h : Conversation config rid peer observer listing exchanges result) :
    ∃ rest, exchanges = ⟨.listed, listing.failure⟩ :: rest ∧
      (rest = [] ∨ listing.failure = none ∧ config.dryRun = false ∧
        ∀ e ∈ rest, (∃ r ∈ peer.owned listing.references, e.call = .deleted r.name) ∨
          e.call = .compacted) := by
  cases h with
  | unlisted failed => exact ⟨[], by rw [failed], .inl rfl⟩
  | dry listed => exact ⟨[], by rw [listed], .inl rfl⟩
  | stopped listed wet deleting =>
    exact ⟨_, by rw [listed], .inr ⟨listed, wet, fun e he => .inl (deleting.calls e he)⟩⟩
  | compacted listed wet deleting =>
    refine ⟨_, by rw [listed], .inr ⟨listed, wet, fun e he => ?_⟩⟩
    rcases List.mem_append.1 he with he | he
    · exact .inl (deleting.calls e he)
    · exact .inr (mem_round he)

section Whole

open Activity

variable (storage : Storage σ η) (handle : η)

theorem endingOf_all (l : Listing) : endingOf l.all = l.failure := by
  unfold Listing.all
  cases l.failure <;> rfl

/-- Listing the references is one exchange, and the answer is the whole listing or its failure. -/
theorem listReferences_performs (s : σ) :
    Performs storage handle s (listReferences storage handle s)
        [⟨.listed, (storage.references handle s).1.failure⟩] ∧
      (listReferences storage handle s).outcome = (storage.references handle s).1.all := by
  constructor
  · have h : Answers storage handle s _ _ := .listed s
    rw [← endingOf_all] at h ⊢
    exact .single h
  · rfl

/-- The limit of the policy that a configuration gives is its number of attempts. -/
theorem limit_config (config : Config) :
    RetryPolicy.limit (some ⟨config.attempts, config.waitMax⟩) = config.attempts := by
  have := config.attempts_pos
  simp only [RetryPolicy.limit, RetryPolicy.further]
  omega

/-- The deletions of references that are all known. -/
theorem pruneReferences_eq (retry : Option RetryPolicy) (observer : Option Observer)
    (references : List Reference) (s : σ) :
    pruneReferences storage handle retry observer ⟨references, none⟩ s =
      deleteEach storage handle retry observer [] references s := by
  unfold pruneReferences
  rw [bind_apply]
  generalize deleteEach storage handle retry observer [] references s = r
  obtain ⟨outcome, after, journal⟩ := r
  cases outcome <;> simp

/-- The end of a run: the compaction, whose ending goes into the result. It is one round of
attempts, and only a foreign failure leaves no result. -/
theorem compacting_performs (config : Config) (rid : Identifier)
    (result : CompactionResult → PruneResult) (s : σ) :
    let ending : Activity σ PruneResult := do
      advance rid .deleting .compacting
      let compaction ← during rid .compacting
        (compactRepository storage handle (some ⟨config.attempts, config.waitMax⟩))
      advance rid .compacting .done
      pure (result compaction)
    ∃ endings last compaction,
      Performs storage handle s (ending s) (round .compacted endings) ∧
      Persistent config.attempts endings ∧ endings.getLast? = some last ∧
      CompactionRecorded last compaction ∧ (ending s).outcome = compaction.map result := by
  obtain ⟨endings, last, hcomp, hpers, hlast, hrec⟩ :=
    compactRepository_performs storage handle (some ⟨config.attempts, config.waitMax⟩) s
  rw [limit_config] at hpers
  have hcomp := hcomp.during rid .compacting
  rw [← outcome_during rid .compacting] at hrec
  refine ⟨endings, last, _, ?_, hpers, hlast, hrec, ?_⟩
  -- either way only log lines stand around the compaction
  all_goals
    cases hout : (during rid .compacting (compactRepository storage handle
      (some ⟨config.attempts, config.waitMax⟩)) s).outcome with
    | ok compaction => ?_
    | error f => ?_
  · exact .log_bind (hcomp.bind_nothing hout (by simp [advance, Event.call?]) rfl)
  · exact .log_bind (hcomp.bind_of_error hout)
  · rw [advance, log_bind, bind_of_ok hout]
    rfl
  · rw [advance, log_bind, bind_of_error hout]
    rfl

/-- The part of a run that follows a complete listing and is not dry: the deletions, and then the
compaction unless they have ended the run. -/
theorem deleting_performs (config : Config) (rid : Identifier) (observer : Option Observer)
    (matched : List Reference) (result : List DeletionOutcome → CompactionResult → PruneResult)
    (s : σ) :
    let retry := some ⟨config.attempts, config.waitMax⟩
    let ending : Activity σ PruneResult := do
      advance rid .filtering .deleting
      let outcomes ← during rid .deleting
        (pruneReferences storage handle retry observer ⟨matched, none⟩)
      advance rid .deleting .compacting
      let compaction ← during rid .compacting (compactRepository storage handle retry)
      advance rid .compacting .done
      pure (result outcomes compaction)
    ∃ deletions deleted, Deletions config.attempts observer [] matched deletions deleted ∧
      match deleted with
      | .error f => Performs storage handle s (ending s) deletions ∧ (ending s).outcome = .error f
      | .ok outcomes => ∃ endings last compaction,
        Performs storage handle s (ending s) (deletions ++ round .compacted endings) ∧
        Persistent config.attempts endings ∧ endings.getLast? = some last ∧
        CompactionRecorded last compaction ∧
        (ending s).outcome = compaction.map (result outcomes) := by
  obtain ⟨deletions, hdel, hgrammar⟩ := deleteEach_performs storage handle
    (some ⟨config.attempts, config.waitMax⟩) observer matched [] s
  rw [limit_config] at hgrammar
  rw [← pruneReferences_eq] at hdel hgrammar
  have hdel := hdel.during rid .deleting
  rw [← outcome_during rid .deleting] at hgrammar
  refine ⟨deletions, _, hgrammar, ?_⟩
  -- the deletions end the run, or are followed by the compaction
  split
  next f hout =>
    refine ⟨.log_bind (hdel.bind_of_error hout), ?_⟩
    rw [advance, log_bind, bind_of_error hout]
  next outcomes hout =>
    obtain ⟨endings, last, compaction, hcomp, hpers, hlast, hrec, hend⟩ :=
      compacting_performs storage handle config rid (result outcomes) _
    refine ⟨endings, last, compaction, .log_bind (hdel.bind_of_ok hout hcomp), hpers, hlast, hrec,
      ?_⟩
    rw [advance, log_bind, bind_of_ok hout]
    exact hend

/-- Whatever the storage and the observer do, a run on an open repository keeps to the grammar. -/
theorem pruneOpened_performs (config : Config) (rid : Identifier) (peer : Peer)
    (observer : Option Observer) (s : σ) :
    ∃ exchanges,
      Performs storage handle s (pruneOpened storage handle config rid peer observer s) exchanges ∧
      Conversation config rid peer observer (storage.references handle s).1 exchanges
        (pruneOpened storage handle config rid peer observer s).outcome := by
  obtain ⟨hlist, hlisted⟩ := listReferences_performs storage handle s
  rw [← outcome_during rid .filtering] at hlisted
  unfold pruneOpened
  -- log lines before the listing, then what it gave decides
  cases hf : (storage.references handle s).1.failure with
  | some f =>
    rw [Listing.all, hf] at hlisted
    rw [hf] at hlist
    refine ⟨_, .log_bind (.log_bind ((hlist.during rid .filtering).bind_of_error hlisted)), ?_⟩
    rw [advance, log_bind, advance, log_bind, bind_of_error hlisted]
    exact .unlisted hf
  | none =>
    rw [Listing.all, hf] at hlisted
    rw [hf] at hlist
    cases hdry : config.dryRun with
    | true =>
      have hlist := hlist.during rid .filtering
      refine ⟨_, .log_bind (.log_bind (hlist.bind_nothing hlisted ?_ ?_)), ?_⟩
      · simp [advance, Event.call?]
      · rfl
      · rw [advance, log_bind, advance, log_bind, bind_of_ok hlisted]
        exact .dry hf hdry
    | false =>
      simp only [Bool.false_eq_true, if_false]
      obtain ⟨deletions, deleted, hgrammar, hrest⟩ := deleting_performs storage handle config rid
        observer (peer.owned (storage.references handle s).1.references)
        (fun outcomes compaction => ⟨rid.text, peer.id.text,
          (peer.owned (storage.references handle s).1.references).map (·.name), outcomes,
          some compaction⟩)
        (during rid .filtering (listReferences storage handle) s).after
      cases deleted with
      | error f =>
        obtain ⟨hperf, hend⟩ := hrest
        refine ⟨_, .log_bind (.log_bind ((hlist.during rid .filtering).bind_of_ok hlisted
          (.log_bind hperf))), ?_⟩
        rw [advance, log_bind, advance, log_bind, bind_of_ok hlisted, log_bind, hend]
        exact .stopped hf hdry hgrammar
      | ok outcomes =>
        obtain ⟨endings, last, compaction, hperf, hpers, hlast, hrec, hend⟩ := hrest
        refine ⟨_, .log_bind (.log_bind ((hlist.during rid .filtering).bind_of_ok hlisted
          (.log_bind hperf))), ?_⟩
        rw [advance, log_bind, advance, log_bind, bind_of_ok hlisted, log_bind, hend]
        exact .compacted hf hdry hgrammar hpers hlast hrec

end Whole

end RefSweep
