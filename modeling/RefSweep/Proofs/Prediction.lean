import RefSweep.Proofs.Opening

/-!
# Dry runs predict

`predicted` are the names that a run is about: those of the owned references that the repository
lists, or the failure to open or list it. A dry run gives them and asks for nothing more than
opening, listing and closing (`pruneNamespace_dry`). Main statement: `predicts_of_closes`, with any
storage that closes a run that is not dry matches these names too and has one outcome for each of
them in order, as long as the storage fails with nothing but the library's own errors and the
observer takes the outcomes.
-/

namespace RefSweep

variable {σ η : Type}

/-- The names of the references that a run is about, or why they cannot be told. -/
def predicted (pick : Identifier → σ → Answer σ (Storage σ η)) (root : Path) (rid peer : Text)
    (s : σ) : Except Failure (List RefName) :=
  let opening := openNamespace pick root rid peer s
  opening.outcome.bind fun o =>
    (o.storage.references o.handle opening.after).1.all.map fun references =>
      (o.owner.owned references).map (·.name)

section

variable {pick : Identifier → σ → Answer σ (Storage σ η)} {root : Path} {rid peer : Text} {s : σ}

/-- When the namespace opens and its references are all listed, what is predicted are the names the
peer owns, in the order of the listing. -/
theorem predicted_of_listed {o : Opening σ η}
    (hopen : (openNamespace pick root rid peer s).outcome = .ok o)
    (hlisted : (o.storage.references o.handle
      (openNamespace pick root rid peer s).after).1.failure = none) :
    predicted pick root rid peer s = .ok ((o.owner.owned (o.storage.references o.handle
      (openNamespace pick root rid peer s).after).1.references).map (·.name)) := by
  rw [predicted, hopen]
  dsimp only [Except.bind, Listing.all]
  rw [hlisted]
  rfl

/-- If names are predicted, then the namespace opens, the listing has no failure and the names are
those of it that the peer owns. -/
theorem predicted_eq_ok {names : List RefName} (h : predicted pick root rid peer s = .ok names) :
    ∃ o, (openNamespace pick root rid peer s).outcome = .ok o ∧
      let listing := (o.storage.references o.handle (openNamespace pick root rid peer s).after).1
      listing.failure = none ∧ names = (o.owner.owned listing.references).map (·.name) := by
  cases hopen : (openNamespace pick root rid peer s).outcome with
  | error f => rw [predicted, hopen] at h; cases h
  | ok o =>
    -- a prediction needs the opening and a listing that came to its end
    cases hlisted : (o.storage.references o.handle
        (openNamespace pick root rid peer s).after).1.failure with
    | some f =>
      rw [predicted, hopen] at h
      dsimp only [Except.bind, Listing.all] at h
      rw [hlisted] at h
      cases h
    | none =>
      have hnames := h.symm.trans (predicted_of_listed hopen hlisted)
      exact ⟨o, rfl, hlisted, Except.ok.inj hnames⟩

/-- If a failure is predicted, then a namespace that opens all the same has a listing that fails. -/
theorem predicted_eq_error {f : Failure} (h : predicted pick root rid peer s = .error f) :
    ∀ o, (openNamespace pick root rid peer s).outcome = .ok o →
      (o.storage.references o.handle
        (openNamespace pick root rid peer s).after).1.failure ≠ none :=
  fun _ hopen hlisted => by cases h.symm.trans (predicted_of_listed hopen hlisted)

end

/-- The observer does not end the run at an outcome with one of these names. -/
def Takes (observer : Option Observer) (names : List RefName) : Prop :=
  ∀ seen outcome, outcome.name ∈ names → complaint? observer (seen ++ [outcome]) = none

theorem Takes.of_cons {observer : Option Observer} {name : RefName} {names : List RefName}
    (h : Takes observer (name :: names)) : Takes observer names :=
  fun seen outcome hmem => h seen outcome (.tail _ hmem)

/-- Except for the listing nothing has failed but with the library's own errors. -/
def Recovered (exchanges : List Exchange) : Prop :=
  ∀ e ∈ exchanges, ∀ cause, e.ending = some (.foreign cause) → e.call = .listed

/-- Where two lists of exchanges have seen no foreign failure, the first of them has seen none. -/
theorem Recovered.left {es es' : List Exchange} (h : Recovered (es ++ es')) : Recovered es :=
  fun e he => h e (List.mem_append_left _ he)

/-- Nor has the second. -/
theorem Recovered.right {es es' : List Exchange} (h : Recovered (es ++ es')) : Recovered es' :=
  fun e he => h e (List.mem_append_right _ he)

theorem Recovered.of_cons {e : Exchange} {es : List Exchange} (h : Recovered (e :: es)) :
    Recovered es := fun e' he => h e' (.tail _ he)

/-- No round of attempts ends with a failure from outside the library. -/
theorem Recovered.round {c : Call} {endings : List (Option Failure)} {last : Option Failure}
    (h : Recovered (round c endings)) (hcall : c ≠ .listed) (hlast : endings.getLast? = some last)
    (cause : Foreign) : last ≠ some (.foreign cause) := by
  rintro rfl
  have hmem : some (Failure.foreign cause) ∈ endings := List.mem_of_getLast? hlast
  exact hcall (h ⟨c, _⟩ (List.mem_map_of_mem hmem) cause rfl)

/-! ## One outcome for each reference -/

/-- The outcome that is made of a deletion's ending carries the name the deletion was about. -/
theorem DeletionOutcome.name_ofEnding {name : RefName} {ending : Option Failure}
    {outcome : DeletionOutcome} (h : ofEnding name ending = .ok outcome) : outcome.name = name := by
  match ending with
  | none | some (.error e) => rw [← Except.ok.inj h]; rfl
  | some (.foreign cause) => cases h

/-- Where nothing fails from outside, no outcome is lost: the deletions come to their end with one
for each reference. -/
theorem Deletions.outcomes {limit : Nat} {observer : Option Observer} {seen : List DeletionOutcome}
    {refs : List Reference} {exchanges : List Exchange}
    {result : Except Failure (List DeletionOutcome)}
    (h : Deletions limit observer seen refs exchanges result) (hrecovered : Recovered exchanges)
    (htakes : Takes observer (refs.map (·.name))) :
    ∃ outcomes, result = .ok outcomes ∧
      outcomes.map (·.name) = seen.map (·.name) ++ refs.map (·.name) := by
  -- what ends the deletions early is an observer that complains or a failure from outside
  induction h with
  | finished seen => exact ⟨seen, rfl, (List.append_nil _).symm⟩
  | @next seen reference rest endings last outcome exchanges result _ _ recorded _ _ ih =>
    obtain ⟨outcomes, hresult, hout⟩ := ih hrecovered.right htakes.of_cons
    have hname : outcome.name = reference.name := DeletionOutcome.name_ofEnding recorded
    refine ⟨outcomes, hresult, ?_⟩
    rw [hout, List.map_append, List.append_assoc, List.map_singleton, hname]
    rfl
  | @refused seen reference rest endings last outcome f _ _ recorded complained =>
    have hname : outcome.name = reference.name := DeletionOutcome.name_ofEnding recorded
    have hquiet := htakes seen outcome (hname ▸ .head _)
    cases complained.symm.trans hquiet
  | @escaped seen reference rest endings last f _ ended unrecorded =>
    match last with
    | none | some (.error e) => cases unrecorded
    | some (.foreign cause) => exact absurd rfl (hrecovered.round nofun ended cause)

section

variable {config : Config} {id : Identifier} {owner : Peer} {observer : Option Observer}
  {listing : Listing} {exchanges : List Exchange} {ending : Except Failure PruneResult}

/-- A run that is not dry matches what it has listed, and has one outcome for each match. -/
theorem Conversation.outcomes (h : Conversation config id owner observer listing exchanges ending)
    (hwet : config.dryRun = false) (hrecovered : Recovered exchanges)
    (htakes : listing.failure = none →
      Takes observer ((owner.owned listing.references).map (·.name))) :
    let names := listing.all.map fun references => (owner.owned references).map (·.name)
    ending.map (·.matched) = names ∧ ending.map (·.outcomes.map (·.name)) = names := by
  unfold Listing.all
  cases h with
  | unlisted failed =>
    rw [failed]
    exact ⟨rfl, rfl⟩
  | dry _ hdry => cases hwet.symm.trans hdry
  -- without foreign failures and with an observer who takes all, no deletion ends the run
  | stopped listed _ deleting =>
    have hdeleting := hrecovered.of_cons
    obtain ⟨outcomes, hresult, -⟩ := deleting.outcomes hdeleting (htakes listed)
    cases hresult
  -- and neither does the compaction, whose failure is recorded
  | compacted listed _ deleting _ ended recorded =>
    have hrest := hrecovered.of_cons
    obtain ⟨outcomes, hresult, hout⟩ := deleting.outcomes hrest.left (htakes listed)
    obtain rfl := Except.ok.inj hresult
    rw [listed]
    cases recorded with
    | success | failure => exact ⟨rfl, congrArg Except.ok hout⟩
    | escaped cause => exact absurd rfl (hrest.right.round nofun ended cause)

end

/-! ## Two runs from one state -/

section

variable {pick : Identifier → σ → Answer σ (Storage σ η)} {config : Config} {rid peer : Text}
  {observer : Option Observer} {s : σ} {o : Opening σ η}

/-- A dry run opens, lists and closes, and gives the names that it was to predict. A failure to
close replaces them. -/
theorem pruneNamespace_dry (hdry : config.dryRun = true)
    (hopen : (openNamespace pick config.storageRoot rid peer s).outcome = .ok o) :
    let run := pruneNamespace pick config rid peer observer s
    let listed := o.storage.references o.handle
      (openNamespace pick config.storageRoot rid peer s).after
    let closed := o.storage.close o.handle listed.2
    run.calls = [.opened config.storageRoot o.id.text, .listed, .closed] ∧
      run.after = closed.state ∧
      run.outcome.map (·.matched) = (endingOf closed.result).elim
        (predicted pick config.storageRoot rid peer s) .error := by
  obtain ⟨exchanges, closing, result, hcalls, hstates, hconv, hout⟩ :=
    pruneNamespace_of_ok observer hopen
  have hpredicted : result.map (·.matched) = predicted pick config.storageRoot rid peer s ∧
      ∃ ending, exchanges = [⟨.listed, ending⟩] := by
    rw [predicted, hopen]
    dsimp only [Except.bind, Listing.all]
    cases hconv with
    | unlisted failed =>
      rw [failed]
      exact ⟨rfl, _, rfl⟩
    | dry listed =>
      rw [listed]
      exact ⟨rfl, _, rfl⟩
    -- these two have deleted something
    | stopped _ hwet | compacted _ hwet => cases hwet.symm.trans hdry
  obtain ⟨hpredicted, ending, rfl⟩ := hpredicted
  obtain ⟨t, hlisted, hrest⟩ := hstates.of_cons
  obtain ⟨-, rfl⟩ := hlisted.of_listed
  obtain ⟨hclosing, hafter⟩ := hrest.of_single.of_closed
  refine ⟨hcalls, hafter, ?_⟩
  rw [hout, ← hclosing, ← hpredicted]
  cases closing <;> rfl

/-- Nor does a dry run ask for anything else: no deletion and no compaction is among its calls, also
where it fails. -/
theorem pruneNamespace_dry_calls (hdry : config.dryRun = true) :
    ∀ c ∈ (pruneNamespace pick config rid peer observer s).calls,
      c ≠ .compacted ∧ ∀ name, c ≠ .deleted name := by
  intro c hc
  cases hopen : (openNamespace pick config.storageRoot rid peer s).outcome with
  | error f =>
    obtain ⟨-, -, hjournal⟩ := pruneNamespace_of_error observer hopen
    rw [Run.calls, hjournal, ← Run.calls] at hc
    -- what is not opened was asked for one opening at most
    obtain ⟨hcalls, -⟩ | ⟨id, storage, -, hcalls, -⟩ :=
      openNamespace_cases pick config.storageRoot rid peer s
    · rw [hcalls] at hc
      cases hc
    · rw [hcalls, List.mem_singleton] at hc
      rw [hc]
      simp
  | ok o =>
    rw [(pruneNamespace_dry hdry hopen).1] at hc
    simp only [List.mem_cons, List.not_mem_nil, or_false] at hc
    rcases hc with rfl | rfl | rfl <;> simp

end

section

variable {pick : Identifier → σ → Answer σ (Storage σ η)} {rid peer : Text} {s : σ}

/-- A dry run gives the names that it is to predict, or their failure, where closing does not fail.
-/
theorem pruneNamespace_dry_predicted (config : Config) (observer : Option Observer)
    (hdry : config.dryRun = true)
    (hcloses : ∀ o, (openNamespace pick config.storageRoot rid peer s).outcome = .ok o →
      ∀ t, (o.storage.close o.handle t).result = .ok ()) :
    (pruneNamespace pick config rid peer observer s).outcome.map (·.matched) =
      predicted pick config.storageRoot rid peer s := by
  cases hopen : (openNamespace pick config.storageRoot rid peer s).outcome with
  | error f =>
    rw [(pruneNamespace_of_error _ hopen).1, predicted, hopen]
    rfl
  | ok o =>
    -- what it matches is what it has listed, unless closing fails
    obtain ⟨-, -, hmatched⟩ := pruneNamespace_dry hdry hopen
    rw [hmatched, hcloses o hopen]
    rfl

/-- A run that is not dry matches the predicted names and has one outcome for each of them. If they
cannot be told it fails in the same way. -/
theorem pruneNamespace_outcomes (config : Config) (observer : Option Observer)
    {exchanges : List Exchange} (hwet : config.dryRun = false)
    (hcloses : ∀ o, (openNamespace pick config.storageRoot rid peer s).outcome = .ok o →
      ∀ t, (o.storage.close o.handle t).result = .ok ())
    (hheard : Heard pick config.storageRoot rid peer s
      (pruneNamespace pick config rid peer observer s) exchanges)
    (hrecovered : Recovered exchanges)
    (htakes : ∀ names, predicted pick config.storageRoot rid peer s = .ok names →
      Takes observer names) :
    let run := pruneNamespace pick config rid peer observer s
    run.outcome.map (·.matched) = predicted pick config.storageRoot rid peer s ∧
      run.outcome.map (·.outcomes.map (·.name)) = predicted pick config.storageRoot rid peer s := by
  dsimp only
  cases hheard with
  | nothing hopen =>
    rw [(pruneNamespace_of_error _ hopen).1, predicted, hopen]
    exact ⟨rfl, rfl⟩
  | @talked o _ hopen hasked hanswered =>
    obtain ⟨exchanges, closing, result, hcalls, hstates, hconv, hout⟩ :=
      pruneNamespace_of_ok _ hopen
    -- what the run heard is what the grammar speaks of, as the calls are the same
    obtain ⟨rfl, -⟩ := hanswered.unique hstates (List.cons.inj (hasked.symm.trans hcalls)).2
    obtain ⟨t, -, hclosed⟩ := hstates.split
    obtain ⟨hclosing, -⟩ := hclosed.of_single.of_closed
    rw [hcloses o hopen t] at hclosing
    rw [hout, hclosing, predicted, hopen]
    refine hconv.outcomes hwet hrecovered.left fun hlisted => htakes _ ?_
    exact predicted_of_listed hopen hlisted

/-- A dry run and the run that it stands for, from one state: the one matches the predicted names,
and so does the other, with an outcome for each of them in their order. If the names cannot be told
both fail as opening or listing does. The other run may meet any of the library's own errors, and
its observer takes the outcomes. -/
structure Predicts (pick : Identifier → σ → Answer σ (Storage σ η)) (config : Config)
    (rid peer : Text) (s : σ) : Prop where
  dry : ∀ observer,
    (pruneNamespace pick { config with dryRun := true } rid peer observer s).outcome.map
      (·.matched) = predicted pick config.storageRoot rid peer s
  wet : ∀ observer,
    let run := pruneNamespace pick { config with dryRun := false } rid peer observer s
    ∃ exchanges, Heard pick config.storageRoot rid peer s run exchanges ∧
      (Recovered exchanges →
        (∀ names, predicted pick config.storageRoot rid peer s = .ok names →
          Takes observer names) →
        run.outcome.map (·.matched) = predicted pick config.storageRoot rid peer s ∧
          run.outcome.map (·.outcomes.map (·.name)) =
            predicted pick config.storageRoot rid peer s)

/-- A storage whose closing never fails predicts: the dry run says what the wet run does, since
closing is the only step that comes after the last outcome. -/
theorem predicts_of_closes {config : Config}
    (hcloses : ∀ o, (openNamespace pick config.storageRoot rid peer s).outcome = .ok o →
      ∀ t, (o.storage.close o.handle t).result = .ok ()) : Predicts pick config rid peer s where
  dry observer := pruneNamespace_dry_predicted { config with dryRun := true } observer rfl hcloses
  wet observer := by
    obtain ⟨exchanges, hheard⟩ :=
      exists_heard pick { config with dryRun := false } rid peer observer s
    exact ⟨exchanges, hheard, pruneNamespace_outcomes { config with dryRun := false } observer rfl
      hcloses hheard⟩

end

end RefSweep
