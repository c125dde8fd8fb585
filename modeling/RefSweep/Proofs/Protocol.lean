import RefSweep.Proofs.Conversation

/-!
# What a whole run asks of its storage

A run checks the identifiers, finds its storage, opens the repository, and closes it at the end.
Main statement: `pruneNamespace_conversation`, between opening and closing stands a conversation
that keeps to the grammar, and nothing else is ever asked.
-/

namespace RefSweep

variable {σ η : Type}

section Namespace

open Activity

variable {pick : Identifier → σ → Answer σ (Storage σ η)} {config : Config} {rid peer : Text}
  {observer : Option Observer} {s : σ} {id : Identifier} {owner : Peer}

/-- A repository that is not accepted ends the run before anything is asked. -/
theorem pruneNamespace_of_bad_repository {e : Error} (hrid : parseRepository rid = .error e) :
    pruneNamespace pick config rid peer observer s = ⟨.error (.error e), s, []⟩ := by
  unfold pruneNamespace
  rw [hrid, ofExcept_error_bind]

/-- So does a peer that is not accepted. -/
theorem pruneNamespace_of_bad_peer (hrid : parseRepository rid = .ok id) {e : Error}
    (hpeer : Peer.parse peer = .error e) :
    pruneNamespace pick config rid peer observer s = ⟨.error (.error e), s, []⟩ := by
  unfold pruneNamespace
  rw [hrid, ofExcept_ok_bind, hpeer, ofExcept_error_bind]

/-- Accepted identifiers lead to the choice of the storage. -/
theorem pruneNamespace_eq (hrid : parseRepository rid = .ok id)
    (hpeer : Peer.parse peer = .ok owner) :
    pruneNamespace pick config rid peer observer s = (do
      let storage ← answer (pick id)
      let handle ← call (.opened config.storageRoot id.text)
        (storage.openRepository config.storageRoot id)
      (pruneOpened storage handle config id owner observer).closing
        (call .closed (storage.close handle)) : Activity σ PruneResult) s := by
  unfold pruneNamespace
  rw [hrid, ofExcept_ok_bind, hpeer, ofExcept_ok_bind]

/-- A run that finds no storage fails as the search for it does, and asks for nothing. -/
theorem pruneNamespace_unpicked (hrid : parseRepository rid = .ok id)
    (hpeer : Peer.parse peer = .ok owner) {f : Failure} (hpick : (pick id s).result = .error f) :
    (pruneNamespace pick config rid peer observer s).outcome = .error f ∧
      (pruneNamespace pick config rid peer observer s).calls = [] ∧
      (pruneNamespace pick config rid peer observer s).after = (pick id s).state := by
  have hpicked : (answer (pick id) s).outcome = .error f := hpick
  rw [pruneNamespace_eq hrid hpeer, bind_of_error hpicked]
  exact ⟨rfl, calls_answer (pick id) s, rfl⟩

section Opening

variable {storage : Storage σ η} (hrid : parseRepository rid = .ok id)
  (hpeer : Peer.parse peer = .ok owner) (hpick : (pick id s).result = .ok storage)

include hrid hpeer hpick

/-- A run whose repository does not open fails as the opening does, which is all it has asked for.
-/
theorem pruneNamespace_unopened {f : Failure}
    (hopen : (storage.openRepository config.storageRoot id (pick id s).state).result = .error f) :
    (pruneNamespace pick config rid peer observer s).outcome = .error f ∧
      (pruneNamespace pick config rid peer observer s).calls =
        [.opened config.storageRoot id.text] ∧
      (pruneNamespace pick config rid peer observer s).after =
        (storage.openRepository config.storageRoot id (pick id s).state).state := by
  have hpicked : (answer (pick id) s).outcome = .ok storage := hpick
  obtain ⟨hout, -, hcalls⟩ := call_apply (.opened config.storageRoot id.text)
    (storage.openRepository config.storageRoot id) (answer (pick id) s).after
  have hfailed := hout.trans hopen
  rw [pruneNamespace_eq hrid hpeer]
  refine ⟨?_, ?_, ?_⟩
  · rw [bind_of_ok hpicked, bind_of_error hfailed]
  · rw [calls_bind_of_ok hpicked, calls_answer, List.nil_append, calls_bind_of_error hfailed,
      hcalls]
  · rw [bind_of_ok hpicked, bind_of_error hfailed]
    rfl

/-- A run whose repository opens is what is done with the open repository, with the closing behind
it. -/
theorem pruneNamespace_eq_closing {handle : η}
    (hopen : (storage.openRepository config.storageRoot id (pick id s).state).result = .ok handle) :
    let closed := (pruneOpened storage handle config id owner observer).closing
      (call .closed (storage.close handle))
      (storage.openRepository config.storageRoot id (pick id s).state).state
    (pruneNamespace pick config rid peer observer s).outcome = closed.outcome ∧
      (pruneNamespace pick config rid peer observer s).calls =
        .opened config.storageRoot id.text :: closed.calls ∧
      (pruneNamespace pick config rid peer observer s).after = closed.after := by
  have hpicked : (answer (pick id) s).outcome = .ok storage := hpick
  obtain ⟨hout, -, hcalls⟩ := call_apply (.opened config.storageRoot id.text)
    (storage.openRepository config.storageRoot id) (answer (pick id) s).after
  have hopened := hout.trans hopen
  rw [pruneNamespace_eq hrid hpeer]
  refine ⟨?_, ?_, ?_⟩
  · rw [bind_of_ok hpicked, bind_of_ok hopened]
    rfl
  · rw [calls_bind_of_ok hpicked, calls_answer, List.nil_append, calls_bind_of_ok hopened, hcalls]
    rfl
  · rw [bind_of_ok hpicked, bind_of_ok hopened]
    rfl

/-- Once the repository is open, the run keeps to the grammar, and closing it comes last. A failure
to close replaces what the run would have given. -/
theorem pruneNamespace_opened {handle : η}
    (hopen : (storage.openRepository config.storageRoot id (pick id s).state).result = .ok handle) :
    let start := (storage.openRepository config.storageRoot id (pick id s).state).state
    let run := pruneNamespace pick config rid peer observer s
    ∃ exchanges closing result,
      run.calls =
        .opened config.storageRoot id.text :: (exchanges ++ [⟨.closed, closing⟩]).map (·.call) ∧
      Exchanged storage handle start (exchanges ++ [⟨.closed, closing⟩]) run.after ∧
      Conversation config id owner observer (storage.references handle start).1 exchanges result ∧
      run.outcome = closing.elim result .error := by
  intro start run
  obtain ⟨hout, hcalls, hafter⟩ :=
    pruneNamespace_eq_closing hrid hpeer hpick hopen
  obtain ⟨exchanges, hperf, hconv⟩ :=
    pruneOpened_performs storage handle config id owner observer start
  have hclose : Performs storage handle _ _ _ :=
    .single (.closed (pruneOpened storage handle config id owner observer start).after)
  have hwhole := hperf.closing hclose
  refine ⟨exchanges, endingOf (storage.close handle
    (pruneOpened storage handle config id owner observer start).after).result, _, ?_, ?_, hconv, ?_⟩
  · rw [← hwhole.calls]
    exact hcalls
  · rw [hafter]
    exact hwhole.states
  · exact hout.trans (outcome_closing ..)

end Opening

/-- What choosing the storage, opening the repository and every answer keep of the state, a run
keeps. -/
theorem pruneNamespace_preserves {I : σ → Prop} (hpick : ∀ id, I s → I (pick id s).state)
    (hopen : ∀ id storage t, (pick id s).result = .ok storage → I t →
      I (storage.openRepository config.storageRoot id t).state)
    (hanswers : ∀ {id storage handle t u e}, (pick id s).result = .ok storage →
      Answers storage handle t e u → I t → I u) (hs : I s) :
    I (pruneNamespace pick config rid peer observer s).after := by
  cases hrid : parseRepository rid with
  | error e =>
    rw [pruneNamespace_of_bad_repository hrid]
    exact hs
  | ok id =>
    cases hpeer : Peer.parse peer with
    | error e =>
      rw [pruneNamespace_of_bad_peer hrid hpeer]
      exact hs
    | ok owner =>
      cases hpicked : (pick id s).result with
      | error f =>
        rw [(pruneNamespace_unpicked hrid hpeer hpicked).2.2]
        exact hpick id hs
      | ok storage =>
        have hopened := hopen id storage _ hpicked (hpick id hs)
        cases hok : (storage.openRepository config.storageRoot id (pick id s).state).result with
        | error f =>
          rw [(pruneNamespace_unopened hrid hpeer hpicked hok).2.2]
          exact hopened
        | ok handle =>
          obtain ⟨_, _, _, -, hexchanged, -⟩ := pruneNamespace_opened hrid hpeer hpicked hok
          -- once the repository is open, what is kept is carried along the answers
          exact hexchanged.preserves (fun _ hanswer ht => hanswers hpicked hanswer ht) hopened

end Namespace

/-- What a run asks of a storage, for every storage and every observer: nothing if an identifier is
not accepted or no storage is found, only the opening if that fails, and otherwise a conversation
that keeps to the grammar, with the closing once and last. -/
theorem pruneNamespace_conversation (pick : Identifier → σ → Answer σ (Storage σ η))
    (config : Config) (rid peer : Text) (observer : Option Observer) (s : σ) :
    let run := pruneNamespace pick config rid peer observer s
    match parseRepository rid, Peer.parse peer with
    | .ok id, .ok owner =>
      match (pick id s).result with
      | .error _ => run.calls = []
      | .ok storage =>
        let opening := storage.openRepository config.storageRoot id (pick id s).state
        match opening.result with
        | .error _ => run.calls = [.opened config.storageRoot id.text]
        | .ok handle => ∃ exchanges closing result,
          run.calls =
            .opened config.storageRoot id.text :: (exchanges ++ [⟨.closed, closing⟩]).map (·.call) ∧
          Exchanged storage handle opening.state (exchanges ++ [⟨.closed, closing⟩]) run.after ∧
          Conversation config id owner observer (storage.references handle opening.state).1 exchanges
            result ∧
          run.outcome = closing.elim result .error
    | _, _ => run.calls = [] := by
  intro run
  -- the cases follow the order of a run: the two identifiers, the choice of a storage, the opening
  cases hrid : parseRepository rid with
  | error e =>
    show (pruneNamespace pick config rid peer observer s).calls = []
    rw [pruneNamespace_of_bad_repository hrid]
    rfl
  | ok id =>
    cases hpeer : Peer.parse peer with
    | error e =>
      show (pruneNamespace pick config rid peer observer s).calls = []
      rw [pruneNamespace_of_bad_peer hrid hpeer]
      rfl
    | ok owner =>
      dsimp only
      split
      next f hpick => exact (pruneNamespace_unpicked hrid hpeer hpick).2.1
      next storage hpick =>
        split
        next f hopen => exact (pruneNamespace_unopened hrid hpeer hpick hopen).2.1
        next handle hopen => exact pruneNamespace_opened hrid hpeer hpick hopen

end RefSweep
