import RefSweep.Proofs.Protocol

/-!
# The opening of a run

A run checks the identifiers, chooses a storage and opens the repository, and only then looks at
what the configuration says beside the storage root. `openNamespace` is this first part, which a dry
run has in common with the run that it stands for (`pruneNamespace_eq_bind`). `Heard` says what a
run asked after it and how that was answered, which the run and the storage determine
(`Heard.unique`).
-/

namespace RefSweep

open Activity

variable {σ η α : Type}

/-- What a run goes on with once the repository is open. -/
structure Opening (σ η : Type) where
  id : Identifier
  owner : Peer
  storage : Storage σ η
  handle : η

/-- The first part of a run, up to the open repository. -/
def openNamespace (pick : Identifier → σ → Answer σ (Storage σ η)) (root : Path)
    (rid peer : Text) : Activity σ (Opening σ η) := do
  let id ← ofExcept (parseRepository rid)
  let owner ← ofExcept (Peer.parse peer)
  let storage ← answer (pick id)
  let handle ← call (.opened root id.text) (storage.openRepository root id)
  pure ⟨id, owner, storage, handle⟩

section

variable {pick : Identifier → σ → Answer σ (Storage σ η)} {root : Path} {config : Config}
  {rid peer : Text} {observer : Option Observer} {s : σ} {o : Opening σ η}

/-- A run is the opening of the namespace, followed by the pruning of what was opened, with the
storage closed in either case. -/
theorem pruneNamespace_eq_bind :
    pruneNamespace pick config rid peer observer =
      openNamespace pick config.storageRoot rid peer >>= fun o =>
        (pruneOpened o.storage o.handle config o.id o.owner observer).closing
          (call .closed (o.storage.close o.handle)) := by
  unfold pruneNamespace openNamespace
  simp only [bind_assoc, pure_bind]

/-- If the namespace opens, then both identifiers were accepted, a storage was picked for them and
it opened the repository. -/
theorem openNamespace_ok (h : (openNamespace pick root rid peer s).outcome = .ok o) :
    parseRepository rid = .ok o.id ∧ Peer.parse peer = .ok o.owner ∧
      (pick o.id s).result = .ok o.storage ∧
      (o.storage.openRepository root o.id (pick o.id s).state).result = .ok o.handle ∧
      (openNamespace pick root rid peer s).after =
        (o.storage.openRepository root o.id (pick o.id s).state).state := by
  unfold openNamespace at h ⊢
  obtain ⟨id, hrid, h, hafter₁⟩ := bind_eq_ok h
  obtain ⟨owner, hpeer, h, hafter₂⟩ := bind_eq_ok h
  obtain ⟨storage, hpick, h, hafter₃⟩ := bind_eq_ok h
  obtain ⟨handle, hopen, h, hafter₄⟩ := bind_eq_ok h
  obtain rfl := Except.ok.inj h
  -- checking the identifiers leaves the state alone; picking and opening are what leads on
  obtain ⟨hrid, hsame⟩ := ofExcept_eq_ok hrid
  rw [hsame] at hpeer hpick hopen hafter₁ hafter₂ hafter₃ hafter₄
  obtain ⟨hpeer, hsame'⟩ := ofExcept_eq_ok hpeer
  rw [hsame'] at hpick hopen hafter₂ hafter₃ hafter₄
  refine ⟨hrid, hpeer, hpick, hopen, ?_⟩
  rw [hafter₁, hafter₂, hafter₃, hafter₄]
  rfl

/-- Either nothing is opened, and at most a storage is looked for, or opening a repository is all
that is asked. -/
theorem openNamespace_cases (pick : Identifier → σ → Answer σ (Storage σ η)) (root : Path)
    (rid peer : Text) (s : σ) :
    let run := openNamespace pick root rid peer s
    run.calls = [] ∧ (run.after = s ∨ ∃ id, run.after = (pick id s).state) ∨
      ∃ id storage, (pick id s).result = .ok storage ∧ run.calls = [.opened root id.text] ∧
        run.after = (storage.openRepository root id (pick id s).state).state := by
  unfold openNamespace
  dsimp only
  cases parseRepository rid with
  | error e => exact .inl ⟨rfl, .inl rfl⟩
  | ok id =>
    cases Peer.parse peer with
    | error e => exact .inl ⟨rfl, .inl rfl⟩
    | ok owner =>
      rw [ofExcept_ok_bind, ofExcept_ok_bind]
      cases hpicked : (pick id s).result with
      | error f =>
        have hanswer : (answer (pick id) s).outcome = .error f := hpicked
        rw [bind_of_error hanswer]
        exact .inl ⟨calls_answer .., .inr ⟨id, rfl⟩⟩
      | ok storage =>
        have hanswer : (answer (pick id) s).outcome = .ok storage := hpicked
        have hcalls := (call_apply (.opened root id.text) (storage.openRepository root id)
          (pick id s).state).2.2
        refine .inr ⟨id, storage, hpicked, ?_, ?_⟩
        · rw [calls_bind_of_ok hanswer, calls_answer, List.nil_append]
          -- whether it succeeds or fails, opening the repository is the one call
          cases hopened : (call (.opened root id.text) (storage.openRepository root id)
              (pick id s).state).outcome with
          | error f => exact (calls_bind_of_error hopened).trans hcalls
          | ok handle => exact (calls_bind_of_ok hopened).trans (by rw [hcalls]; rfl)
        · rw [bind_of_ok hanswer, bind_apply]
          dsimp only
          split <;> rfl

/-- What choosing a storage and opening a repository keep, this part of a run keeps. -/
theorem openNamespace_preserves {I : σ → Prop} (hpick : ∀ id, I (pick id s).state)
    (hopens : ∀ id storage, (pick id s).result = .ok storage →
      I (storage.openRepository root id (pick id s).state).state) (hs : I s) :
    I (openNamespace pick root rid peer s).after := by
  obtain ⟨-, hafter | ⟨id, hafter⟩⟩ | ⟨id, storage, hpicked, -, hafter⟩ :=
    openNamespace_cases pick root rid peer s
  · rwa [hafter]
  · rw [hafter]
    exact hpick id
  · rw [hafter]
    exact hopens id storage hpicked

/-- Opening the namespace asks the storage for one thing only. -/
theorem calls_openNamespace (h : (openNamespace pick root rid peer s).outcome = .ok o) :
    (openNamespace pick root rid peer s).calls = [.opened root o.id.text] := by
  unfold openNamespace at h ⊢
  obtain ⟨id, hrid, h, -⟩ := bind_eq_ok h
  obtain ⟨owner, hpeer, h, -⟩ := bind_eq_ok h
  obtain ⟨storage, hpick, h, -⟩ := bind_eq_ok h
  obtain ⟨handle, hopen, h, -⟩ := bind_eq_ok h
  obtain rfl := Except.ok.inj h
  rw [calls_bind_of_ok hrid, calls_bind_of_ok hpeer, calls_bind_of_ok hpick, calls_answer,
    calls_bind_of_ok hopen, (call_apply ..).2.2]
  cases parseRepository rid <;> cases Peer.parse peer <;> rfl

/-- Nothing but calls and log lines is written so far. -/
theorem omits_openNamespace {γ : Type} {view : Event → Option γ}
    (hlogged : ∀ l, view (.logged l) = none) (hcalled : ∀ c, view (.called c) = none) :
    Omits view (openNamespace pick root rid peer) := by
  have hcheck : ∀ {β : Type} (check : Except Error β),
      Omits view (ofExcept check : Activity σ β) := fun _ _ => rfl
  exact .bind (hcheck _) fun _ => .bind (hcheck _) fun _ => .bind (omits_answer hlogged _)
    fun _ => .bind (omits_call hlogged (hcalled _) _) fun _ _ => rfl

/-- A run that opens nothing is nothing but that attempt. -/
theorem pruneNamespace_of_error (observer : Option Observer) {f : Failure}
    (h : (openNamespace pick config.storageRoot rid peer s).outcome = .error f) :
    (pruneNamespace pick config rid peer observer s).outcome = .error f ∧
      (pruneNamespace pick config rid peer observer s).after =
        (openNamespace pick config.storageRoot rid peer s).after ∧
      (pruneNamespace pick config rid peer observer s).journal =
        (openNamespace pick config.storageRoot rid peer s).journal := by
  rw [pruneNamespace_eq_bind, bind_of_error h]
  exact ⟨rfl, rfl, rfl⟩

/-- A run that opens a repository keeps to the grammar and closes it: what it asks for is the
opening, a conversation, and the closing, whose failure takes the place of the result. -/
theorem pruneNamespace_of_ok (observer : Option Observer)
    (h : (openNamespace pick config.storageRoot rid peer s).outcome = .ok o) :
    let start := (openNamespace pick config.storageRoot rid peer s).after
    let run := pruneNamespace pick config rid peer observer s
    ∃ exchanges closing result,
      run.calls = .opened config.storageRoot o.id.text ::
        (exchanges ++ [⟨.closed, closing⟩]).map (·.call) ∧
      Exchanged o.storage o.handle start (exchanges ++ [⟨.closed, closing⟩]) run.after ∧
      Conversation config o.id o.owner observer (o.storage.references o.handle start).1 exchanges
        result ∧
      run.outcome = closing.elim result .error := by
  obtain ⟨hrid, hpeer, hpick, hopen, hafter⟩ := openNamespace_ok h
  dsimp only
  rw [hafter]
  exact pruneNamespace_opened hrid hpeer hpick hopen

/-- A result is about the repository and the peer that were asked for, and what it has matched are
the owned references of a listing that came to its end. -/
theorem Conversation.result {id : Identifier} {owner : Peer} {listing : Listing}
    {exchanges : List Exchange} {ending : Except Failure PruneResult} {result : PruneResult}
    (h : Conversation config id owner observer listing exchanges ending)
    (hok : ending = .ok result) :
    result.repository = id.text ∧ result.peer = owner.id.text ∧ listing.failure = none ∧
      result.matched = (owner.owned listing.references).map (·.name) := by
  cases h with
  | unlisted => cases hok
  | dry hlisted =>
    rw [← Except.ok.inj hok]
    exact ⟨rfl, rfl, hlisted, rfl⟩
  | stopped => cases hok
  -- a failed compaction is recorded in the result; only a foreign failure leaves none
  | compacted hlisted _ _ _ _ recorded =>
    cases recorded with
    | escaped => cases hok
    | success | failure =>
      rw [← Except.ok.inj hok]
      exact ⟨rfl, rfl, hlisted, rfl⟩

/-- A run that gives a result opened the namespace, listed all the references and closed the storage
again. -/
theorem pruneNamespace_result {result : PruneResult}
    (h : (pruneNamespace pick config rid peer observer s).outcome = .ok result) :
    ∃ o, (openNamespace pick config.storageRoot rid peer s).outcome = .ok o ∧
      let listing := (o.storage.references o.handle
        (openNamespace pick config.storageRoot rid peer s).after).1
      result.repository = o.id.text ∧ result.peer = o.owner.id.text ∧ listing.failure = none ∧
        result.matched = (o.owner.owned listing.references).map (·.name) := by
  cases hopen : (openNamespace pick config.storageRoot rid peer s).outcome with
  | error f =>
    rw [(pruneNamespace_of_error _ hopen).1] at h
    cases h
  | ok o =>
    obtain ⟨_, closing, _, -, -, hconv, hout⟩ := pruneNamespace_of_ok _ hopen
    refine ⟨o, rfl, ?_⟩
    -- a failure of the closing takes the place of the result
    cases closing with
    | none => exact hconv.result (hout.symm.trans h)
    | some f => cases hout.symm.trans h

end

/-! ## What is answered is determined by what is asked -/

section Determined

variable {storage : Storage σ η} {handle : η} {s t t' : σ}

theorem Answers.unique {e e' : Exchange} (h : Answers storage handle s e t)
    (h' : Answers storage handle s e' t') (hcall : e.call = e'.call) : e = e' ∧ t = t' := by
  cases h <;> cases h' <;> cases hcall <;> exact ⟨rfl, rfl⟩

/-- One list of requests in one state has one list of answers, and leads to one state. -/
theorem Exchanged.unique {es es' : List Exchange} (h : Exchanged storage handle s es t)
    (h' : Exchanged storage handle s es' t') (hcalls : es.map (·.call) = es'.map (·.call)) :
    es = es' ∧ t = t' := by
  -- by induction on the first list: equal calls in one state are answered alike and lead on alike
  induction h generalizing es' with
  | nil =>
    obtain rfl : es' = [] := List.map_eq_nil_iff.1 hcalls.symm
    cases h'
    exact ⟨rfl, rfl⟩
  | cons first others ih =>
    cases h' with
    | nil => cases hcalls
    | cons first' others' =>
      obtain ⟨hcall, hrest⟩ := List.cons.inj hcalls
      obtain ⟨rfl, rfl⟩ := first.unique first' hcall
      obtain ⟨rfl, rfl⟩ := ih others' hrest
      exact ⟨rfl, rfl⟩

end Determined

/-! ## What a run hears -/

/-- The exchanges of a run on an open repository; none if it has not opened one. -/
inductive Heard (pick : Identifier → σ → Answer σ (Storage σ η)) (root : Path) (rid peer : Text)
    (s : σ) (run : Run σ α) : List Exchange → Prop where
  | nothing {f} (failed : (openNamespace pick root rid peer s).outcome = .error f) :
      Heard pick root rid peer s run []
  | talked {o exchanges} (opened : (openNamespace pick root rid peer s).outcome = .ok o)
      (asked : run.calls = .opened root o.id.text :: exchanges.map (·.call))
      (answered : Exchanged o.storage o.handle (openNamespace pick root rid peer s).after exchanges
        run.after) :
      Heard pick root rid peer s run exchanges

section

variable {pick : Identifier → σ → Answer σ (Storage σ η)} {root : Path} {config : Config}
  {rid peer : Text} {observer : Option Observer} {s : σ} {run : Run σ α}

/-- So what a run hears is determined by what it asks. -/
theorem Heard.unique {es es' : List Exchange} (h : Heard pick root rid peer s run es)
    (h' : Heard pick root rid peer s run es') : es = es' := by
  cases h with
  | nothing hfailed =>
    cases h' with
    | nothing => rfl
    | talked hopened => cases hfailed.symm.trans hopened
  | talked hopened hasked hanswered =>
    cases h' with
    | nothing hfailed => cases hopened.symm.trans hfailed
    | talked hopened' hasked' hanswered' =>
      obtain rfl := Except.ok.inj (hopened.symm.trans hopened')
      exact (hanswered.unique hanswered' (List.cons.inj (hasked.symm.trans hasked')).2).1

/-- Every run has heard something. -/
theorem exists_heard (pick : Identifier → σ → Answer σ (Storage σ η)) (config : Config)
    (rid peer : Text) (observer : Option Observer) (s : σ) :
    ∃ es, Heard pick config.storageRoot rid peer s
      (pruneNamespace pick config rid peer observer s) es := by
  cases hopen : (openNamespace pick config.storageRoot rid peer s).outcome with
  | error f => exact ⟨[], .nothing hopen⟩
  | ok o =>
    obtain ⟨exchanges, closing, result, hcalls, hstates, -⟩ := pruneNamespace_of_ok observer hopen
    exact ⟨_, .talked hopen hcalls hstates⟩

/-- The deletions that a run asks for are those of owned references of the listing. So a deletion
never names anything that the listing of this run has not shown. -/
theorem Heard.deleted {es : List Exchange} {e : Exchange} {name : RefName}
    (h : Heard pick config.storageRoot rid peer s
      (pruneNamespace pick config rid peer observer s) es)
    (he : e ∈ es) (hcall : e.call = .deleted name) :
    ∃ o, (openNamespace pick config.storageRoot rid peer s).outcome = .ok o ∧
      ∃ r ∈ o.owner.owned (o.storage.references o.handle
        (openNamespace pick config.storageRoot rid peer s).after).1.references, r.name = name := by
  cases h with
  | nothing => cases he
  | @talked o _ hopened hasked hanswered =>
    -- the calls are those that the grammar allows, and they determine the answers
    obtain ⟨exchanges, closing, result, hcalls, hstates, hconv, -⟩ := pruneNamespace_of_ok _ hopened
    obtain ⟨rfl, -⟩ := hanswered.unique hstates (List.cons.inj (hasked.symm.trans hcalls)).2
    obtain ⟨rest, rfl, hrest⟩ := hconv.calls
    rcases List.mem_append.1 he with he | he
    · rcases List.mem_cons.1 he with rfl | he
      · cases hcall
      · rcases hrest with rfl | ⟨-, -, hrest⟩
        · cases he
        · rcases hrest e he with ⟨r, hr, hdeletes⟩ | hcompacts
          · exact ⟨o, hopened, r, hr, Call.deleted.inj (hdeletes.symm.trans hcall)⟩
          · cases hcompacts.symm.trans hcall
    · rw [List.mem_singleton.1 he] at hcall
      cases hcall

end

end RefSweep
