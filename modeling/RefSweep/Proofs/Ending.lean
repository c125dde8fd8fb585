import RefSweep.Proofs.Account

/-!
# Where the results of a run come from

The calls of a run and how they ended do not tell what they gave. Here a result is traced back to
the storage: an operation that is retried gives what its last attempt gave (`retrying_last`), and
the result of a run is put together from the listing, the deletions and the compaction
(`pruneNamespace_ok`).
-/

namespace RefSweep

open Activity

variable {σ η α : Type} {storage : Storage σ η} {handle : η}

/-! ## Retried operations -/

section Retrying

variable {c : Call} {operation : σ → Answer σ α}

/-- The attempts before the last one are exchanges like any other. -/
theorem retrying_last (storage : Storage σ η) (handle : η) (retry : Option RetryPolicy)
    (hop : ∀ s, Answers storage handle s ⟨c, endingOf (operation s).result⟩ (operation s).state)
    (s : σ) :
    ∃ endings t, Exchanged storage handle s (round c endings) t ∧
      (retrying retry (call c operation) s).outcome = (operation t).result ∧
      (retrying retry (call c operation) s).after = (operation t).state := by
  obtain ⟨m, -, -, -, hout, hafter, -⟩ := retrying_invocations retry (call c operation) s
  exact ⟨_, _, exchanged_endings hop m s, hout, hafter⟩

/-- A first attempt that succeeds is the only one, under a policy as without one. -/
theorem retrying_of_ok (retry : Option RetryPolicy) {s : σ} {v : α}
    (h : (operation s).result = .ok v) :
    (retrying retry (call c operation) s).outcome = .ok v ∧
      (retrying retry (call c operation) s).after = (operation s).state := by
  obtain ⟨m, -, hlocks, -, hout, hafter, -⟩ := retrying_invocations retry (call c operation) s
  have hfirst : ((call c operation).invocation s 0).outcome = .ok v := h
  have hm : m = 0 := by
    refine Nat.eq_zero_of_not_pos fun hpos => ?_
    have hlock := hlocks 0 hpos
    rw [hfirst] at hlock
    cases hlock
  subst hm
  exact ⟨hout.trans hfirst, hafter⟩

end Retrying

/-! ## The parts of a run -/

section Parts

variable {retry : Option RetryPolicy} {observer : Option Observer} {s : σ}

/-- A compaction that is recorded as a success is one of the storage: the last attempt succeeded,
and what it left is what is left. -/
theorem compactRepository_ok {compaction : CompactionResult}
    (h : (compactRepository storage handle retry s).outcome = .ok compaction) :
    ∃ endings t, Exchanged storage handle s (round .compacted endings) t ∧
      (compactRepository storage handle retry s).after = (storage.compact handle t).state ∧
      (compaction.ok = true →
        ∃ stats, (storage.compact handle t).result = .ok stats ∧ compaction = .success stats) := by
  obtain ⟨endings, t, hex, hout, hafter⟩ := retrying_last storage handle retry .compacted s
  unfold compactRepository at h ⊢
  rw [attempt_bind] at h ⊢
  refine ⟨endings, t, hex, ?_, fun hok => ?_⟩
  · rw [← hafter]
    cases (retrying retry (call .compacted (storage.compact handle)) s).outcome with
    | ok stats => rfl
    | error f => cases f <;> rfl
  · -- a failure of the library is recorded as one, so a recorded success is none
    rw [hout] at h
    cases hr : (storage.compact handle t).result with
    | ok stats =>
      rw [hr] at h
      exact ⟨stats, rfl, (Except.ok.inj h).symm⟩
    | error f =>
      rw [hr] at h
      cases f with
      | error e =>
        obtain rfl := Except.ok.inj h
        cases hok
      | foreign cause => cases h

/-- A compaction that succeeds at the first attempt is recorded as a success. -/
theorem compactRepository_of_ok {stats : CompactionStats}
    (h : (storage.compact handle s).result = .ok stats) :
    (compactRepository storage handle retry s).outcome = .ok (.success stats) := by
  obtain ⟨hout, -⟩ := retrying_of_ok (c := .compacted) retry h
  unfold compactRepository
  rw [attempt_bind, hout]
  rfl

/-- A deletion that succeeds at the first attempt is recorded as one, and leaves what that attempt
left. -/
theorem attemptDeletion_of_ok (retry : Option RetryPolicy) {reference : Reference}
    (h : (storage.deleteReference handle reference.name s).result = .ok ()) :
    (attemptDeletion storage handle retry reference s).outcome = .ok (.success reference.name) ∧
      (attemptDeletion storage handle retry reference s).after =
        (storage.deleteReference handle reference.name s).state := by
  obtain ⟨hout, hafter⟩ := retrying_of_ok (c := .deleted reference.name) retry h
  unfold attemptDeletion
  rw [attempt_bind, hout, ← hafter]
  exact ⟨rfl, rfl⟩

/-- Where each deletion of a reference that is there succeeds, all of them do. -/
theorem deleteEach_of_ok (retry : Option RetryPolicy) {holds : σ → List Reference → Prop}
    (hquiet : ∀ seen, complaint? observer seen = none)
    (hdelete : ∀ {s refs name}, holds s refs → name ∈ refs.map (·.name) →
      (storage.deleteReference handle name s).result = .ok () ∧
        holds (storage.deleteReference handle name s).state (withoutFirst name refs))
    {pending refs : List Reference} {seen : List DeletionOutcome} (hs : holds s refs)
    (hpending : (pending.map (·.name)).Sublist (refs.map (·.name))) :
    let deleting := deleteEach storage handle retry observer seen pending s
    deleting.outcome = .ok (seen ++ pending.map fun r => .success r.name) ∧
      holds deleting.after (withoutEach (pending.map (·.name)) refs) := by
  induction pending generalizing s refs seen with
  | nil => exact ⟨by simp [deleteEach], hs⟩
  | cons reference rest ih =>
    have hname : reference.name ∈ refs.map (·.name) := hpending.subset (by simp)
    obtain ⟨hok, hleft⟩ := hdelete hs hname
    obtain ⟨hout, hafter⟩ := attemptDeletion_of_ok retry hok
    -- the names to come are still among the others
    have hrest := hpending.erase reference.name
    rw [List.map_cons, List.erase_cons_head, ← map_name_withoutFirst] at hrest
    rcases deleteEach_cons storage handle retry observer reference rest seen s with
      ⟨f, hf, -⟩ | ⟨outcome, f, -, hc, -⟩ | ⟨outcome, ho, -, hrun⟩
    · cases hout.symm.trans hf
    · cases (hquiet _).symm.trans hc
    · obtain rfl := Except.ok.inj (hout.symm.trans ho)
      rw [hrun, hafter]
      obtain ⟨hothers, hend⟩ := ih hleft hrest
      refine ⟨hothers.trans ?_, hend⟩
      simp

end Parts

/-! ## The whole run -/

/-- All of a listing are its references, if it has no failure. -/
theorem Listing.all_eq_ok {l : Listing} {refs : List Reference} (h : l.all = .ok refs) :
    l.failure = none ∧ refs = l.references := by
  unfold Listing.all at h
  split at h
  · cases h
  next hnone => exact ⟨hnone, (Except.ok.inj h).symm⟩

/-- The result of a run on an open repository that is not dry: it lists everything, deletes what
matches, compacts, and puts the answers together. -/
theorem pruneOpened_ok {config : Config} {rid : Identifier} {peer : Peer}
    {observer : Option Observer} {s : σ} {result : PruneResult} (hwet : config.dryRun = false)
    (h : (pruneOpened storage handle config rid peer observer s).outcome = .ok result) :
    ∃ outcomes compaction,
      let listed := storage.references handle s
      let matched := peer.owned listed.1.references
      let retry := some ⟨config.attempts, config.waitMax⟩
      let deleting := deleteEach storage handle retry observer [] matched listed.2
      let compacting := compactRepository storage handle retry deleting.after
      listed.1.failure = none ∧ deleting.outcome = .ok outcomes ∧
        compacting.outcome = .ok compaction ∧
        (pruneOpened storage handle config rid peer observer s).after = compacting.after ∧
        result = ⟨rid.text, peer.id.text, matched.map (·.name), outcomes, some compaction⟩ := by
  unfold pruneOpened at h ⊢
  simp only [hwet, Bool.false_eq_true, if_false] at h ⊢
  -- log lines stand between the listing, the deletions and the compaction
  obtain ⟨-, -, h, hafter₁⟩ := bind_eq_ok h
  obtain ⟨-, -, h, hafter₂⟩ := bind_eq_ok h
  obtain ⟨references, hlisted, h, hafter₃⟩ := bind_eq_ok h
  obtain ⟨-, -, h, hafter₄⟩ := bind_eq_ok h
  obtain ⟨-, -, h, hafter₅⟩ := bind_eq_ok h
  obtain ⟨outcomes, hdeleted, h, hafter₆⟩ := bind_eq_ok h
  obtain ⟨-, -, h, hafter₇⟩ := bind_eq_ok h
  obtain ⟨compaction, hcompacted, h, hafter₈⟩ := bind_eq_ok h
  obtain ⟨-, -, h, hafter₉⟩ := bind_eq_ok h
  simp only [outcome_during, after_during] at hlisted hdeleted hcompacted
  obtain ⟨hwhole, rfl⟩ := Listing.all_eq_ok hlisted
  have hdone : result = _ := (Except.ok.inj h).symm
  refine ⟨outcomes, compaction, hwhole, ?_, ?_, ?_, hdone⟩
  · rw [← pruneReferences_eq]
    exact hdeleted
  · rw [← pruneReferences_eq]
    exact hcompacted
  · rw [hafter₁, hafter₂, hafter₃, hafter₄, hafter₅, hafter₆, hafter₇, hafter₈, hafter₉,
      ← pruneReferences_eq]
    simp only [after_during]
    rfl

/-- The result of a run that is not dry: that of the part in which the repository is open, with the
closing as the only step behind it. -/
theorem pruneNamespace_ok {pick : Identifier → σ → Answer σ (Storage σ η)} {config : Config}
    {rid peer : Text} {observer : Option Observer} {s : σ} {id : Identifier} {owner : Peer}
    {result : PruneResult} (hrid : parseRepository rid = .ok id)
    (hpeer : Peer.parse peer = .ok owner) (hwet : config.dryRun = false)
    (hpick : (pick id s).result = .ok storage)
    (hopen : (storage.openRepository config.storageRoot id (pick id s).state).result = .ok handle)
    (h : (pruneNamespace pick config rid peer observer s).outcome = .ok result) :
    ∃ outcomes compaction,
      let start := (storage.openRepository config.storageRoot id (pick id s).state).state
      let listed := storage.references handle start
      let matched := owner.owned listed.1.references
      let retry := some ⟨config.attempts, config.waitMax⟩
      let deleting := deleteEach storage handle retry observer [] matched listed.2
      let compacting := compactRepository storage handle retry deleting.after
      listed.1.failure = none ∧ deleting.outcome = .ok outcomes ∧
        compacting.outcome = .ok compaction ∧
        (pruneNamespace pick config rid peer observer s).after =
          (storage.close handle compacting.after).state ∧
        result = ⟨id.text, owner.id.text, matched.map (·.name), outcomes, some compaction⟩ := by
  rw [(pruneNamespace_eq_closing hrid hpeer hpick hopen).1] at h
  rw [(pruneNamespace_eq_closing hrid hpeer hpick hopen).2.2]
  -- closing gives the result on unchanged, so it is that of the part in between
  obtain ⟨outcomes, compaction, hwhole, hdeleted, hcompacted, hafter, hresult⟩ :=
    pruneOpened_ok hwet (closing_eq_ok h)
  refine ⟨outcomes, compaction, hwhole, hdeleted, hcompacted, ?_, hresult⟩
  show (storage.close handle (pruneOpened storage handle config id owner observer _).after).state = _
  rw [hafter]

/-- The compaction that a successful run reports is the last thing but closing that happened, after
nothing but a listing, deletions of what was matched, and compactions. -/
theorem pruneNamespace_compaction {pick : Identifier → σ → Answer σ (Storage σ η)} {config : Config}
    {rid peer : Text} {observer : Option Observer} {s : σ} {id : Identifier} {owner : Peer}
    {result : PruneResult} (hrid : parseRepository rid = .ok id)
    (hpeer : Peer.parse peer = .ok owner) (hwet : config.dryRun = false)
    (hpick : (pick id s).result = .ok storage)
    (hopen : (storage.openRepository config.storageRoot id (pick id s).state).result = .ok handle)
    (h : (pruneNamespace pick config rid peer observer s).outcome = .ok result)
    (hok : result.ok = true) :
    let start := (storage.openRepository config.storageRoot id (pick id s).state).state
    (storage.references handle start).1.failure = none ∧
    result.matched = (owner.owned (storage.references handle start).1.references).map (·.name) ∧
    ∃ es t stats, Exchanged storage handle start es t ∧
      (∀ e ∈ es, ∀ name, e.call = .deleted name → name ∈ result.matched) ∧
      (storage.compact handle t).result = .ok stats ∧ result.compaction = some (.success stats) ∧
      (pruneNamespace pick config rid peer observer s).after =
        (storage.close handle (storage.compact handle t).state).state := by
  intro start
  obtain ⟨outcomes, compaction, hwhole, hdeleted, hcompacted, hafter, rfl⟩ :=
    pruneNamespace_ok hrid hpeer hwet hpick hopen h
  -- the exchanges are the listing, the deletions and the compactions, in this order
  have hlisted : Answers storage handle start _ _ := .listed start
  obtain ⟨deletions, hdeletions, hgrammar⟩ := deleteEach_performs storage handle
    (some ⟨config.attempts, config.waitMax⟩) observer
    (owner.owned (storage.references handle start).1.references) []
    (storage.references handle start).2
  obtain ⟨endings, t, hcompactions, hlast, hsuccess⟩ := compactRepository_ok hcompacted
  obtain ⟨stats, hstats, rfl⟩ := hsuccess (Bool.and_eq_true_iff.1 hok).2
  refine ⟨hwhole, rfl, _, t, stats, .cons hlisted (hdeletions.states.append hcompactions), ?_,
    hstats, rfl, ?_⟩
  · intro e he name hcall
    rcases List.mem_cons.1 he with rfl | he
    · cases hcall
    · rcases List.mem_append.1 he with he | he
      · -- the deletions are those of the matched references
        obtain ⟨r, hr, hdeletes⟩ := hgrammar.calls e he
        obtain rfl := Call.deleted.inj (hdeletes.symm.trans hcall)
        exact List.mem_map_of_mem hr
      · cases (mem_round he).symm.trans hcall
  · rw [hafter, hlast]

end RefSweep
