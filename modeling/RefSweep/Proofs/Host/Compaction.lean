import RefSweep.Proofs.Host.Account
import RefSweep.Proofs.Retry

/-!
# What a retried compaction reports

A compaction commits in its middle, and it is retried as a whole. An attempt that a lock refuses
before the commit leaves the store as it was; one that is refused after it leaves the store
collected, and the attempts that follow find nothing to delete. Main statement:
`compactRepository_counts`, a success reports the objects that are gone unless an earlier attempt
was refused after its commit, in which case it reports none.
-/

namespace RefSweep

/-! ## Lost objects -/

/-- How many of the objects that are stored before are not stored afterwards. -/
def Store.lost (before after : Store) : Nat :=
  before.objectRows.countP fun o => !after.holds o.key

/-- A collection loses as many objects as there are unreachable ones. -/
theorem Store.lost_collected (s : Store) : s.lost s.collected = s.unreachable.length := by
  rw [lost, length_unreachable]
  refine List.countP_congr fun o ho => ?_
  have hheld : s.holds o.key := holds_iff.2 ⟨o, ho, rfl⟩
  have hstays : s.collected.holds o.key ↔ s.Reaches o.key := by simp [holds_collected, hheld]
  simp [← hstays]

namespace Host

open Activity

variable {h t : Host} {handle : Handle} {d d' : Database}

/-! ## Attempts -/

/-- What the plan refuses to the `i`-th operation from now on, counted from 0. -/
def planned (h : Host) (i : Nat) : Refusals := h.refusals.getD i .none

/-- After so many attempts the refusals that come next are the planned ones with this number. -/
theorem nextRefusals_eq_planned {i : Nat} (ht : t.refusals = h.refusals.drop i) :
    t.nextRefusals.1 = h.planned i := by
  rw [nextRefusals, planned, ht, List.headD_eq_head?_getD, List.head?_drop,
    List.getD_eq_getElem?_getD]

/-- An attempt at compacting a store sees it and leaves what its compaction leaves, and uses up one
entry of the plan. -/
theorem compact_stores (hd : Stores handle h d) :
    let step := Session.fresh.compact h.nextRefusals.1 d
    let answer := sqliteStorage.compact handle h
    answer.result = step.result ∧ Stores handle answer.state step.database ∧
      answer.state.refusals = h.refusals.tail := by
  obtain ⟨hresult, hstores, -⟩ := answerOnStore_stores hd fun refusals session d =>
    session.compact refusals d
  refine ⟨hresult, hstores, ?_⟩
  obtain ⟨hkind, address, hread, hheld⟩ := hd
  -- the plan of refusals is used up by the call, before the file is looked at
  have hconnect : h.nextRefusals.2.files.connect address = (.ok d, h.files) := hheld.connect
  show (answerOnStore handle _ h).state.refusals = _
  unfold answerOnStore onStore onFile
  simp only [hkind, hread, hconnect]
  rfl

/-- An attempt at compacting the store of an open repository. -/
def compacting (handle : Handle) : Activity Host CompactionStats :=
  call .compacted (sqliteStorage.compact handle)

/-- Of the first `m` attempts at compacting this store, one is refused after its commit. -/
def CutShort (h : Host) (s : Store) (m : Nat) : Prop :=
  ∃ i < m, ∃ statement e, s.firstRefusal (h.planned i) = some (statement, e) ∧
    statement.followsCommit = true

/-- One more attempt adds one more chance that a compaction was refused after its commit. -/
theorem CutShort.succ {s : Store} {m : Nat} :
    CutShort h s (m + 1) ↔ CutShort h s m ∨ ∃ statement e,
      s.firstRefusal (h.planned m) = some (statement, e) ∧ statement.followsCommit = true := by
  constructor
  · rintro ⟨i, hi, hrefused⟩
    rcases Nat.lt_succ_iff_lt_or_eq.1 hi with hi | rfl
    · exact .inl ⟨i, hi, hrefused⟩
    · exact .inr hrefused
  · rintro (⟨i, hi, hrefused⟩ | hrefused)
    · exact ⟨i, Nat.lt_succ_of_lt hi, hrefused⟩
    · exact ⟨m, Nat.lt_succ_self m, hrefused⟩

/-- The store that `t` holds after `m` failed attempts: the one at the start, or that one collected
if an attempt was cut short. -/
structure Between (handle : Handle) (h : Host) (d : Database) (m : Nat) (t : Host) (d' : Database) :
    Prop where
  plan : t.refusals = h.refusals.drop m
  stores : Stores handle t d'
  same : ¬ CutShort h d.store m → d' = d
  collected : CutShort h d.store m → d'.store = d.store.collected

/-- One more attempt that fails leaves the store collected if this or an earlier one was cut short
after its commit, and else as it was at the start. -/
theorem Between.next {m : Nat} (hb : Between handle h d m t d')
    (hlock : metLock (endingOf (compacting handle t).outcome) = true) :
    ∃ d'', Between handle h d (m + 1) (compacting handle t).after d'' := by
  obtain ⟨hresult, hstores, hplan⟩ := compact_stores hb.stores
  obtain ⟨-, hstep⟩ := Session.compact_firstRefusal (x := .fresh) (d := d') t.nextRefusals.1 rfl
    (Session.current_of_idle rfl)
  rw [nextRefusals_eq_planned hb.plan] at hstep hresult hstores
  cases hfirst : d'.store.firstRefusal (h.planned m) with
  | none =>
    -- what is not refused does not fail
    rw [hfirst] at hstep
    obtain ⟨⟨bytes, hok⟩, -⟩ := hstep
    rw [show (compacting handle t).outcome = _ from hresult.trans hok] at hlock
    cases hlock
  | some refused =>
    obtain ⟨statement, e⟩ := refused
    rw [hfirst] at hstep
    obtain ⟨-, hstore⟩ := hstep
    refine ⟨_, ?_, hstores, fun hnot => ?_, fun hcut => ?_⟩
    · rw [← List.tail_drop, ← hb.plan]
      exact hplan
    · rw [CutShort.succ, not_or] at hnot
      obtain rfl := hb.same hnot.1
      rwa [if_neg fun hfollows => hnot.2 ⟨statement, e, hfirst, hfollows⟩] at hstore
    · by_cases hbefore : CutShort h d.store m
      · -- the store was collected already, and stays so
        have hclean := hb.collected hbefore
        split at hstore
        · rw [hstore, hclean, Store.collected_collected]
        · rw [hstore, hclean]
      · obtain rfl := hb.same hbefore
        obtain ⟨statement', e', hfirst', hfollows⟩ := (CutShort.succ.1 hcut).resolve_left hbefore
        obtain ⟨rfl, -⟩ := Prod.mk.inj (Option.some.inj (hfirst.symm.trans hfirst'))
        rwa [if_pos hfollows] at hstore

/-- Between two attempts that met locks the store is the first one, or collected, as the attempts so
far have been refused early or late. -/
theorem attempts_between (hd : Stores handle h d) {m : Nat}
    (hlocks : ∀ i < m, metLock (endingOf ((compacting handle).invocation h i).outcome) = true) :
    ∃ d', Between handle h d m ((fun t => (compacting handle t).after)^[m] h) d' := by
  induction m with
  | zero =>
    have hnone : ¬ CutShort h d.store 0 := fun ⟨i, hi, _⟩ => Nat.not_lt_zero i hi
    exact ⟨d, rfl, hd, fun _ => rfl, fun hcut => absurd hcut hnone⟩
  | succ m ih =>
    obtain ⟨d', hb⟩ := ih fun i hi => hlocks i (Nat.lt_succ_of_lt hi)
    rw [Function.iterate_succ_apply']
    exact hb.next (hlocks m (Nat.lt_succ_self m))

/-! ## Reports -/

/-- Attempts that end with a success are reported as one. -/
theorem compactRepository_of_attempts {retry : Option RetryPolicy} {stats : CompactionStats}
    (hlast : (retrying retry (compacting handle) h).outcome = .ok stats) :
    let run := compactRepository sqliteStorage handle retry h
    run.outcome = .ok (.success stats) ∧
      run.after = (retrying retry (compacting handle) h).after ∧
      run.calls = (retrying retry (compacting handle) h).calls := by
  have hcalls : (retrying retry (call .compacted (sqliteStorage.compact handle)) h).outcome =
      .ok stats := hlast
  unfold compactRepository
  dsimp only
  rw [attempt_bind, hcalls]
  exact ⟨rfl, rfl, List.filterMap_append.trans (List.append_nil _)⟩

/-- Only attempts that end with a success are reported as one: a failure is recorded as such or
escapes. -/
theorem attempts_of_compactRepository {retry : Option RetryPolicy} {result : CompactionResult}
    (hout : (compactRepository sqliteStorage handle retry h).outcome = .ok result)
    (hok : result.ok = true) :
    ∃ stats, (retrying retry (compacting handle) h).outcome = .ok stats ∧
      result = .success stats := by
  cases hlast : (retrying retry (compacting handle) h).outcome with
  | ok stats =>
    obtain ⟨hsuccess, -⟩ := compactRepository_of_attempts hlast
    exact ⟨stats, rfl, Except.ok.inj (hout.symm.trans hsuccess)⟩
  -- a failure is recorded as one, or escapes and leaves no result
  | error f =>
    have hcalls : (retrying retry (call .compacted (sqliteStorage.compact handle)) h).outcome =
        .error f := hlast
    unfold compactRepository at hout
    rw [attempt_bind, hcalls] at hout
    cases f with
    | error e =>
      obtain rfl := Except.ok.inj hout
      cases hok
    | foreign cause => cases hout

/-- A compaction that is reported as a success, after however many attempts, has left the store
collected. It reports the number of the objects that are gone if none of the earlier attempts was
refused after its commit. If one was, it reports none. -/
theorem compactRepository_counts (retry : Option RetryPolicy) (hd : Stores handle h d)
    {result : CompactionResult}
    (hout : (compactRepository sqliteStorage handle retry h).outcome = .ok result)
    (hok : result.ok = true) :
    let run := compactRepository sqliteStorage handle retry h
    ∃ (earlier : Nat) (d' : Database) (removed : Nat) (bytes : Option Int),
      run.calls = List.replicate (earlier + 1) .compacted ∧
      Stores handle run.after d' ∧ d'.store = d.store.collected ∧
      result = .success ⟨some removed, bytes⟩ ∧
      (¬ CutShort h d.store earlier → removed = d.store.lost d'.store) ∧
      (CutShort h d.store earlier → removed = 0) := by
  intro run
  obtain ⟨stats, hlast, rfl⟩ := attempts_of_compactRepository hout hok
  obtain ⟨-, hafter, hcalls⟩ := compactRepository_of_attempts hlast
  obtain ⟨m, -, hlocks, -, houtcome, hstate, hcount⟩ :=
    retrying_invocations retry (compacting handle) h
  obtain ⟨d₁, hb⟩ := attempts_between hd hlocks
  obtain ⟨hresult, hstores, -⟩ := compact_stores hb.stores
  -- the last attempt has counted and collected what it found
  have hstats : (Session.fresh.compact _ d₁).result = .ok stats :=
    hresult.symm.trans (houtcome.symm.trans hlast)
  obtain ⟨-, hremoved, hstore⟩ := Session.compact_of_ok (Session.current_of_idle rfl) hstats
  have hcollected : d₁.store.collected = d.store.collected := by
    by_cases hcut : CutShort h d.store m
    · rw [hb.collected hcut, Store.collected_collected]
    · rw [hb.same hcut]
  refine ⟨m, _, d₁.store.unreachable.length, stats.bytesReclaimed, ?_, ?_,
    hstore.trans hcollected, ?_, fun hnot => ?_, fun hcut => ?_⟩
  · exact hcalls.trans (hcount .compacted fun t => (call_apply _ _ t).2.2)
  · rw [show run.after = _ from hafter.trans hstate]
    exact hstores
  · rw [← hremoved]
  · rw [hstore, hb.same hnot, Store.lost_collected]
  · rw [hb.collected hcut, Store.unreachable_collected]
    rfl

end Host

namespace Sample

/-- A host whose store holds a cycle that no reference reaches, and whose database is locked when
the next compaction has committed and rebuilds the file. -/
def tangledHost : Host :=
  { host with
    files := host.files.saveFile (storePath directory) ⟨Session.tangled, 0⟩
    refusals := [fun other => if other = .rebuild then some .databaseLocked else none] }

/-- The host of the example stores the tangled store. -/
theorem tangledHost_stores : Host.Stores handle tangledHost ⟨Session.tangled, 0⟩ := by
  have hconnect : host.files.connect (.file (storePath directory)) =
      (.ok ⟨store, 0⟩, host.files) := rfl
  obtain ⟨-, hheld⟩ := FileTree.holds_of_connect hconnect (by decide)
  exact ⟨rfl, _, read_storePath, (hheld.save ⟨Session.tangled, 0⟩).1⟩

end Sample

namespace Host

open Activity Sample

/-- The second attempt succeeds and reports that nothing was removed. Two objects are gone. -/
theorem compactRepository_counts_tangled :
    Stores handle tangledHost ⟨Session.tangled, 0⟩ ∧
      let run := compactRepository sqliteStorage handle (some ⟨2, .zero⟩) tangledHost
      ∃ result d' bytes, run.outcome = .ok result ∧ result.ok = true ∧
        Stores handle run.after d' ∧ result = .success ⟨some 0, bytes⟩ ∧
        Session.tangled.lost d'.store = 2 := by
  have hd := tangledHost_stores
  have hrebuild : Statement.rebuild ∈ Session.tangled.compactionStatements :=
    List.mem_append_right _ (.head _)
  have hfirst : Session.tangled.firstRefusal (tangledHost.planned 0) =
      some (.rebuild, .databaseLocked) :=
    Store.firstRefusal_one _ (by decide) rfl hrebuild
  -- the first attempt is refused when it has committed, the second one not at all
  obtain ⟨hresult, hstores, hplan⟩ := compact_stores hd
  obtain ⟨-, hstep⟩ := Session.compact_firstRefusal (x := .fresh) (d := ⟨Session.tangled, 0⟩)
    (tangledHost.planned 0) rfl (Session.current_of_idle rfl)
  rw [hfirst] at hstep
  obtain ⟨hfailed, hcollected⟩ := hstep
  obtain ⟨hresult', -⟩ := compact_stores hstores
  rw [nextRefusals_eq_planned (h := tangledHost) (i := 1) (by rw [hplan, List.drop_one])]
    at hresult'
  obtain ⟨stats, hok⟩ := Session.compact_none (x := .fresh) rfl (Session.current_of_idle rfl)
    (by rw [hcollected, Store.collected, Store.missingTables_without]; decide)
    (by rw [hcollected]; rfl)
  have hlock : metLock (endingOf (compacting handle tangledHost).outcome) = true := by
    rw [show (compacting handle tangledHost).outcome = _ from hresult.trans hfailed]
    rfl
  have hsecond : (compacting handle (compacting handle tangledHost).after).outcome = .ok stats :=
    hresult'.trans hok
  have hrun := retrying_second (p := ⟨2, .zero⟩) (by decide) hlock (by rw [hsecond]; rfl)
  have hlast : (retrying (some ⟨2, .zero⟩) (compacting handle) tangledHost).outcome =
      .ok stats := by
    rw [hrun]
    exact hsecond
  obtain ⟨hout, -, hcalls⟩ := compactRepository_of_attempts hlast
  obtain ⟨earlier, d', removed, bytes, hcount, hd', hstore, hreport, -, hnone⟩ :=
    compactRepository_counts (some ⟨2, .zero⟩) hd hout rfl
  have hcut : CutShort tangledHost Session.tangled earlier := by
    have htwo : List.replicate 2 Call.compacted = List.replicate (earlier + 1) .compacted := by
      rw [← hcount, hcalls, hrun]
      exact (calls_journalOf (fun t => (call_apply _ _ t).2.2) tangledHost 1 1).symm
    obtain rfl : earlier = 1 := by simpa using (congrArg List.length htwo).symm
    exact ⟨0, Nat.one_pos, _, _, hfirst, rfl⟩
  obtain rfl := hnone hcut
  refine ⟨hd, _, d', bytes, hout, rfl, hd', hreport, ?_⟩
  rw [hstore, Store.lost_collected, Store.length_unreachable]
  cbv

end Host

end RefSweep
