import RefSweep.Proofs.Ending
import RefSweep.Proofs.Host.Account
import RefSweep.Proofs.Store.Pruning

/-!
# Runs one after another

A run that reports no error leaves the store pruned for its peer (`prune_leaves`), and one for a
peer that has nothing left finds nothing to do (`prune_again`). Main statement:
`pruneEach_order_independent`, what runs for several peers leave is decided by the set of the peers.
-/

namespace RefSweep

/-- Reading the text of a peer's identifier gives this peer, so a run can be told which peer it is
for by that text. -/
theorem Peer.parse_text (owner : Peer) : Peer.parse owner.id.text = .ok owner := by
  have hid : Identifier.parse owner.id.text = .ok owner.id := by
    unfold Identifier.parse
    split
    next fault hfault => rw [owner.id.accepted] at hfault; cases hfault
    · rfl
  rw [Peer.parse, hid]

/-- A reference is owned as its row is. -/
theorem Reference.ownedBy_row {r : Reference} (h : RefName.parse r.name.text = .ok r.name)
    (owner : Peer) : r.row.ownedBy owner = owner.owns r.name := by
  have hparse : RefName.parse r.row.name = .ok r.name := h
  rw [RefRow.ownedBy, hparse]

namespace Host

variable {config : Config} {rid : Text} {id : Identifier} {observer : Option Observer}
  {handle : Handle} {owner : Peer} {h h' : Host} {d d' : Database} {result : PruneResult}

/-! ## Opening again -/

/-- The store of this repository can be opened and is in order: foreign keys hold, and the
references have different names that can be read. -/
structure InOrder (config : Config) (id : Identifier) (handle : Handle) (h : Host) (d : Database) :
    Prop where
  relational : config.backend ≠ .git
  opens : (openStore config.storageRoot id h).result = .ok handle
  stores : Stores handle h d
  foreignKeys : d.store.ForeignKeys
  keyed : Store.Keyed d.store.refRows
  named : ∀ row ∈ d.store.refRows, ∃ name, RefName.parse row.name = .ok name

/-- The check of a store file connects to the database that is there and judges its schema; the host
stays as it is. -/
theorem checkStore_stores (hd : Stores handle h d) :
    h.checkStore (storePath handle.path) none =
      (match d.store.checkSchema with
        | .error fault => .error (Error.unreadable fault)
        | .ok version => .ok version, h) := by
  obtain ⟨-, address, hread, hheld⟩ := hd
  unfold checkStore
  rw [hread]
  dsimp only
  rw [hheld.connect]
  dsimp only
  cases d.store.checkSchema <;> rfl

/-- A store that could be opened can be opened later, as long as its schema is the same. -/
theorem openStore_later {root : Path} (hopen : (openStore root id h).result = .ok handle)
    (hd : Stores handle h d) (hlater : Later h h') (hd' : Stores handle h' d')
    (hschema : d'.store.checkSchema = d.store.checkSchema) :
    (openStore root id h').result = .ok handle := by
  unfold openStore at hopen
  dsimp only at hopen
  split at hopen
  · cases hopen
  next path hlocate =>
    split at hopen
    · cases hopen
    · cases hopen
    next hfile =>
      split at hopen
      · cases hopen
      next version h₁ hcheck =>
        obtain rfl := Except.ok.inj hopen
        -- the same directory and the same file, and a schema that is accepted as before
        have hdirectory : h.files.isDirectory (root.child id.text) = .ok true ∧
            root.child id.text = path := by
          unfold FileTree.locate at hlocate
          dsimp only at hlocate
          split at hlocate
          · cases hlocate
          next heq => exact ⟨heq, Except.ok.inj hlocate⟩
          · cases hlocate
        have hlocate' : h'.files.locate root id = .ok path := by
          rw [FileTree.locate, hlater.files.isDirectory hdirectory.1, ← hdirectory.2]
        have hcheck' : h'.checkStore (storePath path) none = (.ok version, h') := by
          rw [checkStore_stores hd, Prod.mk.injEq] at hcheck
          rw [checkStore_stores hd', hschema, hcheck.1]
        simp only [openStore, hlocate', hlater.files.isFile hfile, hcheck']

/-- Where a store was opened, the choice of a storage comes to the relational one, unless the other
is asked for by name. -/
theorem select_relational {root : Path} {choice : BackendChoice} (hchoice : choice ≠ .git)
    (hopen : (openStore root id h).result = .ok handle) :
    ∃ log, h.select root choice id = .ok (.sqlite, log) := by
  unfold openStore at hopen
  dsimp only at hopen
  split at hopen
  · cases hopen
  next path hlocate =>
    split at hopen
    · cases hopen
    · cases hopen
    -- opening got past the file of the store, so a detection finds this file as well
    next hfile =>
      rw [select, hlocate]
      cases choice with
      | auto =>
        have hdetect : h.files.detect? path = .ok (some .sqlite) := by
          unfold FileTree.detect?
          rw [hfile]
        dsimp only [BackendChoice.kind?]
        rw [hdetect]
        exact ⟨_, rfl⟩
      | sqlite => exact ⟨[], rfl⟩
      | git => exact absurd rfl hchoice

namespace InOrder

theorem lists (ho : InOrder config id handle h d) :
    d.store.Lists (Store.parseRows d.store.refRows).references :=
  Store.lists_of_parseRows ho.keyed (Store.parseRows_failure ho.named)

/-- A run on a store in order uses the relational storage, and choosing it changes nothing. -/
theorem pick (ho : InOrder config id handle h d) :
    (Host.pick config id h).result = .ok sqliteStorage ∧ (Host.pick config id h).state = h := by
  obtain ⟨log, hselect⟩ := select_relational ho.relational ho.opens
  rw [Host.pick, hselect]
  exact ⟨rfl, rfl⟩

/-- Opening a store that is in order changes nothing. -/
theorem opening (ho : InOrder config id handle h d) :
    let opening := sqliteStorage.openRepository config.storageRoot id (Host.pick config id h).state
    opening.result = .ok handle ∧ opening.state = h := by
  rw [ho.pick.2]
  exact ⟨ho.opens, (openStore_ok ho.opens).1⟩

/-- What a run for some peers leaves is in order again: it opens, its names are read, and its
foreign keys hold, so the next run can be reasoned about in the same way. -/
theorem later {owners : List Peer} (ho : InOrder config id handle h d) (hlater : Later h h')
    (hd' : Stores handle h' d') (hpruned : d'.store = d.store.pruned owners) :
    InOrder config id handle h' d' := by
  -- a run takes rows away and adds none, which is why every property of single rows stays
  have hrows : d'.store.refRows = d.store.refRows.filter fun row => !owners.any row.ownedBy := by
    rw [hpruned]
    exact (Store.pruned_spec ho.foreignKeys owners).refs
  have hschema : d'.store.checkSchema = d.store.checkSchema := by
    rw [hpruned, Store.checkSchema_pruned]
  refine ⟨ho.relational, openStore_later ho.opens ho.stores hlater hd' hschema, hd', ?_, ?_, ?_⟩
  · rw [hpruned]
    exact Store.foreignKeys_pruned ho.foreignKeys owners
  · rw [hrows]
    exact ⟨ho.keyed.distinct.sublist (List.filter_sublist.map _), fun row hrow =>
      ho.keyed.characters row (List.mem_filter.1 hrow).1⟩
  · rw [hrows]
    exact fun row hrow => ho.named row (List.mem_filter.1 hrow).1

end InOrder

/-! ## One run -/

/-- A compaction that succeeds has collected the garbage of the store, and counted it. -/
theorem compact_ok {t : Host} {stats : CompactionStats} (hd : Stores handle t d)
    (hok : (sqliteStorage.compact handle t).result = .ok stats) :
    let after := (sqliteStorage.close handle (sqliteStorage.compact handle t).state).state
    (∃ d', Stores handle after d' ∧ d'.store = d.store.collected) ∧ Later t after ∧
      stats.objectsRemoved = some ↑d.store.unreachable.length := by
  obtain ⟨hresult, hstores, hlater⟩ := answerOnStore_stores hd fun refusals session d =>
    session.compact refusals d
  have hcompacted : (Session.fresh.compact t.nextRefusals.1 d).result = .ok stats :=
    hresult.symm.trans hok
  obtain ⟨-, hremoved, hstore⟩ :=
    Session.compact_of_ok (Session.current_of_idle rfl) hcompacted
  -- closing a relational store does nothing to the host
  have hclose : (sqliteStorage.close handle (sqliteStorage.compact handle t).state).state =
      (sqliteStorage.compact handle t).state := by
    dsimp only [sqliteStorage]
    rw [hd.kind]
  rw [hclose]
  exact ⟨⟨_, hstores, hstore⟩, hlater, hremoved⟩

section Run

variable (hrid : parseRepository rid = .ok id) (hwet : config.dryRun = false)
  (hquiet : ∀ seen, complaint? observer seen = none) (ho : InOrder config id handle h d)

include hrid hwet hquiet ho

/-- A run that reports no error has matched what is owned, left what is not, and compacted last. -/
theorem prune_ok (hout : (prune config rid owner.id.text observer h).outcome = .ok result)
    (hok : result.ok = true) :
    let run := prune config rid owner.id.text observer h
    let before := (Store.parseRows d.store.refRows).references
    result.matched = (owner.owned before).map (·.name) ∧
      result.outcomes.map (·.name) = result.matched ∧
      storedRows handle run.after = (before.filter (!owner.owns ·.name)).map Reference.row ∧
      ∃ es t stats, Exchanged sqliteStorage handle h es t ∧
        (∀ e ∈ es, ∀ name, e.call = .deleted name → name ∈ result.matched) ∧
        (sqliteStorage.compact handle t).result = .ok stats ∧
        result.compaction = some (.success stats) ∧
        run.after = (sqliteStorage.close handle (sqliteStorage.compact handle t).state).state := by
  intro run before
  obtain ⟨log, hselect⟩ := select_relational ho.relational ho.opens
  obtain ⟨hopened, hstart⟩ := ho.opening
  obtain ⟨hwhole, hmatched, es, t, stats, hex, hdeletes, hstats, hcompaction, hafter⟩ :=
    pruneNamespace_compaction hrid owner.parse_text hwet ho.pick.1 hopened hout hok
  rw [hstart] at hwhole hmatched hex
  have hlisting : (sqliteStorage.references handle h).1 = Store.parseRows d.store.refRows :=
    references_of_failure_none ho.stores hwhole
  rw [hlisting] at hmatched
  obtain ⟨result', after, hout', -, hleft, haccount⟩ := prune_sqlite hrid owner.parse_text hwet
    hquiet hselect ho.opens (by rw [ho.stores.storedRows_eq]; exact ho.keyed) hwhole
  obtain rfl : result = result' := Except.ok.inj (hout.symm.trans hout')
  rw [hlisting] at haccount
  refine ⟨hmatched, haccount.outcomes.trans hmatched.symm, ?_, es, t, stats, hex, hdeletes, hstats,
    hcompaction, hafter⟩
  -- all owned references were deleted, so what is left is the rest
  have howned : after = before.filter (!owner.owns ·.name) := by
    rw [haccount.left, PruneResult.deleted_of_ok hok, haccount.outcomes,
      Store.withoutEach_owned ho.lists.distinct]
  rw [← howned]
  exact hleft

/-- Such a run leaves the store pruned for its peer, with all references of the peer gone and the
garbage collected once. -/
theorem prune_leaves (hout : (prune config rid owner.id.text observer h).outcome = .ok result)
    (hok : result.ok = true) :
    ∃ d', Stores handle (prune config rid owner.id.text observer h).after d' ∧
      Later h (prune config rid owner.id.text observer h).after ∧
      d'.store = d.store.pruned [owner] := by
  obtain ⟨-, -, hrows, es, t, stats, hex, -, hstats, -, hafter⟩ :=
    prune_ok hrid hwet hquiet ho hout hok
  obtain ⟨⟨dt, hdt, hremnant⟩, hlater⟩ : (∃ dt, Stores handle t dt ∧ d.store.Remnant dt.store) ∧
      Later h t := by
    refine hex.preserves (I := fun t => (∃ dt, Stores handle t dt ∧ d.store.Remnant dt.store) ∧
      Later h t) (fun _ hanswer hs => ?_) ⟨⟨d, ho.stores, .refl ho.foreignKeys⟩, .refl h⟩
    obtain ⟨hstores, hlater⟩ := sqliteStorage_preserves hanswer
      (fun _ hr => hr.withoutRef ho.foreignKeys _) (fun hr => hr.collected) hs.1
    exact ⟨hstores, hs.2.trans hlater⟩
  obtain ⟨⟨d', hd', hcollected⟩, hlast, -⟩ := compact_ok hdt hstats
  rw [← hafter] at hd' hlast
  refine ⟨d', hd', hlater.trans hlast, ?_⟩
  obtain ⟨keep, hkeep⟩ := hremnant.collects
  rw [hcollected, hkeep, Store.pruned]
  -- and which references those are can be seen from the rows that are left
  refine congrArg _ (Store.keeping_congr ?_)
  have hkept : d'.store.refRows = d.store.refRows.filter keep := by
    rw [hcollected, hkeep, Store.refRows_collected, Store.refRows_keeping]
  have hlists := ho.lists
  rw [← hkept, ← hd'.storedRows_eq, hrows]
  conv => rhs; rw [hlists.rows, List.filter_map]
  refine congrArg _ (List.filter_congr fun r hr => ?_)
  simp [Reference.ownedBy_row (hlists.names r hr)]

/-- A run that reports no error has nothing to do where its peer has no references and there is no
garbage. -/
theorem prune_again (hout : (prune config rid owner.id.text observer h).outcome = .ok result)
    (hok : result.ok = true) (hnone : ∀ row ∈ d.store.refRows, row.ownedBy owner = false)
    (hclean : d.store.unreachable = []) :
    result.matched = [] ∧ result.outcomes = [] ∧
      ∃ bytes, result.compaction = some (.success ⟨some 0, bytes⟩) := by
  obtain ⟨hmatched, houtcomes, -, es, t, stats, hex, hdeletes, hstats, hcompaction, -⟩ :=
    prune_ok hrid hwet hquiet ho hout hok
  have hlists := ho.lists
  have hempty : result.matched = [] := by
    rw [hmatched, Peer.owned, List.map_eq_nil_iff, List.filter_eq_nil_iff]
    intro r hr
    have hrow := hnone r.row (by rw [hlists.rows]; exact List.mem_map_of_mem hr)
    rw [Reference.ownedBy_row (hlists.names r hr)] at hrow
    simp [hrow]
  rw [hempty] at houtcomes
  refine ⟨hempty, List.map_eq_nil_iff.1 houtcomes, ?_⟩
  -- nothing is deleted, and compacting changes nothing
  obtain ⟨dt, hdt, hsame⟩ : ∃ dt, Stores handle t dt ∧ dt.store = d.store := by
    refine hex.preserves (I := fun t => ∃ dt, Stores handle t dt ∧ dt.store = d.store)
      (fun he hanswer hs => ?_) ⟨d, ho.stores, rfl⟩
    refine (sqliteStorage_preserves (I := (· = d.store)) hanswer (fun hcall _ => ?_)
      (fun hs => ?_) hs).1
    · have hmem := hdeletes _ he _ hcall
      rw [hempty] at hmem
      cases hmem
    · rw [hs, Store.collected, hclean, Store.without_nil]
  obtain ⟨-, -, hremoved⟩ := compact_ok hdt hstats
  rw [hsame, hclean] at hremoved
  obtain ⟨removed, bytes⟩ := stats
  obtain rfl : removed = some 0 := hremoved
  exact ⟨bytes, hcompaction⟩

end Run

/-! ## Runs that nothing disturbs -/

/-- The database refuses nothing: nothing is planned, nobody holds the lock and no reference is
guarded. -/
structure Undisturbed (h : Host) (s : Store) : Prop where
  unplanned : ∀ r ∈ h.refusals, r = Refusals.none
  unlocked : s.locked = false
  unguarded : s.guards = []

/-- Where nothing is planned, the next operation is refused nothing. -/
theorem Undisturbed.nextRefusals {s : Store} (hu : Undisturbed h s) :
    h.nextRefusals.1 = Refusals.none := by
  show h.refusals.headD Refusals.none = Refusals.none
  cases hrefusals : h.refusals with
  | nil => rfl
  | cons r rest => exact hu.unplanned r (by rw [hrefusals]; exact .head _)

/-- What is not disturbed stays so, as no refusal is ever planned in a run and nobody else takes the
lock or sets a guard. -/
theorem Undisturbed.later {s s' : Store} (hu : Undisturbed h s) (hlater : Later h h')
    (hlocked : s'.locked = s.locked) (hguards : s'.guards = s.guards) : Undisturbed h' s' :=
  ⟨fun r hr => hu.unplanned r (hlater.refusals hr), hlocked.trans hu.unlocked,
    hguards.trans hu.unguarded⟩

/-- The store lists these references, and nothing disturbs its use. -/
def Quiet (handle : Handle) (h : Host) (refs : List Reference) : Prop :=
  ∃ d, Stores handle h d ∧ d.store.Lists refs ∧ d.store.missingTables = [] ∧
    Undisturbed h d.store

/-- A quiet store lists its references, and is quiet after it. -/
theorem Quiet.lists {refs : List Reference} (hq : Quiet handle h refs) :
    (sqliteStorage.references handle h).1 = ⟨refs, none⟩ ∧
      Quiet handle (sqliteStorage.references handle h).2 refs := by
  obtain ⟨d, hd, hlists, htables, hu⟩ := hq
  obtain ⟨⟨hlisting, -⟩, hstores, hlater⟩ := storedReferences_stores hd .fresh
  rw [hu.nextRefusals, Session.listing_none rfl (Session.current_of_idle rfl) htables,
    hlists.parseRows] at hlisting
  exact ⟨hlisting, d, hstores, hlists, htables, hu.later hlater rfl rfl⟩

/-- From a quiet store every reference that is listed can be deleted, which leaves the store quiet
without it. -/
theorem Quiet.deletes {refs : List Reference} {name : RefName} (hq : Quiet handle h refs)
    (hname : name ∈ refs.map (·.name)) :
    (sqliteStorage.deleteReference handle name h).result = .ok () ∧
      Quiet handle (sqliteStorage.deleteReference handle name h).state (withoutFirst name refs) := by
  obtain ⟨d, hd, hlists, htables, hu⟩ := hq
  have hchars := hlists.characters hname
  -- the listed reference has a row in the table
  have hheld : (d.store.refRow? name.text).isSome := by
    obtain ⟨r, hr, rfl⟩ := List.mem_map.1 hname
    rw [Store.refRow?, List.find?_isSome]
    exact ⟨r.row, by rw [hlists.rows]; exact List.mem_map_of_mem hr, beq_self_eq_true _⟩
  -- nothing is locked, guarded or refused, so the deletion goes through
  have hok := Session.deleteReference_none (x := .fresh) rfl (Session.current_of_idle rfl) htables
    hu.unlocked hu.unguarded hchars hheld
  obtain ⟨hresult, hstores, hlater⟩ := answerOnStore_stores hd fun refusals session d =>
    session.deleteReference refusals d name.text
  rw [hu.nextRefusals] at hresult hstores
  refine ⟨hresult.trans hok, ?_⟩
  obtain ⟨⟨e, hfailed⟩, -⟩ | ⟨-, -, hgone⟩ :=
    Session.deleteReference_cases (x := .fresh) (d := d) .none rfl hchars
  · cases hok.symm.trans hfailed
  · rw [hgone] at hstores
    have htables' : (d.store.withoutRef name.text).missingTables = [] :=
      (Store.missingTables_keeping d.store _).trans htables
    exact ⟨_, hstores, hlists.withoutRef hname, htables', hu.later hlater rfl rfl⟩

/-- A quiet store can be compacted. -/
theorem Quiet.compacts {refs : List Reference} (hq : Quiet handle h refs) :
    ∃ stats, (sqliteStorage.compact handle h).result = .ok stats := by
  obtain ⟨d, hd, -, htables, hu⟩ := hq
  obtain ⟨hresult, -⟩ := answerOnStore_stores hd fun refusals session d =>
    session.compact refusals d
  rw [hu.nextRefusals] at hresult
  obtain ⟨stats, hok⟩ :=
    Session.compact_none (x := .fresh) rfl (Session.current_of_idle rfl) htables hu.unlocked
  exact ⟨stats, hresult.trans hok⟩

/-- The run gave a result, and that reports no error. -/
def Succeeded (outcome : Except Failure PruneResult) : Prop :=
  ∃ result, outcome = .ok result ∧ result.ok = true

/-- Where nothing disturbs it a run succeeds: each deletion does, by induction on the matched
references, and so does the compaction. -/
theorem prune_succeeds (hrid : parseRepository rid = .ok id) (hwet : config.dryRun = false)
    (hquiet : ∀ seen, complaint? observer seen = none) (ho : InOrder config id handle h d)
    (hu : Undisturbed h d.store) :
    Succeeded (prune config rid owner.id.text observer h).outcome := by
  obtain ⟨log, hselect⟩ := select_relational ho.relational ho.opens
  obtain ⟨hopened, hstart⟩ := ho.opening
  obtain ⟨-, d', hd', htables⟩ := openStore_ok ho.opens
  obtain rfl := ho.stores.unique hd'
  have hq : Quiet handle h (Store.parseRows d.store.refRows).references :=
    ⟨d, ho.stores, ho.lists, htables, hu⟩
  obtain ⟨hlisting, hlisted⟩ := hq.lists
  obtain ⟨result, -, hout, -⟩ := prune_sqlite hrid owner.parse_text hwet hquiet hselect ho.opens
    (by rw [ho.stores.storedRows_eq]; exact ho.keyed) (by rw [hlisting])
  refine ⟨result, hout, ?_⟩
  obtain ⟨outcomes, compaction, -, hdeleted, hcompacted, -, rfl⟩ :=
    pruneNamespace_ok hrid owner.parse_text hwet ho.pick.1 hopened hout
  rw [hstart, hlisting] at hdeleted hcompacted
  -- every deletion succeeds, and so does the compaction after the last of them
  have howned : ((owner.owned (Store.parseRows d.store.refRows).references).map (·.name)).Sublist
      ((Store.parseRows d.store.refRows).references.map (·.name)) := List.filter_sublist.map _
  obtain ⟨houtcomes, hleft⟩ := deleteEach_of_ok (some ⟨config.attempts, config.waitMax⟩) hquiet
    (fun hq hname => Quiet.deletes hq hname) hlisted howned
  obtain ⟨stats, hstats⟩ := Quiet.compacts hleft
  have hcompaction := (compactRepository_of_ok hstats).symm.trans hcompacted
  obtain rfl := Except.ok.inj (houtcomes.symm.trans hdeleted)
  obtain rfl := Except.ok.inj hcompaction
  simp [PruneResult.ok, PruneResult.failed, DeletionOutcome.success, CompactionResult.success]

/-! ## Several runs -/

/-- Runs for these peers one after another: how they ended, and the host that they leave. -/
def pruneEach (config : Config) (rid : Text) (observer : Option Observer) :
    List Peer → Host → List (Except Failure PruneResult) × Host
  | [], h => ([], h)
  | owner :: rest, h =>
    let run := prune config rid owner.id.text observer h
    let later := pruneEach config rid observer rest run.after
    (run.outcome :: later.1, later.2)

section Each

variable (hrid : parseRepository rid = .ok id) (hwet : config.dryRun = false)
  (hquiet : ∀ seen, complaint? observer seen = none)

include hrid hwet hquiet

/-- Runs one after another for several peers, all of which succeed, leave the store pruned for all
of them. The induction is on the peers, and each run finds in order what the ones before have left.
-/
theorem pruneEach_leaves (ho : InOrder config id handle h d) {owners : List Peer}
    (hall : ∀ outcome ∈ (pruneEach config rid observer owners h).1, Succeeded outcome) :
    ∃ d', Stores handle (pruneEach config rid observer owners h).2 d' ∧
      Later h (pruneEach config rid observer owners h).2 ∧
      (owners = [] ∧ d' = d ∨ d'.store = d.store.pruned owners) := by
  induction owners generalizing h d with
  | nil => exact ⟨d, ho.stores, .refl h, .inl ⟨rfl, rfl⟩⟩
  | cons owner rest ih =>
    obtain ⟨result, hout, hok⟩ := hall _ (.head _)
    obtain ⟨d₁, hd₁, hlater₁, hpruned₁⟩ := prune_leaves hrid hwet hquiet ho hout hok
    -- pruning for the first peer and then for the others is pruning for all of them
    obtain ⟨d', hd', hlater, hrest⟩ := ih (ho.later hlater₁ hd₁ hpruned₁) fun outcome hmem =>
      hall outcome (.tail _ hmem)
    refine ⟨d', hd', hlater₁.trans hlater, .inr ?_⟩
    rcases hrest with ⟨rfl, rfl⟩ | hpruned
    · exact hpruned₁
    · rw [hpruned, hpruned₁, Store.pruned_pruned ho.foreignKeys]
      rfl

/-- Where nothing disturbs them, runs one after another all succeed. By induction on the peers, as
each run leaves the store undisturbed for the next. -/
theorem pruneEach_succeeds (ho : InOrder config id handle h d) (hu : Undisturbed h d.store)
    (owners : List Peer) :
    ∀ outcome ∈ (pruneEach config rid observer owners h).1, Succeeded outcome := by
  induction owners generalizing h d with
  | nil => exact fun _ hmem => absurd hmem List.not_mem_nil
  | cons owner rest ih =>
    have hfirst : Succeeded (prune config rid owner.id.text observer h).outcome :=
      prune_succeeds hrid hwet hquiet ho hu
    intro outcome hmem
    -- the first run succeeds, and what it leaves is as undisturbed as before for the others
    rcases List.mem_cons.1 hmem with rfl | hmem
    · exact hfirst
    · obtain ⟨result, hout, hok⟩ := hfirst
      obtain ⟨d₁, hd₁, hlater, hpruned⟩ := prune_leaves hrid hwet hquiet ho hout hok
      refine ih (ho.later hlater hd₁ hpruned) (hu.later hlater ?_ ?_) outcome hmem
      · rw [hpruned]
        rfl
      · rw [hpruned]
        rfl

/-- What runs for several peers leave is decided by the set of these peers, however often and in
whichever order they come: the references that none of them owns and what these reach. Another run
for one of them finds nothing to do. Where the database refuses nothing, all of these runs succeed.
-/
theorem pruneEach_order_independent (ho : InOrder config id handle h d) {owners : List Peer}
    (hne : owners ≠ []) :
    let runs := pruneEach config rid observer owners h
    (Undisturbed h d.store → ∀ outcome ∈ runs.1, Succeeded outcome) ∧
    ((∀ outcome ∈ runs.1, Succeeded outcome) →
      ∃ d', Stores handle runs.2 d' ∧ Store.Pruned owners d.store d'.store ∧
        (∀ others, (∀ peer, peer ∈ others ↔ peer ∈ owners) →
          (∀ outcome ∈ (pruneEach config rid observer others h).1, Succeeded outcome) →
          ∃ d'', Stores handle (pruneEach config rid observer others h).2 d'' ∧
            d''.store = d'.store) ∧
        ∀ owner ∈ owners,
          let again := prune config rid owner.id.text observer runs.2
          (Undisturbed h d.store → Succeeded again.outcome) ∧
          ∀ result, again.outcome = .ok result → result.ok = true →
            result.matched = [] ∧ result.outcomes = [] ∧
              ∃ bytes, result.compaction = some (.success ⟨some 0, bytes⟩)) := by
  intro runs
  refine ⟨fun hu => pruneEach_succeeds hrid hwet hquiet ho hu owners, fun hall => ?_⟩
  obtain ⟨d', hd', hlater, hleft⟩ := pruneEach_leaves hrid hwet hquiet ho hall
  have hpruned : d'.store = d.store.pruned owners := hleft.resolve_left fun hnil => hne hnil.1
  -- whatever the runs have left is in order again, which the further run needs
  have ho' : InOrder config id handle runs.2 d' := ho.later hlater hd' hpruned
  refine ⟨d', hd', ?_, fun others hsame hothers => ?_, fun owner howner => ⟨fun hu => ?_, ?_⟩⟩
  · rw [hpruned]
    exact Store.pruned_spec ho.foreignKeys owners
  · obtain ⟨d'', hd'', -, hleft'⟩ := pruneEach_leaves hrid hwet hquiet ho hothers
    refine ⟨d'', hd'', ?_⟩
    -- what is left depends on the set of the peers, and the sets are the same
    have hpruned' : d''.store = d.store.pruned others := hleft'.resolve_left fun hnil => by
      obtain ⟨peer, hpeer⟩ := List.exists_mem_of_ne_nil owners hne
      rw [hnil.1] at hsame
      cases (hsame peer).2 hpeer
    rw [hpruned', hpruned, Store.pruned_congr hsame]
  · refine prune_succeeds hrid hwet hquiet ho' (hu.later hlater ?_ ?_)
    · rw [hpruned]
      rfl
    · rw [hpruned]
      rfl
  · intro result hout hok
    refine prune_again hrid hwet hquiet ho' hout hok (fun row hrow => ?_) ?_
    · -- a row of the peer would have been taken away
      rw [hpruned, (Store.pruned_spec ho.foreignKeys owners).refs] at hrow
      have hnone := (List.mem_filter.1 hrow).2
      rw [Bool.not_eq_true', List.any_eq_false] at hnone
      simpa using hnone owner howner
    · rw [hpruned]
      exact Store.unreachable_pruned d.store owners

end Each

end Host

namespace Sample

def otherPeer : Peer := ⟨⟨"bob", by decide⟩⟩

/-- A store in which two peers share a cycle of objects with each other, and one object with a
branch. -/
def shared : Store where
  metadata := some (.record .empty Store.versionKey (some Store.knownVersion))
  links := some [⟨"a", "b"⟩, ⟨"b", "a"⟩, ⟨"b", "c"⟩, ⟨"c", "c"⟩, ⟨"d", "a"⟩]
  objects := some [⟨"a", "commit", []⟩, ⟨"b", "commit", []⟩, ⟨"c", "tree", []⟩, ⟨"d", "tree", []⟩]
  refs := some [⟨"namespaces/alice/x", "a"⟩, ⟨"refs/heads/main", "c"⟩,
    ⟨"refs/namespaces/bob/y", "d"⟩]
  locked := false
  guards := []

def sharedHost : Host :=
  { host with
    files := host.files.saveFile (storePath directory) ⟨shared, 0⟩
    refusals := [] }

/-- What neither of the two peers owns. -/
def sharedKept : Store := shared.keeping fun row => !([peer, otherPeer].any row.ownedBy)

theorem refRows_sharedKept : sharedKept.refRows = [⟨"refs/heads/main", "c"⟩] := by
  rw [sharedKept, Store.refRows_keeping]
  decide +kernel

/-- Only the object of that reference is then reachable. -/
theorem reachable_sharedKept : sharedKept.reachable = [("c" : Text)] := by
  rw [Store.reachable, refRows_sharedKept]
  show Store.marked shared.linkRows [] [("c" : Text)] = [("c" : Text)]
  cbv

/-- The sample store can be opened and is in order. -/
theorem inOrder_sharedHost : Host.InOrder config repository handle sharedHost ⟨shared, 0⟩ := by
  have hconnect : host.files.connect (.file (storePath directory)) =
      (.ok ⟨store, 0⟩, host.files) := rfl
  obtain ⟨-, hheld⟩ := FileTree.holds_of_connect hconnect (by decide)
  have hstored : Host.Stores handle host ⟨store, 0⟩ := ⟨rfl, _, read_storePath, hheld⟩
  -- the sample's database is replaced by the shared one at the same place
  have hsaved := hheld.save ⟨shared, 0⟩
  have hshared : Host.Stores handle sharedHost ⟨shared, 0⟩ := ⟨rfl, _, read_storePath, hsaved.1⟩
  have hlater : Host.Later host sharedHost := ⟨hsaved.2, List.nil_subset _⟩
  refine ⟨nofun, Host.openStore_later openStore_host hstored hlater hshared rfl, hshared, by decide,
    ⟨by decide, by decide⟩, fun row hrow => ?_⟩
  -- every name is parsed by evaluation, row by row
  have hparsed : ∀ row ∈ shared.refRows, (RefName.parse row.name).toOption.isSome := by
    decide +kernel
  have hrow := hparsed row hrow
  cases hname : RefName.parse row.name with
  | error fault => rw [hname] at hrow; cases hrow
  | ok name => exact ⟨name, rfl⟩

end Sample

namespace Host

open Sample in
/-- Both peers' references are gone, and of what they shared only what the branch reaches is left.
-/
theorem pruneEach_shared :
    (InOrder config repository handle sharedHost ⟨shared, 0⟩ ∧ [peer, otherPeer] ≠ []) ∧
      ∃ d', Stores handle (pruneEach config "repo" none [peer, otherPeer] sharedHost).2 d' ∧
        d'.store.refRows = [⟨"refs/heads/main", "c"⟩] ∧
        d'.store.objectRows = [⟨"c", "tree", []⟩] ∧ d'.store.linkRows = [⟨"c", "c"⟩] ∧
        ∃ result, (prune config "repo" "alice" none
            (pruneEach config "repo" none [peer, otherPeer] sharedHost).2).outcome = .ok result ∧
          result.matched = [] ∧ result.outcomes = [] ∧
            ∃ bytes, result.compaction = some (.success ⟨some 0, bytes⟩) := by
  have hrid : parseRepository "repo" = .ok repository := rfl
  have hwet : config.dryRun = false := rfl
  have hquiet : ∀ seen, complaint? none seen = none := fun _ => rfl
  have hne : [peer, otherPeer] ≠ [] := List.cons_ne_nil peer [otherPeer]
  have hu : Undisturbed sharedHost shared := ⟨fun r hr => absurd hr List.not_mem_nil, rfl, rfl⟩
  obtain ⟨hsucceed, hleave⟩ :=
    pruneEach_order_independent hrid hwet hquiet inOrder_sharedHost hne
  obtain ⟨d', hd', hpruned, -, hagain⟩ := hleave (hsucceed hu)
  obtain ⟨hends, hnothing⟩ := hagain peer (.head _)
  obtain ⟨result, hout, hok⟩ := hends hu
  -- from here on the rows are read off what the theorem says is left
  have hrefs : d'.store.refRows = [⟨"refs/heads/main", "c"⟩] :=
    hpruned.refs.trans ((Store.refRows_keeping _ _).symm.trans refRows_sharedKept)
  have hobjects : d'.store.objectRows = [⟨"c", "tree", []⟩] := by
    rw [hpruned.objects]
    simp only [← Store.mem_reachable_iff]
    rw [show (shared.keeping fun row => !([peer, otherPeer].any row.ownedBy)).reachable = _ from
      reachable_sharedKept]
    decide +kernel
  refine ⟨⟨inOrder_sharedHost, hne⟩, d', hd', hrefs, hobjects, ?_,
    result, hout, hnothing result hout hok⟩
  rw [hpruned.links]
  simp only [Store.holds, hobjects]
  decide

end Host

end RefSweep
