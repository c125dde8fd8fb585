import RefSweep.Proofs.Host.Database
import RefSweep.Proofs.Scripted

/-!
# The account of a run on a host

What `Keeps.pruneNamespace` says of a storage that keeps a list of references, said at once of every
such storage and of the store in a file, whose list is its rows.
-/

namespace RefSweep

namespace Host

variable {h : Host} {handle : Handle}

/-- A run on the store in a file accounts for its rows: what the table holds before and after are
the lists that the result speaks of. -/
theorem prune_sqlite {config : Config} {rid peer : Text} {observer : Option Observer}
    {id : Identifier} {owner : Peer} {log : List LogLine} (hrid : parseRepository rid = .ok id)
    (hpeer : Peer.parse peer = .ok owner) (hwet : config.dryRun = false)
    (hquiet : ∀ seen, complaint? observer seen = none)
    (hselect : h.select config.storageRoot config.backend id = .ok (.sqlite, log))
    (hopen : (openStore config.storageRoot id h).result = .ok handle)
    (hkeyed : Store.Keyed (storedRows handle h))
    (hlisted : (sqliteStorage.references handle h).1.failure = none) :
    let before := (sqliteStorage.references handle h).1.references
    let run := prune config rid peer observer h
    ∃ result after, run.outcome = .ok result ∧ storedRows handle h = before.map Reference.row ∧
      storedRows handle run.after = after.map Reference.row ∧
      Account owner before after result := by
  intro before run
  obtain ⟨hsame, d, hd, -⟩ := openStore_ok hopen
  have hpick : (pick config id h).result = .ok sqliteStorage ∧ (pick config id h).state = h := by
    rw [pick, hselect]
    exact ⟨rfl, rfl⟩
  -- what the listing gives is what all rows say, since it does not fail
  have hrows := references_of_failure_none hd hlisted
  have hlists : d.store.Lists before := by
    have hall : Store.Keyed d.store.refRows := hd.storedRows_eq ▸ hkeyed
    have hlists := Store.lists_of_parseRows hall (by rw [← hrows]; exact hlisted)
    rwa [← hrows] at hlists
  have hopened : sqliteStorage.openRepository config.storageRoot id (pick config id h).state =
      openStore config.storageRoot id h := by rw [hpick.2]; rfl
  have hholds : KeepsRows handle
      (sqliteStorage.openRepository config.storageRoot id (pick config id h).state).state
      before := by
    rw [hopened, hsame]
    exact ⟨d, hd, hlists⟩
  obtain ⟨result, after, hout, ⟨d', hd', hlists'⟩, haccount⟩ :=
    (sqliteStorage_keeps handle).pruneNamespace hrid hpeer hwet hquiet hpick.1
      (by rw [hopened]; exact hopen) hholds (by rw [hopened, hsame]; exact hlisted)
  exact ⟨result, after, hout, hd.storedRows_eq.trans hlists.rows,
    hd'.storedRows_eq.trans hlists'.rows, haccount⟩

end Host

/-- Whatever errors of the library the deletions and compactions meet, a run that is not dry gives a
result that accounts for the list of references it leaves: in every storage that keeps such a list,
and in the rows of a store file, where the database may refuse whatever it likes. -/
theorem pruneNamespace_accounts {config : Config} {rid peer : Text} {observer : Option Observer}
    {id : Identifier} {owner : Peer} (hrid : parseRepository rid = .ok id)
    (hpeer : Peer.parse peer = .ok owner) (hwet : config.dryRun = false)
    (hquiet : ∀ seen, complaint? observer seen = none) :
    (∀ {σ η : Type} (storage : Storage σ η) (handle : η) (holds : σ → List Reference → Prop)
      (pick : Identifier → σ → Answer σ (Storage σ η)) (s : σ) (before : List Reference),
      Keeps storage handle holds → (pick id s).result = .ok storage →
      let opening := storage.openRepository config.storageRoot id (pick id s).state
      opening.result = .ok handle → holds opening.state before →
      (storage.references handle opening.state).1.failure = none →
      let run := pruneNamespace pick config rid peer observer s
      ∃ result after, run.outcome = .ok result ∧ holds run.after after ∧
        Account owner before after result) ∧
    ∀ (h : Host) (handle : Handle) (log : List LogLine),
      h.select config.storageRoot config.backend id = .ok (.sqlite, log) →
      (Host.openStore config.storageRoot id h).result = .ok handle →
      Store.Keyed (Host.storedRows handle h) →
      (Host.sqliteStorage.references handle h).1.failure = none →
      let before := (Host.sqliteStorage.references handle h).1.references
      let run := Host.prune config rid peer observer h
      ∃ result after, run.outcome = .ok result ∧
        Host.storedRows handle h = before.map Reference.row ∧
        Host.storedRows handle run.after = after.map Reference.row ∧
        Account owner before after result :=
  ⟨fun _ _ _ _ _ _ hkeeps hpick hopen hholds hlisted =>
      hkeeps.pruneNamespace hrid hpeer hwet hquiet hpick hopen hholds hlisted,
    fun _ _ _ hselect hopen hkeyed hlisted =>
      Host.prune_sqlite hrid hpeer hwet hquiet hselect hopen hkeyed hlisted⟩

namespace Sample

/-- Runs that attempt everything twice. -/
def config : Config :=
  ⟨⟨.slash, ["home"]⟩, .auto, 2, .finite 2, false, by decide, Settings.defaultWaitMax_nonneg⟩

def repository : Identifier := ⟨"repo", by decide⟩

def peer : Peer := ⟨⟨"alice", by decide⟩⟩

/-- A storage with a name that occurs twice, whose first deletion meets a lock and then an error,
and whose compaction fails. -/
def planned : Scripted where
  references := [⟨⟨["namespaces", "alice", "x"]⟩, "a"⟩, ⟨⟨["namespaces", "bob", "x"]⟩, "b"⟩,
    ⟨⟨["namespaces", "alice", "x"]⟩, "c"⟩]
  deletions := [("namespaces/alice/x",
    ⟨[Error.locked "delete" [], Error.undeletable "namespaces/alice/x" .absent], none⟩)]
  compactions := ⟨[], some (Error.locked "compact" [])⟩
  stats := ⟨none, none⟩
  openFailure := none
  listFailure := none

/-- The scripted storage of the example holds its own list. -/
theorem planned_holds : planned.Holds planned.references where
  references := rfl
  names := by
    intro r hr
    simp only [planned, List.mem_cons, List.not_mem_nil, or_false] at hr
    rcases hr with rfl | rfl | rfl <;> rfl
  deletions := by
    intro plan hplan
    obtain rfl := List.mem_singleton.1 hplan
    refine ⟨fun f hf => ?_, fun f hf => absurd hf nofun⟩
    simp only [List.mem_cons, List.not_mem_nil, or_false] at hf
    rcases hf with rfl | rfl <;> exact ⟨_, rfl⟩
  compactions := ⟨fun f hf => absurd hf nofun, fun f hf => ⟨_, (Option.some.inj hf).symm⟩⟩

/-- A store file whose second reference is guarded against deletion. -/
def store : Store where
  metadata := some (.record .empty Store.versionKey (some Store.knownVersion))
  links := some []
  objects := some [⟨"a", "commit", []⟩]
  refs := some [⟨"namespaces/alice/x", "a"⟩, ⟨"namespaces/alice/y", "a"⟩, ⟨"heads/main", "a"⟩]
  locked := false
  guards := [("namespaces/alice/y", "kept")]

def directory : Path := config.storageRoot.child "repo"

def handle : Handle := ⟨.sqlite, repository, directory⟩

/-- A host with that store file, whose database is locked when the first deletion comes. -/
def host : Host where
  files := ⟨[(⟨.slash, ["home"]⟩, .directory), (config.storageRoot, .directory),
    (directory, .directory), (storePath directory, .database ⟨store, 0⟩)]⟩
  git := .missing
  refusals := [.none, .one 0 .databaseLocked]

/-- The address of the example's store is read as it stands. -/
theorem read_storePath :
    Address.read (storePath directory).text = .ok (.file (storePath directory)) := by
  have haddress : (Address.read (storePath directory).text).toOption =
      some (.file (storePath directory)) := by decide +kernel
  cases hr : Address.read (storePath directory).text with
  | error fault => rw [hr] at haddress; cases haddress
  | ok address => rw [hr] at haddress; rw [Option.some.inj haddress]

/-- The store of the example host opens. -/
theorem openStore_host :
    (Host.openStore config.storageRoot repository host).result = .ok handle := by
  -- the sample's file is there and its database passes the check
  have hcheck : host.checkStore (storePath directory) none = (.ok Store.knownVersion, host) := by
    unfold Host.checkStore
    rw [read_storePath]
    rfl
  have hlocate : host.files.locate config.storageRoot repository = .ok directory := rfl
  have hfile : host.files.isFile (storePath directory) = .ok true := rfl
  rw [Host.openStore, hlocate]
  dsimp only
  rw [hfile]
  dsimp only
  rw [hcheck]
  rfl

end Sample

open Sample in
/-- In both storages of the example, the one with planned failures and the one in a file, the result
accounts for what is left. -/
theorem pruneNamespace_accounts_sample :
    (∃ result after,
      (pruneNamespace (fun _ s => ⟨.ok Scripted.storage, s, []⟩) config "repo" "alice" none
        planned).outcome = .ok result ∧ Account peer planned.references after result) ∧
    ∃ result after, (Host.prune config "repo" "alice" none host).outcome = .ok result ∧
      Host.storedRows handle (Host.prune config "repo" "alice" none host).after =
        after.map Reference.row ∧
      Account peer (Host.sqliteStorage.references handle host).1.references after result := by
  have hrid : parseRepository "repo" = .ok repository := rfl
  have hpeer : Peer.parse "alice" = .ok peer := rfl
  have hwet : config.dryRun = false := rfl
  have hquiet : ∀ seen, complaint? none seen = none := fun _ => rfl
  obtain ⟨hgeneral, hstore⟩ := pruneNamespace_accounts hrid hpeer hwet hquiet
  -- the two storages list without a failure, as the evaluation shows
  have hlisted : (Host.sqliteStorage.references handle host).1.failure = none := by
    have hnone : (Host.sqliteStorage.references handle host).1.failure.isNone := by decide +kernel
    exact Option.isNone_iff_eq_none.1 hnone
  have hrows : Host.storedRows handle host = store.refRows := by decide +kernel
  obtain ⟨result, after, hout, -, haccount⟩ := hgeneral Scripted.storage () Scripted.Holds
    (fun _ s => ⟨.ok Scripted.storage, s, []⟩) planned _ Scripted.storage_keeps rfl rfl
    planned_holds rfl
  obtain ⟨result', after', hout', -, hafter, haccount'⟩ :=
    hstore host handle _ rfl openStore_host (by rw [hrows]; exact ⟨by decide, by decide⟩) hlisted
  exact ⟨⟨result, after, hout, haccount⟩, result', after', hout', hafter, haccount'⟩

end RefSweep
