import Mathlib.Logic.Function.Iterate
import RefSweep.Proofs.Host.Located
import RefSweep.Proofs.Store.Schema

/-!
# Making sure of a store that is there

A store may be half made, or come from another version. Main statement: `initStore_completes`.
Making sure of it adds what is missing and changes no row; afterwards it opens unless its metadata
gave another version than the known one.
-/

namespace RefSweep

/-- The file is opened as this database. One of at most one byte is a blank database. -/
inductive Entry.Opens : Entry → Database → Prop where
  | database (d : Database) : Opens (.database d) d
  | empty {content : Bytes} (small : content.length ≤ 1) : Opens (.file content) .blank

/-- Connecting to an address that leads to a database gives that database and changes no file. -/
theorem FileTree.LeadsTo.connect {t : FileTree} {a : Address} {place : Path} {e : Entry}
    {d : Database} (h : t.LeadsTo place a) (hentry : t.entry? place = some e) (he : e.Opens d) :
    t.connect a = (.ok d, t) := by
  cases he with
  | database => exact (h.holds hentry).connect
  | empty small =>
    obtain ⟨plain, short, found⟩ := h
    simp only [FileTree.connect, plain, Bool.false_eq_true, if_false, if_neg short, openFile, found,
      hentry, if_pos small]

namespace Host

variable {h : Host} {root file : Path} {rid : Identifier} {d : Database}

/-- The store file is there, and connecting to it finds this database. -/
structure Finds (h : Host) (file : Path) (d : Database) : Prop where
  there : h.files.isFile file = .ok true
  found : ∃ address place e, Address.read file.text = .ok address ∧
    h.files.LeadsTo place address ∧ h.files.entry? place = some e ∧ e.Opens d

/-- Where a path finds a database, connecting to it gives this one. -/
theorem Finds.connect (hfound : Finds h file d) :
    ∃ address, Address.read file.text = .ok address ∧
      h.files.connect address = (.ok d, h.files) := by
  obtain ⟨-, address, place, e, hread, hleads, hentry, he⟩ := hfound
  exact ⟨address, hread, hleads.connect hentry he⟩

/-- What is saved in a store file is found there. -/
theorem Finds.save (hfound : Finds h file d) (d' : Database) {address : Address}
    (hread : Address.read file.text = .ok address) :
    Finds { h with files := h.files.save d' address } file d' := by
  obtain ⟨hthere, address', place, e, hread', hleads, hentry, he⟩ := hfound
  obtain rfl := Except.ok.inj (hread'.symm.trans hread)
  have hfile : h.files.hasDirectory place = false := by
    rw [FileTree.hasDirectory, hentry]
    cases he <;> rfl
  have hgrown := hleads.extends_save hfile d'
  refine ⟨hgrown.isFile hthere, address', place, _, hread, hgrown.leadsTo_iff.2 hleads, ?_,
    .database d'⟩
  rw [hleads.saved hfile, if_pos rfl]

/-- A check of a store file answers for the store in it, and changes nothing. -/
theorem Finds.checkStore (hfound : Finds h file d) : h.checkStore file none =
    (d.store.checkSchema.mapError fun fault => .error (.unreadable fault), h) := by
  obtain ⟨address, hread, hconnect⟩ := hfound.connect
  unfold Host.checkStore
  rw [hread]
  dsimp only
  rw [hconnect]
  dsimp only
  cases d.store.checkSchema <;> rfl

/-- Where a path finds a database, the check of the file succeeds just when the schema is accepted.
-/
theorem Finds.check_ok_iff (hfound : Finds h file d) :
    (∃ version, (h.checkStore file none).1 = .ok version) ↔
      ∃ version, d.store.checkSchema = .ok version := by
  rw [hfound.checkStore]
  cases d.store.checkSchema with
  | error fault => exact ⟨nofun, nofun⟩
  | ok version => exact ⟨fun _ => ⟨version, rfl⟩, fun _ => ⟨version, rfl⟩⟩

/-- And the store at this place opens just when it is. -/
theorem Finds.open_ok_iff (hroot : root.Proper)
    (hfound : Finds h (storePath (root.child rid.text)) d) :
    (∃ handle, (openStore root rid h).result = .ok handle) ↔
      ∃ version, d.store.checkSchema = .ok version := by
  rw [← hfound.check_ok_iff, openStore_of_isFile hroot hfound.there]
  cases (h.checkStore (storePath (root.child rid.text)) none).1 with
  | error fault => exact ⟨nofun, nofun⟩
  | ok version => exact ⟨fun _ => ⟨version, rfl⟩, fun _ => ⟨_, rfl⟩⟩

/-! ## Initialising -/

/-- Nothing is done to a complete store. -/
theorem Finds.initFile_of_complete (hfound : Finds h file d) (hcomplete : d.store.Complete) :
    h.initFile file = (.ok (), h) := by
  obtain ⟨address, hread, hconnect⟩ := hfound.connect
  rw [initFile_of_connect hread hconnect, if_pos (Store.initialised_eq_self_iff.2 hcomplete)]

/-- A store that another process has locked is not completed. -/
theorem Finds.initFile_of_locked (hfound : Finds h file d) (hpart : ¬ d.store.Complete)
    (hlock : d.store.locked = true) :
    h.initFile file = (.error (Foreign.database .databaseLocked), h) := by
  obtain ⟨address, hread, hconnect⟩ := hfound.connect
  rw [initFile_of_connect hread hconnect, if_neg (mt Store.initialised_eq_self_iff.1 hpart),
    if_pos hlock]

/-- Initialising a database that is not locked, or has nothing left to do, succeeds and leaves the
store initialised. -/
theorem Finds.initFile_of_free (hfound : Finds h file d)
    (hfree : d.store.locked = false ∨ d.store.Complete) :
    ∃ h', h.initFile file = (.ok (), h') ∧ Finds h' file (d.update d.store.initialised) := by
  by_cases hcomplete : d.store.Complete
  · refine ⟨h, hfound.initFile_of_complete hcomplete, ?_⟩
    rw [update_eq_self_iff.2 (Store.initialised_eq_self_iff.2 hcomplete)]
    exact hfound
  · obtain ⟨address, hread, hconnect⟩ := hfound.connect
    rw [initFile_of_connect hread hconnect, if_neg (mt Store.initialised_eq_self_iff.1 hcomplete),
      hfree.resolve_right hcomplete]
    exact ⟨_, rfl, hfound.save _ hread⟩

/-- Updating a database puts the store there that it is updated to. -/
theorem store_update (d : Database) (s : Store) : (d.update s).store = s := by
  unfold Database.update
  split
  next hsame => exact hsame.symm
  · rfl

/-- A check of the store at a path answers for the tables and the version that the store has. Making
sure of it adds what is missing and nothing else, so that doing this again changes nothing; then it
passes the check and opens, if its metadata gave no version before or the known one. Only while
another process holds the lock a store cannot be completed, and stays as it is. -/
theorem initStore_completes (t : Text) (rid : Identifier) (h : Host) (d : Database) :
    let root := Path.parse t
    let repository := root.child rid.text
    let file := storePath repository
    let current := d.store.version? = none ∨ d.store.version? = some Store.knownVersion
    Finds h file d →
      (∃ verdict, d.store.Judged verdict ∧
        h.checkStore file none = (verdict.mapError fun fault => .error (.unreadable fault), h)) ∧
      (d.store.locked = false ∨ d.store.Complete →
        ∃ h' d', h.initStore repository = (.ok file, h') ∧ Finds h' file d' ∧
          d.store.Completed d'.store ∧
          (∀ n, (fun g => (g.initStore repository).2)^[n] h' = h') ∧
          ((∃ version, (h'.checkStore file none).1 = .ok version) ↔ current) ∧
          ((∃ handle, (openStore root rid h').result = .ok handle) ↔ current)) ∧
      (d.store.locked = true → ¬ d.store.Complete →
        h.initStore repository = (.error (Foreign.database .databaseLocked), h)) := by
  intro root repository file current hfound
  have hroot : root.Proper := Path.proper_parse t
  have hdirectory : ∀ {g : Host} {c : Database}, Finds g file c →
      g.files.isDirectory repository = .ok true := fun hfound => by
    obtain ⟨place, hplace, -⟩ := FileTree.place_of_isFile hfound.there
    exact isDirectory_of_storePath hroot hplace
  refine ⟨⟨_, d.store.judged_checkSchema, hfound.checkStore⟩, fun hfree => ?_,
    fun hlock hpart => ?_⟩
  · obtain ⟨h', hrun, hfound'⟩ := hfound.initFile_of_free hfree
    -- what was completed is complete, so making sure of it again has nothing to do
    have hagain : h'.initStore repository = (.ok file, h') :=
      initStore_of_isDirectory (hdirectory hfound')
        (hfound'.initFile_of_complete (store_update d _ ▸ d.store.complete_initialised))
    -- after initialising the version is the only thing that can still fail the check
    have hcurrent : (∃ version, (d.update d.store.initialised).store.checkSchema = .ok version) ↔
        current := by
      rw [store_update]
      exact d.store.checkSchema_initialised
    refine ⟨h', _, initStore_of_isDirectory (hdirectory hfound) hrun, hfound',
      store_update d _ ▸ d.store.completed_initialised,
      Function.iterate_fixed (congrArg Prod.snd hagain), ?_, ?_⟩
    · exact hfound'.check_ok_iff.trans hcurrent
    · exact (hfound'.open_ok_iff hroot).trans hcurrent
  · exact initStore_of_isDirectory (hdirectory hfound) (hfound.initFile_of_locked hpart hlock)

end Host

namespace Sample

/-- A host whose store file holds this store. -/
def holding (s : Store) : Host where
  files := ⟨[(⟨.slash, ["home"]⟩, .directory), (config.storageRoot, .directory),
    (directory, .directory), (storePath directory, .database ⟨s, 0⟩)]⟩
  git := .missing
  refusals := []

/-- A store that is half made: two tables are missing, and with them the version. -/
def halfMade : Store := { store with metadata := none, links := none }

/-- The same store in an older version. -/
def outdated : Store := halfMade.withVersion (some "1")

theorem finds_holding (s : Store) : Host.Finds (holding s) (storePath directory) ⟨s, 0⟩ :=
  ⟨rfl, _, storePath directory, _, read_storePath,
    .file (by decide +kernel) (by decide +kernel) rfl, rfl, .database _⟩

end Sample

namespace Host

open Sample in
/-- The half made store opens afterwards; the one in an older version does not, although all its
tables are there then. -/
theorem initStore_completes_halfMade :
    Finds (holding halfMade) (storePath directory) ⟨halfMade, 0⟩ ∧
      (∃ h', (holding halfMade).initStore directory = (.ok (storePath directory), h') ∧
        ∃ handle, (openStore config.storageRoot repository h').result = .ok handle) ∧
      ∃ (h' : Host) (d' : Database), (holding outdated).initStore directory =
          (.ok (storePath directory), h') ∧ outdated.Completed d'.store ∧
        ¬ ∃ handle, (openStore config.storageRoot repository h').result = .ok handle := by
  have hroot : Path.parse "/home/storage" = config.storageRoot := by decide +kernel
  obtain hhalf := initStore_completes "/home/storage" repository (holding halfMade) ⟨halfMade, 0⟩
  obtain hold := initStore_completes "/home/storage" repository (holding outdated) ⟨outdated, 0⟩
  rw [hroot] at hhalf hold
  obtain ⟨-, hhalf, -⟩ := hhalf (finds_holding halfMade)
  obtain ⟨-, hold, -⟩ := hold (finds_holding outdated)
  obtain ⟨h', -, hmade, -, -, -, -, hopens⟩ := hhalf (.inl rfl)
  obtain ⟨g', d', hmade', -, hcompleted, -, -, hopens'⟩ := hold (.inl rfl)
  refine ⟨finds_holding halfMade, ⟨h', hmade, hopens.2 (.inl rfl)⟩, g', d', hmade', hcompleted,
    fun hopen => ?_⟩
  -- the old version stays on record, and it is not the known one
  have hversion : ¬ (outdated.version? = none ∨ outdated.version? = some Store.knownVersion) := by
    decide
  exact hversion (hopens'.1 hopen)

end Host

end RefSweep
