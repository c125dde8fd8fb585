import RefSweep.Host.Run
import RefSweep.Proofs.FileTree
import RefSweep.Proofs.Store.Compaction
import RefSweep.Proofs.Store.Rows

/-!
# The store in a file keeps a list of references

Each operation of relational storage connects to the file, works on the database with a fresh
session, and saves what that leaves. Main statement: `sqliteStorage_keeps`, whatever the database
refuses, the rows are a list of references that the operations change as they should.
-/

namespace RefSweep.Host

variable {α : Type} {h : Host} {handle : Handle} {d : Database} {refs : List Reference}

/-- The store file of an open repository holds this database. -/
structure Stores (handle : Handle) (h : Host) (d : Database) : Prop where
  kind : handle.kind = .sqlite
  held : ∃ address, Address.read (storePath handle.path).text = .ok address ∧
    h.files.Holds d address

/-- The rows of the references in the store file of an open repository. -/
def storedRows (handle : Handle) (h : Host) : List RefRow :=
  match Address.read (storePath handle.path).text with
  | .error _ => []
  | .ok address =>
    match (h.files.connect address).1 with
    | .ok d => d.store.refRows
    | .error _ => []

/-- There is one database at an address. -/
theorem Stores.unique {d' : Database} (hd : Stores handle h d) (hd' : Stores handle h d') :
    d = d' := by
  obtain ⟨-, address, hread, hheld⟩ := hd
  obtain ⟨-, address', hread', hheld'⟩ := hd'
  obtain rfl := Except.ok.inj (hread.symm.trans hread')
  exact Except.ok.inj (congrArg Prod.fst (hheld.connect.symm.trans hheld'.connect))

/-- The rows of an open store are those of the database its handle leads to. -/
theorem Stores.storedRows_eq (hd : Stores handle h d) : storedRows handle h = d.store.refRows := by
  obtain ⟨-, address, hread, hheld⟩ := hd
  rw [storedRows, hread]
  simp only [hheld.connect]

/-- `h'` can come after `h`: all paths lead where they led, and nothing is refused that was not
planned. -/
structure Later (h h' : Host) : Prop where
  files : h.files.Extends h'.files
  refusals : h'.refusals ⊆ h.refusals

theorem Later.refl (h : Host) : Later h h := ⟨.refl _, fun _ hr => hr⟩

theorem Later.trans {h' h'' : Host} (hl : Later h h') (hl' : Later h' h'') : Later h h'' :=
  ⟨hl.files.trans hl'.files, fun _ hr => hl.refusals (hl'.refusals hr)⟩

/-- An operation on the store sees the database and leaves the one that it gives back, at the place
where the handle leads. -/
theorem Stores.onStore (hd : Stores handle h d) (session : Session)
    (operation : Refusals → Session → Database → Step α) :
    let step := operation h.nextRefusals.1 session d
    let done := h.onStore handle session operation
    done.1 = step.result ∧ done.2.1 = step.session ∧ Stores handle done.2.2 step.database ∧
      Later h done.2.2 := by
  obtain ⟨hkind, address, hread, hheld⟩ := hd
  have hconnect : h.nextRefusals.2.files.connect address = (.ok d, h.files) := hheld.connect
  obtain ⟨hsaved, hgrown⟩ := hheld.save (operation h.nextRefusals.1 session d).database
  unfold Host.onStore onFile
  simp only [hkind, hread, hconnect, true_and]
  exact ⟨⟨hkind, address, hread, hsaved⟩, hgrown, fun _ hr => List.mem_of_mem_tail hr⟩

/-- Choosing a storage changes nothing. -/
theorem pick_storageOf (config : Config) (id : Identifier) (h : Host) :
    (pick config id h).state = h ∧
      ∀ storage, (pick config id h).result = .ok storage → ∃ kind, storage = storageOf kind := by
  unfold pick
  split
  · exact ⟨rfl, nofun⟩
  next kind log _ => exact ⟨rfl, fun storage hok => ⟨kind, (Except.ok.inj hok).symm⟩⟩

/-- A store whose schema is accepted lacks no table. -/
theorem missingTables_of_checkSchema {s : Store} {version : Text}
    (hcheck : s.checkSchema = .ok version) : s.missingTables = [] := by
  unfold Store.checkSchema at hcheck
  split at hcheck
  next htables => exact htables
  · cases hcheck

/-- If the check of a store succeeds, then it has changed nothing, and the file's address leads to a
database whose schema is accepted with the version answered. -/
theorem checkStore_ok {file : Path} {version : Text} {h' : Host}
    (hcheck : h.checkStore file none = (.ok version, h')) :
    h' = h ∧ ∃ d, d.store.checkSchema = .ok version ∧
      ∃ address, Address.read file.text = .ok address ∧ h.files.Holds d address := by
  unfold checkStore at hcheck
  split at hcheck
  · cases hcheck
  · cases hcheck
  next address hread _ =>
    split at hcheck
    · cases hcheck
    next d files hconnect =>
      split at hcheck
      · cases hcheck
      -- an accepted schema has all tables, so connecting found a database and made none
      next v hschema =>
        obtain ⟨rfl, hholds⟩ :=
          FileTree.holds_of_connect hconnect (missingTables_of_checkSchema hschema)
        obtain ⟨hversion, rfl⟩ := Prod.mk.inj hcheck
        obtain rfl := Except.ok.inj hversion
        exact ⟨rfl, d, hschema, address, hread, hholds⟩

/-- Conversely, where the address of the file leads to a database with an accepted schema, the check
answers its version and leaves the host as it was. -/
theorem checkStore_of_holds {file : Path} {version : Text} {address : Address}
    (hread : Address.read file.text = .ok address) (hheld : h.files.Holds d address)
    (hschema : d.store.checkSchema = .ok version) :
    h.checkStore file none = (.ok version, h) := by
  unfold checkStore
  rw [hread]
  dsimp only
  rw [hheld.connect]
  dsimp only
  rw [hschema]

/-- Opening a store changes nothing, and gives a repository whose file holds a database with all
tables. -/
theorem openStore_ok {root : Path} {id : Identifier}
    (hopen : (openStore root id h).result = .ok handle) :
    (openStore root id h).state = h ∧ ∃ d, Stores handle h d ∧ d.store.missingTables = [] := by
  unfold openStore at hopen ⊢
  dsimp only at hopen ⊢
  split at hopen
  · cases hopen
  next path _ =>
    split at hopen
    · cases hopen
    · cases hopen
    · split at hopen
      · cases hopen
      -- the only check that reads the database is the last one
      next version h' hcheck =>
        obtain ⟨rfl, d, hschema, hheld⟩ := checkStore_ok hcheck
        obtain rfl := Except.ok.inj hopen
        exact ⟨rfl, d, ⟨rfl, hheld⟩, missingTables_of_checkSchema hschema⟩

/-- The store file of an open repository lists these references. -/
def KeepsRows (handle : Handle) (h : Host) (refs : List Reference) : Prop :=
  ∃ d, Stores handle h d ∧ d.store.Lists refs

/-- An operation on an open store does to the database what it does to a database alone, and the
handle leads to the outcome afterwards. -/
theorem answerOnStore_stores (hd : Stores handle h d)
    (operation : Refusals → Session → Database → Step α) :
    let step := operation h.nextRefusals.1 .fresh d
    let answer := answerOnStore handle operation h
    answer.result = step.result ∧ Stores handle answer.state step.database ∧
      Later h answer.state := by
  obtain ⟨hresult, -, hstores, hlater⟩ := hd.onStore .fresh operation
  exact ⟨hresult, hstores, hlater⟩

/-- Reading the references through any session leaves the handle leading to the same database. -/
theorem storedReferences_stores (hd : Stores handle h d) (session : Session) :
    let done := h.storedReferences handle session
    (done.1 = (session.listing h.nextRefusals.1 d).1 ∧
        done.2.1 = (session.listing h.nextRefusals.1 d).2) ∧
      Stores handle done.2.2 d ∧ Later h done.2.2 := by
  obtain ⟨hresult, hsession, hstores, hlater⟩ := hd.onStore session fun refusals session d =>
    .ok (session.listing refusals d).2 d (session.listing refusals d).1
  unfold storedReferences
  dsimp only at hresult hsession hstores hlater ⊢
  rw [hresult]
  exact ⟨⟨rfl, hsession⟩, hstores, hlater⟩

/-- A listing of the store in a file that does not fail is the one of its rows. -/
theorem references_of_failure_none (hd : Stores handle h d)
    (hnone : (sqliteStorage.references handle h).1.failure = none) :
    (sqliteStorage.references handle h).1 = Store.parseRows d.store.refRows := by
  obtain ⟨⟨hlisting, -⟩, -⟩ := storedReferences_stores hd .fresh
  have hsame : (sqliteStorage.references handle h).1 = _ := hlisting
  rw [hsame] at hnone ⊢
  exact Session.listing_of_failure_none (Session.current_of_idle rfl) hnone

/-- What the store of an open repository lists are its rows. -/
theorem row_of_mem_references (hd : Stores handle h d) {r : Reference}
    (hr : r ∈ (sqliteStorage.references handle h).1.references) : r.row ∈ d.store.refRows := by
  obtain ⟨⟨hlisting, -⟩, -⟩ := storedReferences_stores hd .fresh
  have hsame : (sqliteStorage.references handle h).1 = _ := hlisting
  rw [hsame] at hr
  obtain hnone | hrows := Session.fresh.listing_cases h.nextRefusals.1 d
  · rw [hnone] at hr
    cases hr
  · rw [hrows] at hr
    exact (Store.mem_parseRows hr).2

/-- What an operation on a store gives comes from some database, if it gives anything: the file may
also be missing or be no database. -/
theorem onStore_eq_ok {session : Session} {operation : Refusals → Session → Database → Step α}
    {v : α} (hok : (h.onStore handle session operation).1 = .ok v) :
    ∃ refusals d, (operation refusals session d).result = .ok v := by
  unfold onStore at hok
  split at hok
  · cases hok
  · unfold onFile at hok
    split at hok
    · cases hok
    · dsimp only at hok
      split at hok
      · cases hok
      next d _ _ => exact ⟨_, d, hok⟩

/-- What relational storage lists has names that can be read, also in a listing that fails in the
end. -/
theorem parse_of_mem_storedReferences {session : Session} {r : Reference}
    (hr : r ∈ (h.storedReferences handle session).1.references) :
    RefName.parse r.name.text = .ok r.name := by
  unfold storedReferences at hr
  dsimp only at hr
  split at hr
  next listing hok =>
    obtain ⟨refusals, d, hlisting⟩ := onStore_eq_ok hok
    obtain rfl := Except.ok.inj hlisting
    -- a listing gives no rows, or rows that were parsed
    obtain hnone | hrows := session.listing_cases refusals d
    · rw [hnone] at hr
      cases hr
    · rw [hrows] at hr
      exact (Store.mem_parseRows hr).1
  · cases hr

/-- Whatever the database refuses, relational storage keeps the list of the references: an operation
that fails with an error of the library has changed none of its rows. -/
theorem sqliteStorage_keeps (handle : Handle) :
    Keeps sqliteStorage handle (KeepsRows handle) where
  -- a listing without a failure is the one that the store keeps
  lists := by
    rintro h refs ⟨d, hd, hlists⟩ hnone
    have hrows := references_of_failure_none hd hnone
    rw [hlists.parseRows] at hrows
    exact ⟨congrArg Listing.references hrows, d, (storedReferences_stores hd .fresh).2.1, hlists⟩
  -- a deletion fails and changes nothing, or takes away the row of the name
  deletes := by
    rintro h refs name ⟨d, hd, hlists⟩ hname
    obtain ⟨hresult, hstores, -⟩ := answerOnStore_stores hd fun refusals session d =>
      session.deleteReference refusals d name.text
    show Attempted _ _ (endingOf (answerOnStore handle _ h).result)
    rw [hresult]
    obtain ⟨⟨e, hfailed⟩, hsame⟩ | ⟨hok, -, hgone⟩ :=
      Session.deleteReference_cases (x := .fresh) (d := d) h.nextRefusals.1 rfl
        (hlists.characters hname)
    · rw [hfailed]
      rw [hsame] at hstores
      exact ⟨⟨d, hstores, hlists⟩, e, rfl⟩
    · rw [hok]
      rw [hgone] at hstores
      exact ⟨_, hstores, hlists.withoutRef hname⟩
  -- a compaction leaves the rows of the references in any case
  compacts := by
    rintro h refs ⟨d, hd, hlists⟩
    obtain ⟨hresult, hstores, -⟩ := answerOnStore_stores hd fun refusals session d =>
      session.compact refusals d
    show Attempted _ _ (endingOf (answerOnStore handle _ h).result)
    rw [hresult]
    obtain ⟨-, ⟨e, hfailed, hsame | hcollected⟩ | ⟨⟨bytes, hok⟩, hcollected⟩⟩ :=
      Session.compact_cases (x := .fresh) h.nextRefusals.1 rfl
        (Session.current_of_idle (d := d) rfl)
    · rw [hfailed]
      exact ⟨⟨_, hstores, hlists.congr (congrArg Store.refRows hsame)⟩, _, rfl⟩
    · rw [hfailed]
      exact ⟨⟨_, hstores, hlists.congr (by rw [hcollected]; rfl)⟩, _, rfl⟩
    · rw [hok]
      exact ⟨_, hstores, hlists.congr (by rw [hcollected]; rfl)⟩
  closes := by
    rintro h refs ⟨d, hd, hlists⟩
    have hclose : sqliteStorage.close handle h = ⟨.ok (), h, []⟩ := by
      dsimp only [sqliteStorage]
      rw [hd.kind]
    rw [hclose]
    exact ⟨rfl, d, hd, hlists⟩

/-- What its deletion or compaction keeps of a store, an answer of relational storage keeps. The two
are all that can change its rows in a run. -/
theorem sqliteStorage_preserves {I : Store → Prop} {h t : Host} {e : Exchange}
    (hanswer : Answers sqliteStorage handle h e t)
    (hdelete : ∀ {s name}, e.call = .deleted name → I s → I (Store.withoutRef s name.text))
    (hcompact : ∀ {s}, I s → I (Store.collected s)) (hd : ∃ d, Stores handle h d ∧ I d.store) :
    (∃ d, Stores handle t d ∧ I d.store) ∧ Later h t := by
  obtain ⟨d, hd, hI⟩ := hd
  cases hanswer with
  -- reading leaves the store; deleting and compacting leave it or change it as assumed
  | listed =>
    obtain ⟨-, hstores, hlater⟩ := storedReferences_stores hd .fresh
    exact ⟨⟨d, hstores, hI⟩, hlater⟩
  | deleted name =>
    obtain ⟨-, hstores, hlater⟩ := answerOnStore_stores hd fun refusals session d =>
      session.deleteReference refusals d name.text
    refine ⟨⟨_, hstores, ?_⟩, hlater⟩
    rcases Session.deleteReference_database h.nextRefusals.1 .fresh d name.text with hsame | hgone
    · rw [hsame]
      exact hI
    · rw [hgone]
      exact hdelete rfl hI
  | compacted =>
    obtain ⟨-, hstores, hlater⟩ := answerOnStore_stores hd fun refusals session d =>
      session.compact refusals d
    refine ⟨⟨_, hstores, ?_⟩, hlater⟩
    obtain ⟨-, ⟨-, -, hstore | hstore⟩ | ⟨-, hstore⟩⟩ :=
      Session.compact_cases (x := .fresh) h.nextRefusals.1 rfl
        (Session.current_of_idle (d := d) rfl)
    · rw [hstore]
      exact hI
    · rw [hstore]
      exact hcompact hI
    · rw [hstore]
      exact hcompact hI
  | closed =>
    have hclose : (sqliteStorage.close handle h).state = h := by
      dsimp only [sqliteStorage]
      rw [hd.kind]
    rw [hclose]
    exact ⟨⟨d, hd, hI⟩, .refl _⟩

end RefSweep.Host
