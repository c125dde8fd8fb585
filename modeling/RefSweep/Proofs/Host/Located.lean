import RefSweep.Proofs.Host.Account
import RefSweep.Proofs.Host.Address
import RefSweep.Proofs.Host.Evolution
import RefSweep.Proofs.Namespace

/-!
# Where stores are found

Whether a repository has a store is asked of the path of its store file; the store is then reached
through an address, the text of that path. Main statement: `store_located`. If the address is read
as it stands, what is opened or created is the file that the path leads to. If a question mark or a
percent sign in it is not read so, that file is passed by, whatever it holds.
-/

namespace RefSweep.Host

variable {h h' : Host} {root place file : Path} {rid : Identifier} {handle : Handle}

/-- The handle that opening a store gives. -/
def handleOf (root : Path) (rid : Identifier) : Handle := ⟨.sqlite, rid, root.child rid.text⟩

/-- The address of the store is short enough for the database. -/
def Fits (root : Path) (rid : Identifier) : Prop :=
  (Utf8.encode (Address.normal (storePath (root.child rid.text))).text).length ≤
    FileTree.databasePathLimit

/-- The store is opened in the file at this place: it has to hold a usable store, and it is the one
that the handle uses. Making sure of the store initialises the database in this file. -/
structure Located (root : Path) (rid : Identifier) (h : Host) (place : Path) : Prop where
  opens : (∃ handle, (openStore root rid h).result = .ok handle) ↔
    Fits root rid ∧
      ∃ d version, h.files.entry? place = some (.database d) ∧ d.store.checkSchema = .ok version
  used : ∀ handle, (openStore root rid h).result = .ok handle →
    handle = handleOf root rid ∧ Uses handle h place
  initialises : Fits root rid → ∀ d, h.files.entry? place = some (.database d) →
    d.store.lock? = none → ∃ h', h.initStore (root.child rid.text) =
      (.ok (storePath (root.child rid.text)), h') ∧
        h'.files.entry? place = some (.database (d.update d.store.initialised))

/-- The store is opened elsewhere: no file that could be at this place changes what opening gives,
and the handle does not use it. -/
structure PassedBy (root : Path) (rid : Identifier) (h : Host) (place : Path) : Prop where
  blind : ∀ e, e ≠ .directory →
    (openStore root rid { h with files := h.files.put place e }).result =
      (openStore root rid h).result
  unused : ∀ handle, (openStore root rid h).result = .ok handle →
    handle = handleOf root rid ∧ ¬ Uses handle h place

/-! ## The path of a store -/

section StorePath

variable (hroot : root.Proper) (rid : Identifier)
include hroot

/-- The directory of a repository under a proper root has a proper path, as an identifier is a
single name. -/
theorem proper_repository : (root.child rid.text).Proper := by
  obtain ⟨hslash, haccepted⟩ := rid.isSegment
  obtain ⟨hne, hdot, -⟩ := Segment.fault?_eq_none_iff.1 haccepted
  exact hroot.child hne (fun heq => hdot (heq ▸ List.prefix_rfl)) hslash

theorem proper_storePath : (storePath (root.child rid.text)).Proper :=
  (proper_repository hroot rid).child (by decide) (by decide) (by decide)

theorem storePath_text : (storePath (root.child rid.text)).text =
    (root.child rid.text).text ++ Text.of "/store.db" :=
  (proper_repository hroot rid).text_child (by simp [Path.child]) _

/-- The path of a store does not end in a question mark, so the address goes on after each one that
the root may hold. -/
theorem goesOn_storePath : Address.GoesOn (storePath (root.child rid.text)).text := by
  refine ⟨(root.child rid.text).text ++ Text.of "/store.d", 'b', ?_, by decide, by decide⟩
  rw [storePath_text hroot, List.append_assoc]
  rfl

omit hroot in
/-- Without two dots in the root there are none in the path of a store. -/
theorem noDots_storePath (hdown : Text.of ".." ∉ root.parts) :
    Text.of ".." ∉ (storePath (root.child rid.text)).parts := by
  intro hmem
  obtain hmem | hname := List.mem_append.1 hmem
  · obtain hmem | hrid := List.mem_append.1 hmem
    · exact hdown hmem
    · obtain ⟨-, hdot, -⟩ := Segment.fault?_eq_none_iff.1 rid.isSegment.2
      exact hdot (List.mem_singleton.1 hrid ▸ ⟨Text.of ".", rfl⟩)
  · exact absurd (List.mem_singleton.1 hname) (by decide)

/-- The address of a store, where it is read as it stands: the normal form of the path of its file.
-/
theorem read_storePath_of_literal
    (hliteral : Address.Literal (storePath (root.child rid.text)).text) :
    Address.read (storePath (root.child rid.text)).text =
      .ok (.file (Address.normal (storePath (root.child rid.text)))) := by
  obtain ⟨front, last, htext, -⟩ := goesOn_storePath hroot rid
  have hne : (storePath (root.child rid.text)).text ≠ [] := by rw [htext]; simp
  -- the path of a store ends in the name of its file, so it is not the name of a database in memory
  have hmemory : (storePath (root.child rid.text)).text ≠ Text.of ":memory:" := by
    rw [storePath_text hroot]
    intro heq
    have hlast := congrArg List.getLast? heq
    rw [List.getLast?_append] at hlast
    cases hlast
  rw [Address.read_of_literal hliteral, Address.ofName_eq hne hmemory,
    (proper_storePath hroot rid).parse_text]

/-- The database at such an address is the one in the file that the path leads to, and the address
is short. -/
theorem holds_at_place {tree : FileTree} {address : Address} {d : Database}
    (hplace : tree.place (storePath (root.child rid.text)) = .ok place)
    (hliteral : Address.Literal (storePath (root.child rid.text)).text)
    (hread : Address.read (storePath (root.child rid.text)).text = .ok address)
    (hheld : tree.Holds d address) :
    Fits root rid ∧ tree.LeadsTo place address ∧ tree.entry? place = some (.database d) := by
  obtain rfl := Except.ok.inj ((read_storePath_of_literal hroot rid hliteral).symm.trans hread)
  obtain @⟨_, place', plain, short, found, stored⟩ := hheld
  have hleads := Address.leadsTo_normal hplace short
  obtain rfl := hleads.unique (.file plain short found)
  exact ⟨Nat.not_lt.1 short, hleads, stored⟩

/-- An address that is not read as it stands leads to another place than the path. -/
theorem not_leadsTo_storePath {tree : FileTree} {address : Address}
    (hdown : Text.of ".." ∉ root.parts)
    (hplace : tree.place (storePath (root.child rid.text)) = .ok place)
    (hliteral : ¬ Address.Literal (storePath (root.child rid.text)).text)
    (hread : Address.read (storePath (root.child rid.text)).text = .ok address) :
    ¬ tree.LeadsTo place address :=
  Address.not_leadsTo (proper_storePath hroot rid) (by simp [storePath, Path.child])
    (noDots_storePath rid hdown) (goesOn_storePath hroot rid) hplace hliteral hread

end StorePath

/-! ## Opening -/

/-- Where the path of a store leads anywhere, the repository above it is a directory. -/
theorem isDirectory_of_storePath {tree : FileTree} (hroot : root.Proper)
    (hplace : tree.place (storePath (root.child rid.text)) = .ok place) :
    tree.isDirectory (root.child rid.text) = .ok true :=
  FileTree.isDirectory_of_child (proper_repository hroot rid) (by simp [Path.child]) hplace

/-- Where the store file is a file, opening the store is checking it. The handle does not depend on
what the check finds. -/
theorem openStore_of_isFile (hroot : root.Proper)
    (hfile : h.files.isFile (storePath (root.child rid.text)) = .ok true) :
    (openStore root rid h).result =
      (h.checkStore (storePath (root.child rid.text)) none).1.map fun _ => handleOf root rid := by
  obtain ⟨place, hplace, -⟩ := FileTree.place_of_isFile hfile
  -- a file at the path of the store means that its directory is there: that check passes
  have hdirectory := isDirectory_of_storePath hroot hplace
  have hlocate : h.files.locate root rid = .ok (root.child rid.text) := by
    unfold FileTree.locate
    dsimp only
    rw [hdirectory]
  unfold openStore
  rw [hlocate]
  dsimp only
  rw [hfile]
  dsimp only
  rcases h.checkStore (storePath (root.child rid.text)) none with ⟨checked, h'⟩
  cases checked <;> rfl

/-- What the check of a store says depends on the files only through what connecting to the address
gives. -/
theorem checkStore_congr (hconnect : ∀ address, Address.read file.text = .ok address →
      (h'.files.connect address).1 = (h.files.connect address).1) :
    (h'.checkStore file none).1 = (h.checkStore file none).1 := by
  unfold checkStore
  cases hread : Address.read file.text with
  | error fault => rfl
  | ok address =>
    -- the schema is read from the database that was connected to, so equal answers are judged alike
    have hsame := hconnect address hread
    revert hsame
    dsimp only
    rcases h'.files.connect address with ⟨found, files'⟩
    rcases h.files.connect address with ⟨found', files⟩
    rintro rfl
    cases found with
    | error e => rfl
    | ok d =>
      dsimp only
      cases d.store.checkSchema <;> rfl

/-! ## Making sure of a store -/

/-- Writing a store is no change exactly if it is the one that is there. Otherwise the revision
grows. -/
theorem update_eq_self_iff {d : Database} {s : Store} : d.update s = d ↔ s = d.store := by
  unfold Database.update
  split
  next hsame => exact ⟨fun _ => hsame, fun _ => rfl⟩
  next hother =>
    refine ⟨fun heq => ?_, fun hsame => absurd hsame hother⟩
    exact absurd (congrArg Database.revision heq) (Nat.succ_ne_self _)

/-- What making sure of a store file comes to, once its database is found. Only a store that has
something missing is written to, and only that can meet a lock. -/
theorem initFile_of_connect {address : Address} {d : Database}
    (hread : Address.read file.text = .ok address)
    (hconnect : h.files.connect address = (.ok d, h.files)) : h.initFile file =
      if d.store.initialised = d.store then (.ok (), h)
      else if d.store.locked then (.error (Foreign.database .databaseLocked), h)
      else (.ok (),
        { h with files := h.files.save (d.update d.store.initialised) address }) := by
  unfold initFile
  rw [hread]
  dsimp only
  rw [hconnect]
  dsimp only
  -- the lock matters only if there is something to write
  by_cases hsame : d.store.initialised = d.store
  · rw [if_pos hsame, if_pos (update_eq_self_iff.2 hsame)]
  · rw [if_neg hsame, if_neg fun heq => hsame (update_eq_self_iff.1 heq), Store.lock?]
    cases d.store.locked <;> rfl

/-- Making sure of a store whose address leads to a database that nobody has locked leaves this
database initialised. -/
theorem initFile_of_leadsTo {address : Address} {d : Database}
    (hread : Address.read file.text = .ok address) (hleads : h.files.LeadsTo place address)
    (hstored : h.files.entry? place = some (.database d)) (hlock : d.store.lock? = none) :
    ∃ h', h.initFile file = (.ok (), h') ∧
      h'.files.entry? place = some (.database (d.update d.store.initialised)) := by
  rw [initFile_of_connect hread (hleads.holds hstored).connect]
  split
  -- nothing to do: the database at the place is the initialised one already
  next hsame => exact ⟨h, rfl, by rw [hstored, update_eq_self_iff.2 hsame]⟩
  · have hfree : ¬ d.store.locked = true := by simpa [Store.lock?] using hlock
    have hfile : h.files.hasDirectory place = false := by rw [FileTree.hasDirectory, hstored]
    rw [if_neg hfree]
    refine ⟨_, rfl, ?_⟩
    dsimp only
    rw [hleads.saved hfile, if_pos rfl]

/-- Where the directory of a repository is there, creating the store is initialising its file. -/
theorem initStore_of_isDirectory {repository : Path} {result : Except Failure Unit}
    (hdirectory : h.files.isDirectory repository = .ok true)
    (hrun : h.initFile (storePath repository) = (result, h')) :
    h.initStore repository = (result.map fun () => storePath repository, h') := by
  unfold initStore
  rw [FileTree.makeDirectory_of_isDirectory hdirectory]
  dsimp only
  rw [hrun]

/-- Initialising a store file connects to its address, and may save a database there. -/
theorem initFile_files (h : Host) (file : Path) :
    (h.initFile file).2.files = h.files ∨
      ∃ address, Address.read file.text = .ok address ∧
        ((h.initFile file).2.files = (h.files.connect address).2 ∨
          ∃ d d', (h.files.connect address).1 = .ok d ∧
            (h.initFile file).2.files = (h.files.connect address).2.save d' address) := by
  unfold initFile
  cases Address.read file.text with
  | error fault => exact .inl rfl
  | ok address =>
    refine .inr ⟨address, rfl, ?_⟩
    dsimp only
    -- a connection that fails, a store with nothing to do and a locked one leave what connecting
    -- left
    rcases h.files.connect address with ⟨found, files⟩
    cases found with
    | error e => exact .inl rfl
    | ok d =>
      dsimp only
      split
      · exact .inl rfl
      · split
        · exact .inl rfl
        · exact .inr ⟨d, d.update d.store.initialised, rfl, rfl⟩

/-- Making sure of a store succeeds only if its address can be connected to. -/
theorem connect_of_initFile {address : Address} (hrun : h.initFile file = (.ok (), h'))
    (hread : Address.read file.text = .ok address) :
    ∃ d, (h.files.connect address).1 = .ok d := by
  unfold initFile at hrun
  rw [hread] at hrun
  dsimp only at hrun
  rcases hconnect : h.files.connect address with ⟨found, files⟩
  rw [hconnect] at hrun
  cases found with
  | error e => cases hrun
  | ok d => exact ⟨d, rfl⟩

/-- Making sure of a store makes no path lead elsewhere, whether it succeeds or not. -/
theorem initFile_grows (h : Host) (file : Path) : h.files.Extends (h.initFile file).2.files := by
  obtain hsame | ⟨address, -, hconnected | ⟨d, d', hok, hsaved⟩⟩ := initFile_files h file
  · rw [hsame]
    exact .refl _
  · rw [hconnected]
    exact (h.files.connect_grows address).1
  · rw [hsaved]
    exact FileTree.extends_connect_save hok d'

/-- A place that the address of the store does not lead to keeps what stands there. -/
theorem initFile_elsewhere (helse : ∀ address, Address.read file.text = .ok address →
      ¬ h.files.LeadsTo place address) :
    FileTree.entry? (h.initFile file).2.files place = h.files.entry? place := by
  obtain hsame | ⟨address, hread, hconnected | ⟨d, d', hok, hsaved⟩⟩ := initFile_files h file
  · rw [hsame]
  · rw [hconnected]
    exact FileTree.connect_elsewhere (helse address hread)
  · rw [hsaved]
    exact FileTree.save_elsewhere (helse address hread) hok d'

/-! ## The file at the path -/

section Opening

variable (hroot : root.Proper)
  (hfile : h.files.isFile (storePath (root.child rid.text)) = .ok true)
include hroot hfile

/-- A store is opened exactly if a file stands at its path and the database at its address has a
schema that passes. The handle is known beforehand. -/
theorem openStore_ok_iff : (openStore root rid h).result = .ok handle ↔
    handle = handleOf root rid ∧ ∃ d version address, d.store.checkSchema = .ok version ∧
      Address.read (storePath (root.child rid.text)).text = .ok address ∧
      h.files.Holds d address := by
  rw [openStore_of_isFile hroot hfile]
  constructor
  · intro hopen
    -- with the file there, opening is the check of the database at the address
    rcases hcheck : h.checkStore (storePath (root.child rid.text)) none with ⟨checked, h'⟩
    rw [hcheck] at hopen
    cases checked with
    | error f => cases hopen
    | ok version =>
      obtain ⟨-, d, hschema, address, hread, hheld⟩ := checkStore_ok hcheck
      exact ⟨(Except.ok.inj hopen).symm, d, version, address, hschema, hread, hheld⟩
  · rintro ⟨rfl, d, version, address, hschema, hread, hheld⟩
    rw [checkStore_of_holds hread hheld hschema]
    rfl

/-- Where the address is literal, it leads where the path does: the file that is checked to be there
is the one that is used. -/
theorem located_of_literal
    (hplace : h.files.place (storePath (root.child rid.text)) = .ok place)
    (hliteral : Address.Literal (storePath (root.child rid.text)).text) :
    Located root rid h place := by
  constructor
  · constructor
    · rintro ⟨handle, hopen⟩
      obtain ⟨-, d, version, address, hschema, haddress, hholds⟩ :=
        (openStore_ok_iff hroot hfile).1 hopen
      obtain ⟨hshort, -, hstored⟩ := holds_at_place hroot rid hplace hliteral haddress hholds
      exact ⟨hshort, d, version, hstored, hschema⟩
    · rintro ⟨hshort, d, version, hstored, hschema⟩
      -- a literal address is the normalised path, and leads where the path does
      have hleads := Address.leadsTo_normal hplace (Nat.not_lt.2 hshort)
      exact ⟨_, (openStore_ok_iff hroot hfile).2 ⟨rfl, d, version, _, hschema,
        read_storePath_of_literal hroot rid hliteral, hleads.holds hstored⟩⟩
  · intro handle hopen
    obtain ⟨rfl, d, version, address, -, haddress, hholds⟩ :=
      (openStore_ok_iff hroot hfile).1 hopen
    obtain ⟨-, hleads, -⟩ := holds_at_place hroot rid hplace hliteral haddress hholds
    exact ⟨rfl, rfl, address, haddress, hleads⟩
  · intro hshort d hstored hlock
    obtain ⟨h', hrun, hleft⟩ := initFile_of_leadsTo (read_storePath_of_literal hroot rid hliteral)
      (Address.leadsTo_normal hplace (Nat.not_lt.2 hshort)) hstored hlock
    exact ⟨h', initStore_of_isDirectory (isDirectory_of_storePath hroot hplace) hrun, hleft⟩

/-- Where the address leads elsewhere, the file at the path has to be there and nothing else about
it counts. -/
theorem passedBy_of_elsewhere (helse : ∀ address,
      Address.read (storePath (root.child rid.text)).text = .ok address →
        ¬ h.files.LeadsTo place address) (hnot : h.files.hasDirectory place = false) :
    PassedBy root rid h place := by
  constructor
  · intro e he
    -- whatever is put at the path, something is still there, and connecting does not come by
    have hgrown : h.files.Extends (h.files.put place e) := .put hnot he
    have hfile' : ({ h with files := h.files.put place e } : Host).files.isFile
        (storePath (root.child rid.text)) = .ok true := hgrown.isFile hfile
    rw [openStore_of_isFile hroot hfile, openStore_of_isFile hroot hfile']
    rw [checkStore_congr fun address hread =>
      FileTree.connect_put_elsewhere (helse address hread) hnot he]
  · intro handle hopen
    obtain ⟨rfl, -⟩ := (openStore_ok_iff hroot hfile).1 hopen
    exact ⟨rfl, fun ⟨_, address, hread, hleads⟩ => helse address hread hleads⟩

end Opening

section Creating

variable {made : Path} (hroot : root.Proper)
  (hinit : h.initStore (root.child rid.text) = (.ok made, h'))
include hroot hinit

/-- The path of a store that was created leads to a place. -/
theorem place_of_created
    (hshort : (Utf8.encode (storePath (root.child rid.text)).text).length ≤ FileTree.pathLimit) :
    ∃ place, h'.files.place (storePath (root.child rid.text)) = .ok place := by
  obtain ⟨-, files, hmade, hrun⟩ := initStore_ok hinit
  have hgrown := initFile_grows { h with files } (storePath (root.child rid.text))
  rw [hrun] at hgrown
  obtain ⟨place, hplace⟩ := FileTree.place_child (proper_repository hroot rid)
    (by simp [Path.child]) (by decide) (by decide) (by decide +kernel)
    (Nat.not_lt.2 hshort) (FileTree.isDirectory_of_makeDirectory hmade)
  exact ⟨place, hgrown.place hplace⟩

variable (hplace : h'.files.place (storePath (root.child rid.text)) = .ok place)
include hplace

/-- A store is created in the file that its path leads to, with what was there before filled up, if
its address is read as it stands. -/
theorem created_of_literal
    (hliteral : Address.Literal (storePath (root.child rid.text)).text) :
    ∃ d, (h.files.entry? place = some (.database d) ∨ d = .blank) ∧
      h'.files.entry? place = some (.database (d.update d.store.initialised)) := by
  obtain ⟨-, files, hmade, hrun⟩ := initStore_ok hinit
  have hread := read_storePath_of_literal hroot rid hliteral
  -- an address that is too long is not connected to
  have hshort : Fits root rid := by
    obtain ⟨d, hok⟩ := connect_of_initFile hrun hread
    obtain hmemory | ⟨other, ⟨-, hshort, -⟩, -⟩ := FileTree.connect_ok hok
    · cases hmemory
    · exact Nat.not_lt.1 hshort
  have hleads := Address.leadsTo_normal hplace (Nat.not_lt.2 hshort)
  obtain ⟨d, hfound, hleft⟩ := initFile_ok hrun hread hleads
  refine ⟨d, hfound.imp_left fun hstored => ?_, hleft⟩
  refine FileTree.makeDirectory_database (p := root.child rid.text) ?_
  rw [hmade]
  exact hstored

/-- Where the store is created elsewhere, there is no database at the place that was not there. -/
theorem created_elsewhere (hdown : Text.of ".." ∉ root.parts)
    (hliteral : ¬ Address.Literal (storePath (root.child rid.text)).text) {d : Database}
    (hstored : h'.files.entry? place = some (.database d)) :
    h.files.entry? place = some (.database d) := by
  obtain ⟨-, files, hmade, hrun⟩ := initStore_ok hinit
  -- first the directory is made, then the database: the path leads to one place throughout
  have hgrown : files.Extends h'.files := by
    have hgrown := initFile_grows { h with files } (storePath (root.child rid.text))
    rwa [hrun] at hgrown
  have hplace' : files.place (storePath (root.child rid.text)) = .ok place :=
    FileTree.place_of_directories (fun q => (hgrown.directories q).symm) hplace
  -- the database is made at the address, which does not lead to this place
  have hkept : FileTree.entry? (({ h with files } : Host).initFile
      (storePath (root.child rid.text))).2.files place = files.entry? place :=
    initFile_elsewhere fun address hread =>
      not_leadsTo_storePath hroot rid hdown hplace' hliteral hread
  rw [hrun] at hkept
  refine FileTree.makeDirectory_database (p := root.child rid.text) ?_
  rw [hmade]
  exact hkept ▸ hstored

end Creating

/-! ## The file that is checked and the file that is opened -/

/-- Where the address of a store is read as it stands, opening the store finds the file whose
existence was checked, and creating it makes this file a store. Where a question mark or a percent
sign in the address is read otherwise, and no two dots lead back, opening and creating pass by the
file at the path. -/
theorem store_located (t : Text) (rid : Identifier) :
    let root := Path.parse t
    let file := storePath (root.child rid.text)
    (∀ h : Host, h.files.isFile file = .ok true →
      ∃ place, h.files.place file = .ok place ∧
        (Address.Literal file.text → Located root rid h place) ∧
        (¬ Address.Literal file.text → Text.of ".." ∉ root.parts → PassedBy root rid h place)) ∧
    ∀ (h h' : Host) (made : Path), h.initStore (root.child rid.text) = (.ok made, h') →
      made = file ∧ ((Utf8.encode file.text).length ≤ FileTree.pathLimit →
        ∃ place, h'.files.place file = .ok place ∧
          (Address.Literal file.text →
            ∃ d, (h.files.entry? place = some (.database d) ∨ d = .blank) ∧
              h'.files.entry? place = some (.database (d.update d.store.initialised))) ∧
          (¬ Address.Literal file.text → Text.of ".." ∉ root.parts →
            ∀ d, h'.files.entry? place = some (.database d) →
              h.files.entry? place = some (.database d))) := by
  intro root file
  have hroot : root.Proper := Path.proper_parse t
  constructor
  · -- opening: a file is at the path, and the address leads to it or elsewhere
    intro h hfile
    obtain ⟨place, hplace, hnot⟩ := FileTree.place_of_isFile hfile
    refine ⟨place, hplace, fun hliteral => located_of_literal hroot hfile hplace hliteral,
      fun hliteral hdown => passedBy_of_elsewhere hroot hfile (fun address hread => ?_) hnot⟩
    exact not_leadsTo_storePath hroot rid hdown hplace hliteral hread
  · -- creating: the path leads somewhere once its directory has been made
    intro h h' made hinit
    refine ⟨(initStore_ok hinit).1, fun hshort => ?_⟩
    obtain ⟨place, hplace⟩ := place_of_created hroot hinit hshort
    refine ⟨place, hplace, fun hliteral => ?_, ?_⟩
    · exact created_of_literal hroot hinit hplace hliteral
    · intro hliteral hdown d hstored
      exact created_elsewhere hroot hinit hplace hdown hliteral hstored

end RefSweep.Host

namespace RefSweep.Sample

/-- A host with a file that is no database where a store is looked for, under a root with a question
mark in it, and with a usable store in the file whose name ends before that. -/
def markedHost : Host where
  files := ⟨[(Path.parse "a?b", .directory), (Path.parse "a?b/repo", .directory),
    (Path.parse "a?b/repo/store.db", .file [0, 1]), (Path.parse "a", .database ⟨store, 0⟩)]⟩
  git := .missing
  refusals := []

end RefSweep.Sample

namespace RefSweep.Host

open Sample in
/-- Under a plain root the store is found. Under the other one a store is opened, and made sure of,
that is not in the file which was checked. -/
theorem store_located_marked :
    let plain := Path.parse "/home/storage"
    let marked := Path.parse "a?b"
    let file := storePath (marked.child repository.text)
    (∃ place, host.files.place (storePath (plain.child repository.text)) = .ok place ∧
        Located plain repository host place) ∧
      (openStore marked repository markedHost).result = .ok (handleOf marked repository) ∧
      (∃ place, markedHost.files.place file = .ok place ∧
        PassedBy marked repository markedHost place) ∧
      ∃ h', markedHost.initStore (marked.child repository.text) = (.ok file, h') ∧
        ∀ d, h'.files.entry? file ≠ some (.database d) := by
  intro plain marked file
  obtain ⟨hplain, -⟩ := store_located "/home/storage" repository
  obtain ⟨hopening, hcreating⟩ := store_located "a?b" repository
  -- the first root is taken literally, the second has a question mark in it
  have hliteral : Address.Literal (storePath (plain.child repository.text)).text :=
    ⟨by decide +kernel, by decide +kernel⟩
  have hmarked : ¬ Address.Literal file.text := fun h => h.whole (by decide +kernel)
  have hdown : Text.of ".." ∉ marked.parts := by decide +kernel
  have hthere : host.files.isFile (storePath (plain.child repository.text)) = .ok true := by
    decide +kernel
  have hfile : markedHost.files.isFile file = .ok true := by decide +kernel
  obtain ⟨place, hplace, hfound, -⟩ := hplain host hthere
  obtain ⟨other, hother, -, hpassed⟩ := hopening markedHost hfile
  -- the evaluation shows that opening succeeds, the theorem which handle it gives
  have hopen : (openStore marked repository markedHost).result =
      .ok (handleOf marked repository) := by
    have hopened : (openStore marked repository markedHost).result.isOk := by decide +kernel
    cases hresult : (openStore marked repository markedHost).result with
    | error f =>
      rw [hresult] at hopened
      cases hopened
    | ok handle => rw [((hpassed hmarked hdown).unused handle hresult).1]
  have hmade : (markedHost.initStore (marked.child repository.text)).1 = .ok file := by
    decide +kernel
  have hled : (markedHost.initStore (marked.child repository.text)).2.files.place file =
      .ok file := by decide +kernel
  -- the file at the path is no database before, so the theorem leaves none there afterwards
  have hbefore : markedHost.files.entry? file = some (.file [0, 1]) := by decide +kernel
  obtain ⟨-, hcreated⟩ := hcreating markedHost _ _ (Prod.ext hmade rfl)
  obtain ⟨_, hled', -, hnone⟩ := hcreated (by decide +kernel)
  obtain rfl := Except.ok.inj (hled.symm.trans hled')
  refine ⟨⟨place, hplace, hfound hliteral⟩, hopen, ⟨other, hother, hpassed hmarked hdown⟩, _,
    Prod.ext hmade rfl, fun d hd => ?_⟩
  cases hbefore.symm.trans (hnone hmarked hdown d hd)

end RefSweep.Host
