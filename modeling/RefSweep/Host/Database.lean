import RefSweep.Host.Address
import RefSweep.Host.Basic
import RefSweep.Store.Operations
import RefSweep.Store.Schema

/-!
# Stores in files

Connecting to a store file, and the relational kind of storage. Connecting to an address without a
file makes an empty database there.
-/

namespace RefSweep

namespace FileTree

/-- The database cannot be opened. -/
def cannotOpen : DbError := ⟨.operational, "unable to open database file"⟩

/-- The most bytes that the path of a database may have. -/
def databasePathLimit : Nat := 487

/-- The database in the file that a path leads to, and the tree after opening it. A file of at most
one byte is an empty database, any other one is none. -/
def openFile (t : FileTree) (p : Path) : Except DbError Database × FileTree :=
  match t.place p with
  | .error _ => (.error cannotOpen, t)
  | .ok place =>
    match t.entry? place with
    | none =>
      -- opening makes the file, but no directory
      if t.hasDirectory ⟨place.root, place.parts.dropLast⟩ then
        (.ok .blank, t.put place (.database .blank))
      else (.error cannotOpen, t)
    | some .directory => (.error cannotOpen, t)
    | some (.database d) => (.ok d, t)
    | some (.file content) =>
      -- an empty file is taken for a database that has nothing in it yet
      if content.length ≤ 1 then (.ok .blank, t)
      else (.error ⟨.database, "file is not a database"⟩, t)

/-- The tree with the database replaced in the file that a path leads to. -/
def saveFile (t : FileTree) (p : Path) (d : Database) : FileTree :=
  match t.place p with
  | .ok place => t.put place (.database d)
  | .error _ => t

/-- The database at an address, and the tree after connecting to it. One in memory is new each
time. -/
def connect (t : FileTree) : Address → Except Foreign Database × FileTree
  | .memory => (.ok .blank, t)
  | .file path =>
    if path.text.contains '\x00' then (.error .embeddedNull, t)
    else if databasePathLimit < (Utf8.encode path.text).length then
      (.error (.database cannotOpen), t)
    else
      match t.openFile path with
      | (.ok d, t) => (.ok d, t)
      | (.error e, t) => (.error (.database e), t)

/-- The tree with the database at an address replaced. -/
def save (t : FileTree) (d : Database) : Address → FileTree
  | .memory => t
  | .file path => t.saveFile path d

end FileTree

namespace Host

/-- The failure of reading a schema. What the database says is an error of the store. -/
def schemaRefused : Foreign → Failure
  | .database e => Error.unreadable (.storeRefused e.kind e.text (DbError.speaksOfLock e.text))
  | other => other

/-- Reads the schema of a store file. Options that make no sense come before a refusal of the
inspection, and this before anything else. -/
def checkStore (h : Host) (file : Path) (refusal : Option DbError) : Except Failure Text × Host :=
  match Address.read file.text, refusal with
  | .error fault, _ => (.error (Foreign.address fault), h)
  | .ok _, some e => (.error (schemaRefused (.database e)), h)
  | .ok address, none =>
    match h.files.connect address with
    | (.error e, files) => (.error (schemaRefused e), { h with files })
    | (.ok d, files) =>
      match d.store.checkSchema with
      | .error fault => (.error (Error.unreadable fault), { h with files })
      | .ok version => (.ok version, { h with files })

/-- Makes sure that the file of a store holds an initialised one. -/
def initFile (h : Host) (file : Path) : Except Failure Unit × Host :=
  match Address.read file.text with
  | .error fault => (.error (Foreign.address fault), h)
  | .ok address =>
    match h.files.connect address with
    | (.error e, files) => (.error e, { h with files })
    | (.ok d, files) =>
      let initialised := d.update d.store.initialised
      if initialised = d then (.ok (), { h with files })
      else
        match d.store.lock? with
        | some e => (.error (Foreign.database e), { h with files })
        | none => (.ok (), { h with files := files.save initialised address })

/-- Makes the directory of a repository and an initialised store in it, and gives its path. -/
def initStore (h : Host) (repository : Path) : Except Failure Path × Host :=
  match h.files.makeDirectory repository with
  | (.error e, files) => (.error e, { h with files })
  | (.ok (), files) =>
    let (result, h) := { h with files }.initFile (storePath repository)
    (result.map fun () => storePath repository, h)

/-- Does an operation on the database in a store file. -/
def onFile {α : Type} (h : Host) (file : Path) (session : Session)
    (operation : Refusals → Session → Database → Step α) : Except Failure α × Session × Host :=
  match Address.read file.text with
  | .error fault => (.error (Foreign.address fault), session, h)
  | .ok address =>
    let (refusals, h) := h.nextRefusals
    match h.files.connect address with
    | (.error e, files) => (.error e, session, { h with files })
    | (.ok d, files) =>
      let step := operation refusals session d
      (step.result, step.session, { h with files := files.save step.database address })

/-- Does an operation on the store of an open repository. -/
def onStore {α : Type} (h : Host) (handle : Handle) (session : Session)
    (operation : Refusals → Session → Database → Step α) : Except Failure α × Session × Host :=
  match handle.kind with
  | .git => (.error Foreign.wrongHandle, session, h)
  | .sqlite => h.onFile (storePath handle.path) session operation

/-- The references of an open repository's store, and the session after listing them. -/
def storedReferences (h : Host) (handle : Handle) (session : Session) : Listing × Session × Host :=
  let (result, session, h) := h.onStore handle session fun refusals session d =>
    let (listing, session) := session.listing refusals d
    .ok session d listing
  match result with
  | .ok listing => (listing, session, h)
  | .error f => (.failed f, session, h)

/-- The answer of a storage that keeps a fresh session from one operation to the next. -/
def answerOnStore {α : Type} (handle : Handle)
    (operation : Refusals → Session → Database → Step α) (h : Host) : Answer Host α :=
  let (result, _, h) := h.onStore handle .fresh operation
  ⟨result, h, []⟩

/-- Opens the relational store of a repository. -/
def openStore (root : Path) (rid : Identifier) (h : Host) : Answer Host Handle :=
  match h.files.locate root rid with
  | .error f => ⟨.error f, h, []⟩
  | .ok path =>
    let file := storePath path
    match h.files.isFile file with
    | .error e => ⟨.error e, h, []⟩
    | .ok false => ⟨.error (Error.notFound rid.text path.text "no reference store"), h, []⟩
    | .ok true =>
      match h.checkStore file none with
      | (.error f, h) => ⟨.error f, h, []⟩
      | (.ok _, h) =>
        ⟨.ok ⟨.sqlite, rid, path⟩, h, [⟨.debug, "Opened sqlite store " ++ file.text⟩]⟩

def sqliteStorage : Storage Host Handle where
  openRepository := openStore
  references handle h :=
    let (listing, _, h) := h.storedReferences handle .fresh
    (listing, h)
  deleteReference handle name :=
    answerOnStore handle fun refusals session d => session.deleteReference refusals d name.text
  compact handle := answerOnStore handle fun refusals session d => session.compact refusals d
  close handle h :=
    match handle.kind with
    | .sqlite => ⟨.ok (), h, []⟩
    | .git => ⟨.error Foreign.wrongHandle, h, []⟩

end Host

end RefSweep
