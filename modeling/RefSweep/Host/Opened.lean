import RefSweep.Host.Database
import RefSweep.Host.GitRepository

/-!
# Open repositories

A repository that a caller keeps open, with the storage it is used through and the state of its
session. The operations give their result, the repository after them, and the host.
-/

namespace RefSweep

/-- An open repository in use. -/
structure Opened where
  storage : StorageKind
  /-- The age from which git storage removes objects. -/
  expiry : Option Text
  handle : Handle
  session : Session

namespace Opened

variable {α : Type}

/-- The same repository used through storage of the given kind. -/
def through (o : Opened) (kind : StorageKind) : Opened :=
  if o.storage = kind then o else { o with storage := kind, expiry := none }

def openAs (kind : StorageKind) (expiry : Option Text) (root : Path) (rid : Identifier) (h : Host) :
    Answer Host Opened :=
  let answer := match kind with
    | .sqlite => Host.openStore root rid h
    | .git => Host.openGit root rid h
  ⟨answer.result.map fun handle => ⟨kind, expiry, handle, .justOpened⟩, answer.state, answer.log⟩

/-- Does an operation on the repository's store. -/
def onStore (o : Opened) (h : Host) (operation : Refusals → Session → Database → Step α) :
    Except Failure α × Opened × Host :=
  let (result, session, h) := h.onStore o.handle o.session operation
  (result, { o with session }, h)

def list (o : Opened) (h : Host) : Listing × Opened × Host :=
  match o.storage with
  | .sqlite =>
    let (listing, session, h) := h.storedReferences o.handle o.session
    (listing, { o with session }, h)
  | .git =>
    let (listing, h) := h.gitReferences o.handle
    (listing, o, h)

def lookup (o : Opened) (h : Host) (name : Text) : Except Failure (Option Text) × Opened × Host :=
  o.onStore h fun refusals session d => session.lookup refusals d name

def countObjects (o : Opened) (h : Host) : Except Failure Nat × Opened × Host :=
  o.onStore h fun refusals session d => session.countObjects refusals d

def write (o : Opened) (h : Host) (kind : Text) (payload : Bytes) (links : List Text) :
    Except Failure Text × Opened × Host :=
  o.onStore h fun refusals session d => session.writeObject refusals d kind payload links

/-- Creates a reference or moves it. -/
def update (o : Opened) (h : Host) (name target : Text) : Except Failure Unit × Opened × Host :=
  o.onStore h fun refusals session d => session.updateReference refusals d name target

def delete (o : Opened) (h : Host) (name : RefName) : Except Failure Unit × Opened × Host :=
  match o.storage with
  | .sqlite => o.onStore h fun refusals session d => session.deleteReference refusals d name.text
  | .git =>
    let answer := h.gitDelete o.handle name
    (answer.result, o, answer.state)

def compact (o : Opened) (h : Host) : Except Failure CompactionStats × Opened × Host :=
  match o.storage with
  | .sqlite => o.onStore h fun refusals session d => session.compact refusals d
  | .git =>
    let answer := h.gitCompact o.expiry o.handle
    (answer.result, o, answer.state)

/-- Closes the repository. A closed one can be used again, with a fresh session. -/
def close (o : Opened) : Except Failure Unit × Opened :=
  match o.storage, o.handle.kind with
  | .sqlite, .git => (.error Foreign.wrongHandle, o)
  | .sqlite, .sqlite => (.ok (), { o with session := .fresh })
  | .git, _ => (.ok (), o)

end Opened

end RefSweep
