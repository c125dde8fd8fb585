import RefSweep.Config
import RefSweep.FileTree
import RefSweep.Git.Process
import RefSweep.Namespace
import RefSweep.Storage

/-!
# The host

Where runs take place: a file tree with repositories and their stores, and git. A repository is the
directory of its identifier under the storage root. What the directory holds tells which kind of
storage it has: a store file makes it relational, a git layout a git repository.
-/

namespace RefSweep

/-- The host's files and tools. `refusals` plans what the database refuses, one entry for each store
operation to come; when none is left nothing more is refused. -/
structure Host where
  files : FileTree
  git : Git
  refusals : List Refusals

inductive StorageKind where
  | sqlite
  | git
  deriving DecidableEq, Repr

namespace StorageKind

def name : StorageKind → Text
  | sqlite => "sqlite"
  | git => "git"

def ofName? (t : Text) : Option StorageKind := [sqlite, git].find? (·.name = t)

end StorageKind

/-- An open repository. -/
structure Handle where
  kind : StorageKind
  rid : Identifier
  path : Path

/-- Where a repository keeps its store file. -/
def storePath (repository : Path) : Path := repository.child "store.db"

namespace FileTree

def locate (t : FileTree) (root : Path) (rid : Identifier) : Except Failure Path :=
  let path := root.child rid.text
  match t.isDirectory path with
  | .error e => .error e
  | .ok true => .ok path
  | .ok false => .error (Error.notFound rid.text path.text [])

/-- The directory is a git repository, bare or with a work tree. -/
def isGitRepository (t : FileTree) (path : Path) : Except Foreign Bool :=
  match t.isThere (path.child ".git") with
  | .ok false =>
    match t.isFile (path.child "HEAD") with
    | .ok true => t.isDirectory (path.child "objects")
    | other => other
  | other => other

/-- The kind of storage whose layout a directory has. A store file comes before a git layout. -/
def detect? (t : FileTree) (path : Path) : Except Foreign (Option StorageKind) :=
  match t.isFile (storePath path) with
  | .error e => .error e
  | .ok true => .ok (some .sqlite)
  | .ok false => (t.isGitRepository path).map fun git => if git then some .git else none

end FileTree

namespace BackendChoice

/-- The kind that is asked for by name. -/
def kind? : BackendChoice → Option StorageKind
  | auto => none
  | sqlite => some .sqlite
  | git => some .git

end BackendChoice

namespace Host

/-- The kind of storage for a repository, with the log lines of choosing it. -/
def select (h : Host) (root : Path) (choice : BackendChoice) (rid : Identifier) :
    Except Failure (StorageKind × List LogLine) :=
  match h.files.locate root rid with
  | .error f => .error f
  | .ok path =>
    -- a kind that was asked for by name is not looked for
    match choice.kind? with
    | some kind => .ok (kind, [])
    | none =>
      match h.files.detect? path with
      | .error e => .error e
      | .ok (some kind) =>
        .ok (kind, [⟨.debug, "Detected " ++ kind.name ++ " storage at " ++ path.text⟩])
      | .ok none =>
        .error (Error.notFound rid.text path.text "no reference store or git repository")

/-- The plan for the next store operation. -/
def nextRefusals (h : Host) : Refusals × Host :=
  (h.refusals.headD Refusals.none, { h with refusals := h.refusals.tail })

/-- Runs git in a directory. Neither the directory nor an argument can hold a zero character; where
there is no such directory the tool counts as missing. -/
def runGit (h : Host) (directory : Path) (arguments : List Text) : Except Failure Finished × Host :=
  if (directory.text :: arguments).any (·.contains '\x00') then (.error Foreign.embeddedNull, h)
  else
    match h.files.find directory with
    | .ok .directory =>
      let (result, git) := h.git.run directory arguments
      (result, { h with git })
    | .ok _ => (.error (Foreign.startDirectory .notDirectory directory.text), h)
    | .error .missing => (.error Git.notFound, h)
    | .error problem => (.error (Foreign.startDirectory problem directory.text), h)

end Host

end RefSweep
