import RefSweep.Host.Basic
import RefSweep.Git.Count
import RefSweep.Git.Lock

/-!
# Git repositories

The git kind of storage. References are listed with `for-each-ref`, deleted one by one with
`update-ref` after a query for the exact name, and `gc` compacts. A failed command counts as lock
contention if its message speaks of a lock.
-/

namespace RefSweep

namespace Git

/-- The references of a listing: on each line a target, a space and a name. Empty lines are skipped,
and the first name that is none ends the listing. -/
def parseListing : List Text → Listing
  | [] => ⟨[], none⟩
  | line :: rest =>
    if line = [] then parseListing rest
    else
      let (target, name) := line.cut ' '
      match RefName.parse name with
      | .error fault => .failed (Error.unreadable (.unexpectedName name fault))
      | .ok parsed =>
        let tail := parseListing rest
        ⟨⟨parsed, target⟩ :: tail.references, tail.failure⟩

/-- The error of a deletion that the tool refused. -/
def deletionError (name : Text) (finished : Finished) : Error :=
  let stderr := finished.err.strip
  if isLockMessage stderr then .locked "delete" stderr
  else .undeletable name (if stderr = [] then .exitStatus finished.code else .said stderr)

/-- The error of a collection that the tool refused. -/
def collectionError (finished : Finished) : Error :=
  let stderr := finished.err.strip
  if isLockMessage stderr then .locked "compact" stderr
  else .uncompacted (.collectionFailed stderr finished.code)

/-- The query whose output has to hold the name as a whole line. -/
def existenceQuery (name : Text) : List Text := ["for-each-ref", "--format=%(refname)", name]

/-- The command that deletes a reference itself, not what it may point at. -/
def deletion (name : Text) : List Text := ["update-ref", "--no-deref", "-d", name]

def enumeration : List Text := ["for-each-ref", "--format=%(objectname) %(refname)"]

def countQuery : List Text := ["count-objects", "-v"]

/-- The command that collects garbage, with the age from which it removes objects if one is set. -/
def collection (expiry : Option Text) : List Text :=
  [Text.of "gc", Text.of "--quiet"] ++ (expiry.map fun e : Text => "--prune=" ++ e).toList

end Git

namespace Host

/-- The object counts of a repository; none if the query fails. -/
def gitCounts (h : Host) (path : Path) : Except Failure Counts × Host :=
  match h.runGit path Git.countQuery with
  | (.error f, h) => (.error f, h)
  | (.ok finished, h) => (.ok (if finished.code = 0 then Counts.parse finished.out else []), h)

def openGit (root : Path) (rid : Identifier) (h : Host) : Answer Host Handle :=
  match h.files.locate root rid with
  | .error f => ⟨.error f, h, []⟩
  | .ok path =>
    match h.files.isGitRepository path with
    | .error e => ⟨.error e, h, []⟩
    | .ok false => ⟨.error (Error.notFound rid.text path.text "not a git repository"), h, []⟩
    | .ok true =>
      match h.runGit path ["rev-parse", "--git-dir"] with
      | (.error f, h) => ⟨.error f, h, []⟩
      | (.ok finished, h) =>
        if finished.code = 0 then ⟨.ok ⟨.git, rid, path⟩, h, []⟩
        else ⟨.error (Error.notFound rid.text path.text finished.err.strip), h, []⟩

def gitReferences (handle : Handle) (h : Host) : Listing × Host :=
  match h.runGit handle.path Git.enumeration with
  | (.error f, h) => (.failed f, h)
  | (.ok finished, h) =>
    if finished.code = 0 then (Git.parseListing finished.out.lines, h)
    else
      let stderr := finished.err.strip
      (.failed (Error.unreadable (.listingFailed stderr (Git.isLockMessage stderr))), h)

/-- Deletes a reference, if the repository has exactly this one. -/
def gitDelete (handle : Handle) (name : RefName) (h : Host) : Answer Host Unit :=
  let name := name.text
  match h.runGit handle.path (Git.existenceQuery name) with
  | (.error f, h) => ⟨.error f, h, []⟩
  | (.ok found, h) =>
    if found.code = 0 ∧ name ∈ found.out.lines then
      match h.runGit handle.path (Git.deletion name) with
      | (.error f, h) => ⟨.error f, h, []⟩
      | (.ok finished, h) =>
        if finished.code = 0 then ⟨.ok (), h, []⟩
        else ⟨.error (Git.deletionError name finished), h, []⟩
    else ⟨.error (Error.undeletable name .absent), h, []⟩

/-- Collects garbage and compares the counts before and after. -/
def gitCompact (expiry : Option Text) (handle : Handle) (h : Host) : Answer Host CompactionStats :=
  match h.gitCounts handle.path with
  | (.error f, h) => ⟨.error f, h, []⟩
  | (.ok before, h) =>
    match h.runGit handle.path (Git.collection expiry) with
    | (.error f, h) => ⟨.error f, h, []⟩
    | (.ok finished, h) =>
      -- what is left over is counted only once the collection has succeeded
      if finished.code = 0 then
        let said := finished.err.strip
        let log := if said = [] then [] else [⟨.debug, "git gc: " ++ said⟩]
        match h.gitCounts handle.path with
        | (.error f, h) => ⟨.error f, h, log⟩
        | (.ok after, h) => ⟨.ok (Counts.reclaimed before after), h, log⟩
      else ⟨.error (Git.collectionError finished), h, []⟩

/-- Git storage, which removes objects of at least the given age if one is set. -/
def gitStorage (expiry : Option Text) : Storage Host Handle where
  openRepository := openGit
  references handle h := h.gitReferences handle
  deleteReference := gitDelete
  compact := gitCompact expiry
  close _ h := ⟨.ok (), h, []⟩

end Host

end RefSweep
