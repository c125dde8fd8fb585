import RefSweep.Error
import RefSweep.Path
import RefSweep.Store.Database
import RefSweep.Text.Utf8

/-!
# The file tree

Directories, files and database files. A path is followed part by part: two dots lead back, and
everything passed on the way has to be a directory. The working directory and the root are always
there; nothing is known of what lies above the working directory.

Names have a greatest length, which counts once a name is looked up in a directory, and so have
whole paths. A question about a path whose name is too long fails; to every other question there is
an answer.
-/

namespace RefSweep

/-- What stands at a place of the tree. A database file is known by its database. -/
inductive Entry where
  | directory
  | file (content : Bytes)
  | database (database : Database)
  deriving DecidableEq, Repr

/-- The entries by their places. A place is a path without two dots that names one entry. -/
structure FileTree where
  entries : List (Path × Entry)

namespace FileTree

def empty : FileTree := ⟨[]⟩

def entry? (t : FileTree) (place : Path) : Option Entry :=
  if place.parts = [] then some .directory else t.entries.lookup place

def hasDirectory (t : FileTree) (place : Path) : Bool :=
  match t.entry? place with
  | some .directory => true
  | _ => false

/-- The tree with an entry put at a place. -/
def put (t : FileTree) (place : Path) (e : Entry) : FileTree :=
  if t.entries.any (·.1 = place) then
    ⟨t.entries.map fun (p, old) => if p = place then (p, e) else (p, old)⟩
  else ⟨t.entries ++ [(place, e)]⟩

/-- The place above a place, if it is known. The root is above itself. -/
def above? (place : Path) : Option Path :=
  if place.parts = [] ∧ place.root = .workingDirectory then none
  else some ⟨place.root, place.parts.dropLast⟩

/-- The most bytes that a name may have. -/
def nameLimit : Nat := 255

/-- The most bytes that a path may have. -/
def pathLimit : Nat := 4095

/-- What is wrong with a place that should be a directory. -/
def noDirectory (t : FileTree) (place : Path) : PathProblem :=
  if (t.entry? place).isSome then .notDirectory else .missing

/-- The place that some parts lead to from a place, if all places on the way are directories. -/
def walk (t : FileTree) (place : Path) : List Text → Except PathProblem Path
  | [] => .ok place
  | part :: rest =>
    if t.hasDirectory place then
      if part = Text.of ".." then
        match above? place with
        | some up => walk t up rest
        | none => .error .missing
      else if nameLimit < (Utf8.encode part).length then .error .nameTooLong
      else walk t (place.child part) rest
    else .error (t.noDirectory place)

/-- Where a path starts. -/
def start (p : Path) : Path :=
  match p.root with
  | .workingDirectory => ⟨.workingDirectory, []⟩
  | _ => ⟨.slash, []⟩

/-- The place a path leads to. A path with a zero character leads nowhere. -/
def place (t : FileTree) (p : Path) : Except PathProblem Path :=
  if p.text.contains '\x00' then .error .missing
  else if pathLimit < (Utf8.encode p.text).length then .error .nameTooLong
  else t.walk (start p) p.parts

/-- What a path leads to. -/
def find (t : FileTree) (p : Path) : Except PathProblem Entry :=
  match t.place p with
  | .error problem => .error problem
  | .ok place =>
    match t.entry? place with
    | some entry => .ok entry
    | none => .error .missing

/-- The path leads to an entry of this kind, if that can be told. -/
def leadsTo (t : FileTree) (p : Path) (kind : Entry → Bool) : Except Foreign Bool :=
  match t.find p with
  | .ok entry => .ok (kind entry)
  | .error .nameTooLong => .error (.path .nameTooLong p.text)
  | .error _ => .ok false

def isDirectory (t : FileTree) (p : Path) : Except Foreign Bool :=
  t.leadsTo p fun
    | .directory => true
    | _ => false

def isFile (t : FileTree) (p : Path) : Except Foreign Bool :=
  t.leadsTo p fun
    | .directory => false
    | _ => true

def isThere (t : FileTree) (p : Path) : Except Foreign Bool := t.leadsTo p fun _ => true

/-- The text names a file. With a slash or a dot at its end it could only name a directory. -/
def namesFile (t : FileTree) (name : Text) : Except Foreign Bool :=
  if name.contains '\x00' then .error .embeddedNull
  else if name.endsWith ['/'] || name.endsWith (Text.of "/.") then .ok false
  else .ok ((t.isFile (Path.parse name)).toOption.getD false)

/-- The tree with one more directory. What the path names must not be there, what lies above it
must. -/
def makeOne (t : FileTree) (p : Path) : Except PathProblem FileTree :=
  match p.parts.getLast? with
  | none => .error .taken
  | some name =>
    if pathLimit < (Utf8.encode p.text).length then .error .nameTooLong
    else
      match t.walk (start p) p.parts.dropLast with
      | .error problem => .error problem
      | .ok place =>
        -- the directory above has to be there, and the name must be free and not too long
        if !t.hasDirectory place then .error (t.noDirectory place)
        else if name = Text.of ".." then .error .taken
        else if nameLimit < (Utf8.encode name).length then .error .nameTooLong
        else if (t.entry? (place.child name)).isSome then .error .taken
        else .ok (t.put (place.child name) .directory)

/-- Makes a directory unless it is there. -/
def makeLast (t : FileTree) (p : Path) : Except Foreign Unit × FileTree :=
  match t.makeOne p with
  | .ok t => (.ok (), t)
  | .error problem =>
    match t.isDirectory p with
    | .ok true => (.ok (), t)
    | .ok false => (.error (.path problem p.text), t)
    | .error e => (.error e, t)

/-- Makes a directory and what is missing above it. Directories made before a failure stay. -/
def make (t : FileTree) (p : Path) : Except Foreign Unit × FileTree :=
  match t.makeOne p with
  | .error .missing =>
    if _ : p.parts = [] then t.makeLast p
    else
      match make t ⟨p.root, p.parts.dropLast⟩ with
      | (.error e, t) => (.error e, t)
      | (.ok (), t) => t.makeLast p
  | _ => t.makeLast p
termination_by p.parts.length
decreasing_by
  have := List.length_pos_iff.2 ‹_›
  simp only [List.length_dropLast]
  omega

/-- Makes the directory that a path names and what is missing above it. -/
def makeDirectory (t : FileTree) (p : Path) : Except Foreign Unit × FileTree :=
  if p.text.contains '\x00' then (.error .embeddedNull, t) else t.make p

end FileTree

end RefSweep
