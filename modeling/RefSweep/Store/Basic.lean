import RefSweep.Error
import RefSweep.Text.Space

/-!
# Reference stores

A store keeps references, objects and the links between objects as rows of tables, beside a table of
metadata with the version of the schema. Every table may be missing: an empty database has none.
Another process may hold the lock that writing needs, and the database may guard single references
against deletion.

`Statement` names the steps of the operations at which the database can refuse; `Refusals` is a plan
of such refusals.
-/

namespace RefSweep

/-- A stored object under its key. -/
structure ObjectRow where
  key : Text
  kind : Text
  payload : Bytes
  deriving DecidableEq, Repr

structure LinkRow where
  source : Text
  target : Text
  deriving DecidableEq, Repr

/-- A reference by the text of its name. -/
structure RefRow where
  name : Text
  target : Text
  deriving DecidableEq, Repr

structure MetaRow where
  key : Text
  value : Text
  deriving DecidableEq, Repr

/-- The rows of the table of metadata, whose key is the table's primary key. -/
structure Metadata where
  rows : List MetaRow
  keyed : (rows.map (·.key)).Nodup
  deriving DecidableEq, Repr

namespace Metadata

def empty : Metadata := ⟨[], List.nodup_nil⟩

/-- The rows with this value under the key, and with none if there is no value. -/
def record (m : Metadata) (key : Text) (value : Option Text) : Metadata where
  rows := m.rows.filter (·.key ≠ key) ++ (value.map fun v => ⟨key, v⟩).toList
  keyed := by
    have hothers : ((m.rows.filter (·.key ≠ key)).map (·.key)).Nodup :=
      m.keyed.sublist (List.filter_sublist.map _)
    cases value with
    | none => simpa using hothers
    | some v =>
      have hnew : key ∉ (m.rows.filter (·.key ≠ key)).map (·.key) := by simp
      rw [List.map_append, List.nodup_append]
      refine ⟨hothers, by simp, fun k hk k' hk' heq => hnew ?_⟩
      obtain rfl : k' = key := by simpa using hk'
      exact heq ▸ hk

end Metadata

inductive Table where
  | metadata
  | links
  | objects
  | refs
  deriving DecidableEq, Repr

namespace Table

/-- All tables in the order of their names. -/
def all : List Table := [metadata, links, objects, refs]

def name : Table → Text
  | metadata => "_store_meta"
  | links => "object_links"
  | objects => "objects"
  | refs => "refs"

/-- The names of a table's columns, sorted. -/
def columns : Table → List Text
  | metadata => ["key", "value"]
  | links => ["source_hash", "target_hash"]
  | objects => ["kind", "object_hash", "payload"]
  | refs => ["ref_name", "target_hash"]

end Table

/-- A reference store. Rows stand in the order in which they were added. -/
structure Store where
  metadata : Option Metadata
  links : Option (List LinkRow)
  objects : Option (List ObjectRow)
  refs : Option (List RefRow)
  /-- Another process holds the lock that writing needs. -/
  locked : Bool
  /-- References that the database refuses to delete, with the text of the refusal. -/
  guards : List (Text × Text)
  deriving DecidableEq, Repr

namespace Store

def blank : Store := ⟨none, none, none, none, false, []⟩

def has (s : Store) : Table → Bool
  | .metadata => s.metadata.isSome
  | .links => s.links.isSome
  | .objects => s.objects.isSome
  | .refs => s.refs.isSome

def tables (s : Store) : List Table := Table.all.filter s.has

/-- The store without a table and its rows. -/
def drop (s : Store) : Table → Store
  | .metadata => { s with metadata := none }
  | .links => { s with links := none }
  | .objects => { s with objects := none }
  | .refs => { s with refs := none, guards := [] }

/-- The metadata; none if the table is missing. -/
def metadataRows (s : Store) : List MetaRow := (s.metadata.map (·.rows)).getD []

/-- The links; none if the table is missing. -/
def linkRows (s : Store) : List LinkRow := s.links.getD []

/-- The objects; none if the table is missing. -/
def objectRows (s : Store) : List ObjectRow := s.objects.getD []

/-- The references; none if the table is missing. -/
def refRows (s : Store) : List RefRow := s.refs.getD []

def keys (s : Store) : List Text := s.objectRows.map (·.key)

/-- An object with this key is stored. -/
def holds (s : Store) (key : Text) : Bool := s.objectRows.any (·.key == key)

def refRow? (s : Store) (name : Text) : Option RefRow := s.refRows.find? (·.name == name)

/-- The number of bytes that the rows hold. -/
def footprint (s : Store) : Nat :=
  s.objectRows.foldr (fun o n => o.key.length + o.kind.length + o.payload.length + n) 0 +
    s.linkRows.foldr (fun l n => l.source.length + l.target.length + n) 0 +
    s.refRows.foldr (fun r n => r.name.length + r.target.length + n) 0

end Store

/-- A step of a store operation that the database can refuse. A compaction reads three tables,
deletes in chunks, commits, and then rebuilds the file and empties its log. -/
inductive Statement where
  | readReferences
  | readReference
  | readObject
  | countObjects
  | deleteReference
  | readObjects
  | readLinks
  | readTargets
  | deleteLinks (chunk : Nat)
  | deleteObjects (chunk : Nat)
  | commit
  | rebuild
  | emptyLog
  deriving DecidableEq, Repr

namespace Statement

/-- The place of a statement among those of its operation's session, from 0. What comes after the
deletions is not counted. -/
def place? : Statement → Option Nat
  | readReferences | readReference | readObject | countObjects => some 0
  | deleteReference | readObjects => some 0
  | readLinks => some 1
  | readTargets => some 2
  | deleteLinks chunk => some (3 + 2 * chunk)
  | deleteObjects chunk => some (4 + 2 * chunk)
  | commit | rebuild | emptyLog => none

end Statement

/-- Which statements of an operation the database refuses beyond what the store itself makes it
refuse. Such a refusal is raised by executing the statement itself, so it comes before anything that
the session has to say, also before what a suspended session answers. -/
abbrev Refusals := Statement → Option DbError

namespace Refusals

def none : Refusals := fun _ => .none

/-- Refuses the statement at one place. -/
def one (place : Nat) (error : DbError) : Refusals := fun statement =>
  if statement.place? = some place then some error else .none

end Refusals

namespace DbError

/-- The refusal of a statement while another process holds the lock. -/
def databaseLocked : DbError := ⟨.operational, "database is locked"⟩

/-- The refusal of a statement on a table that is missing. -/
def noTable (name : Text) : DbError := ⟨.operational, "no such table: " ++ name⟩

/-- The refusal of a row that would leave a reference without its object. -/
def foreignKey : DbError := ⟨.integrity, "FOREIGN KEY constraint failed"⟩

/-- The refusal of a link that is already there. -/
def duplicateLink : DbError :=
  ⟨.integrity, "UNIQUE constraint failed: object_links.source_hash, object_links.target_hash"⟩

/-- The text says that another connection holds a lock. -/
def speaksOfLock (text : Text) : Bool :=
  let text := text.map Glyph.lower
  Text.includes (Text.of "locked") text || Text.includes (Text.of "busy") text

/-- The error is a lock's, and not the fault of the statement. -/
def isLock (e : DbError) : Bool := e.kind = .operational && speaksOfLock e.text

end DbError

namespace Store

/-- The refusal of a statement on this table, if the table is missing. -/
def missing? (s : Store) (table : Table) : Option DbError :=
  if s.has table then none else some (.noTable table.name)

/-- The refusal of a statement that writes, if another process holds the lock. -/
def lock? (s : Store) : Option DbError := if s.locked then some .databaseLocked else none

end Store

end RefSweep
