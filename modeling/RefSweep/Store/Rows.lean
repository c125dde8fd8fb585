import RefSweep.RefName
import RefSweep.Storage
import RefSweep.Store.Basic

/-!
# Rows

What the operations do to the rows of a store, and which rows the database refuses: a link that is
already there, a reference without its object, the deletion of a guarded reference.
-/

namespace RefSweep.Store

/-- The references of the rows, up to the first name that is none. -/
def parseRows : List RefRow → Listing
  | [] => ⟨[], none⟩
  | row :: rest =>
    match RefName.parse row.name with
    | .error fault => .failed (Error.unreadable (.corruptName row.name fault))
    | .ok name =>
      let tail := parseRows rest
      ⟨⟨name, row.target⟩ :: tail.references, tail.failure⟩

/-- The refusal of a link that is already there. -/
def linkRefusal? (s : Store) (link : LinkRow) : Option DbError :=
  if s.linkRows.contains link then some .duplicateLink else none

/-- The store with a new object and its links added. -/
def withObject (s : Store) (row : ObjectRow) (targets : List Text) : Store :=
  { s with
    objects := s.objects.map (· ++ [row])
    links := s.links.map (· ++ targets.map (⟨row.key, ·⟩)) }

/-- The store with a reference moved, or added at the end. -/
def withRef (s : Store) (name target : Text) : Store :=
  { s with refs := s.refs.map fun rows =>
      if rows.any (·.name = name) then
        rows.map fun row => if row.name = name then ⟨name, target⟩ else row
      else rows ++ [⟨name, target⟩] }

def withoutRef (s : Store) (name : Text) : Store :=
  { s with refs := s.refs.map (·.filter (·.name ≠ name)) }

/-- The refusal of a reference to this object. -/
def targetRefusal? (s : Store) (target : Text) : Option DbError :=
  if s.holds target then none else some .foreignKey

/-- The refusal of deleting a reference that is guarded. -/
def guardRefusal? (s : Store) (name : Text) : Option DbError :=
  if (s.refRow? name).isSome then (s.guards.lookup name).map (⟨.integrity, ·⟩) else none

end RefSweep.Store
