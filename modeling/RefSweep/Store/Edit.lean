import RefSweep.Store.Basic

/-!
# Edits of the tables

Changes to a store from outside its operations: rows added without any check, the lock taken by
another process, references guarded against deletion.
-/

namespace RefSweep.Store

def addRef (s : Store) (name target : Text) : Store :=
  { s with refs := s.refs.map (· ++ [⟨name, target⟩]) }

def addLink (s : Store) (source target : Text) : Store :=
  { s with links := s.links.map (· ++ [⟨source, target⟩]) }

/-- The store with another process holding its lock, or not. -/
def setLocked (s : Store) (locked : Bool) : Store := { s with locked }

/-- The store with a reference guarded against deletion. -/
def guard (s : Store) (name message : Text) : Store :=
  { s with guards := s.guards ++ [(name, message)] }

end RefSweep.Store
