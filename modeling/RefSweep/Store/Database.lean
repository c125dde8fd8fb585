import RefSweep.Store.Basic

/-!
# Databases

A database is a store as connections share it, with the number of changes that have been committed
to it. The number tells a connection that looks at an older state of the store that this state is
not the newest any more.
-/

namespace RefSweep

/-- A store, and how many changes have been committed to it. -/
structure Database where
  store : Store
  revision : Nat
  deriving DecidableEq, Repr

namespace Database

def blank : Database := ⟨.blank, 0⟩

/-- The database after a change that leaves this store. -/
def commit (d : Database) (s : Store) : Database := ⟨s, d.revision + 1⟩

/-- The database with this store; nothing is committed if it is the same. -/
def update (d : Database) (s : Store) : Database := if s = d.store then d else d.commit s

/-- The database with another process holding its lock, or not. -/
def setLocked (d : Database) (locked : Bool) : Database :=
  { d with store := { d.store with locked } }

/-- How long a connection waits for a lock that is asked to wait `n` milliseconds: not at all if the
number is out of range. -/
def lockWait (n : Int) : Int := if 0 ≤ n ∧ n ≤ 2147483647 then n else 0

end Database

end RefSweep
