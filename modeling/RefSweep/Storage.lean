import RefSweep.Activity

/-!
# Storages

What a run needs of a storage: open a repository, list its references, delete one, compact, close. A
storage is a record of functions on its state `σ`; `η` is what stands for an open repository.
-/

namespace RefSweep

/-- A listing of references: those that came, in store order, and the failure that ended it early,
if one did. -/
structure Listing where
  references : List Reference
  failure : Option Failure

/-- The operations of one kind of storage. -/
structure Storage (σ η : Type) where
  openRepository : Path → Identifier → σ → Answer σ η
  references : η → σ → Listing × σ
  deleteReference : η → RefName → σ → Answer σ Unit
  compact : η → σ → Answer σ CompactionStats
  close : η → σ → Answer σ Unit

namespace Listing

/-- A listing that fails before its first reference. -/
def failed (f : Failure) : Listing := ⟨[], some f⟩

/-- All references, or the failure that ended the listing. -/
def all (l : Listing) : Except Failure (List Reference) :=
  match l.failure with
  | some f => .error f
  | none => .ok l.references

end Listing

end RefSweep
