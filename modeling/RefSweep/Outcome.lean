import RefSweep.Error

/-!
# Outcomes

What a run reports: one outcome per attempted deletion, the result of the compaction that ends the
run, and both together with the references that were selected.
-/

namespace RefSweep

/-- How one attempted deletion ended. -/
structure DeletionOutcome where
  name : RefName
  deleted : Bool
  error : Option Text
  retryable : Bool
  deriving DecidableEq, Repr

/-- What a compaction reclaimed; a field is none if the storage cannot measure it. -/
structure CompactionStats where
  objectsRemoved : Option Int
  bytesReclaimed : Option Int
  deriving DecidableEq, Repr

/-- How a compaction ended. -/
structure CompactionResult where
  ok : Bool
  stats : Option CompactionStats
  error : Option Text
  retryable : Bool
  deriving DecidableEq, Repr

/-- What a run did for one peer of one repository. A dry run has no outcomes and no compaction. -/
structure PruneResult where
  repository : Text
  peer : Text
  matched : List RefName
  outcomes : List DeletionOutcome
  compaction : Option CompactionResult
  deriving DecidableEq, Repr

namespace DeletionOutcome

/-- The reference is gone. -/
def success (name : RefName) : DeletionOutcome := ⟨name, true, none, false⟩

/-- The reference could not be deleted; a lock makes it worth another try. -/
def failure (name : RefName) (error : Error) : DeletionOutcome :=
  ⟨name, false, some error.message, error.isLocked⟩

end DeletionOutcome

namespace CompactionStats

/-- A measured number, or the word for none. -/
def countText : Option Int → Text
  | some n => Text.ofInt n
  | none => "None"

/-- The statistics as a log line shows them. -/
def text (s : CompactionStats) : Text :=
  "CompactionStats(objects_removed=" ++ countText s.objectsRemoved ++ ", bytes_reclaimed=" ++
    countText s.bytesReclaimed ++ ")"

end CompactionStats

namespace CompactionResult

/-- The store is compacted. -/
def success (stats : CompactionStats) : CompactionResult := ⟨true, some stats, none, false⟩

/-- The store could not be compacted; a lock makes it worth another try. -/
def failure (error : Error) : CompactionResult := ⟨false, none, some error.message, error.isLocked⟩

end CompactionResult

namespace PruneResult

/-- The names of the references that are gone, in the order of the attempts. -/
def deleted (r : PruneResult) : List RefName := (r.outcomes.filter (·.deleted)).map (·.name)

/-- The outcomes of the attempts that failed. -/
def failed (r : PruneResult) : List DeletionOutcome := r.outcomes.filter (!·.deleted)

/-- Every deletion succeeded, and so did the compaction if there was one. -/
def ok (r : PruneResult) : Bool := r.failed.isEmpty && r.compaction.all (·.ok)

end PruneResult

/-- The stages of a run, in order. -/
inductive Stage where
  | idle
  | enumerating
  | filtering
  | deleting
  | compacting
  | done
  deriving DecidableEq, Repr

namespace Stage

def all : List Stage := [idle, enumerating, filtering, deleting, compacting, done]

/-- The word for a stage in log lines. -/
def word : Stage → Text
  | idle => "idle"
  | enumerating => "enumerating"
  | filtering => "filtering"
  | deleting => "deleting"
  | compacting => "compacting"
  | done => "done"

end Stage

end RefSweep
