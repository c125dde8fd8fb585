import RefSweep.Config
import RefSweep.Namespace
import RefSweep.Retry
import RefSweep.Storage

/-!
# Pruning a namespace

A run opens a repository, lists its references, selects those of one peer, tries to delete each of
them, and compacts the store once. Bad identifiers, a missing repository and an unreadable store end
the run before any deletion. From then on the library's own errors are recorded: a failed deletion
stops neither the others nor the compaction, and a failed compaction takes nothing back. The
repository is closed on every path.

The caller may watch the outcomes as they come, and may end the run by failing.
-/

namespace RefSweep

/-- What the caller does with the outcomes so far, the newest last: it may fail. -/
abbrev Observer := List DeletionOutcome → Option Failure

variable {σ η : Type}

namespace Activity

/-- Hands a new outcome to the observer, if there is one. -/
def report (observer : Option Observer) (seen : List DeletionOutcome) (outcome : DeletionOutcome) :
    Activity σ Unit :=
  match observer with
  | none => pure ()
  | some watch => do
    note (.reported outcome)
    match watch (seen ++ [outcome]) with
    | none => pure ()
    | some f => fail f

/-- Logs the step from one stage of a run to the next. -/
def advance (rid : Identifier) (stage next : Stage) : Activity σ Unit :=
  log .debug (rid.text ++ ": " ++ stage.word ++ " -> " ++ next.word)

/-- The body of a stage: its failure with one of the library's own errors is noted. -/
def during (rid : Identifier) (stage : Stage) {α : Type} (a : Activity σ α) : Activity σ α :=
  a.noting (rid.text ++ ": aborted while " ++ stage.word)

end Activity

open Activity

/-- Attempts one deletion and turns its ending into an outcome. Only a failure from outside the
library is passed on. -/
def attemptDeletion (storage : Storage σ η) (handle : η) (retry : Option RetryPolicy)
    (reference : Reference) : Activity σ DeletionOutcome := do
  let name := reference.name
  match ← (retrying retry (call (.deleted name) (storage.deleteReference handle name))).attempt with
  | .ok _ =>
    log .info ("Deleted " ++ name.text ++ " (was " ++ reference.target ++ ")")
    pure (.success name)
  | .error (.error e) =>
    let problem := if e.isLocked then Text.of "Lock contention deleting " else "Failed to delete "
    log .warning (problem ++ name.text ++ ": " ++ e.message)
    pure (.failure name e)
  | .error (.foreign cause) => fail (.foreign cause)

/-- Attempts the deletions in order and gives all outcomes, those already `seen` first. -/
def deleteEach (storage : Storage σ η) (handle : η) (retry : Option RetryPolicy)
    (observer : Option Observer) (seen : List DeletionOutcome) :
    List Reference → Activity σ (List DeletionOutcome)
  | [] => pure seen
  | reference :: rest => do
    let outcome ← attemptDeletion storage handle retry reference
    report observer seen outcome
    deleteEach storage handle retry observer (seen ++ [outcome]) rest

/-- Deletes the references of a listing in order. If the listing ended early, its failure comes
after the last deletion. -/
def pruneReferences (storage : Storage σ η) (handle : η) (retry : Option RetryPolicy)
    (observer : Option Observer) (listing : Listing) : Activity σ (List DeletionOutcome) := do
  let outcomes ← deleteEach storage handle retry observer [] listing.references
  match listing.failure with
  | none => pure outcomes
  | some f => fail f

/-- Compacts the store once, under the retry policy, and records how that ended. -/
def compactRepository (storage : Storage σ η) (handle : η) (retry : Option RetryPolicy) :
    Activity σ CompactionResult := do
  match ← (retrying retry (call .compacted (storage.compact handle))).attempt with
  | .ok stats =>
    log .info ("Compaction finished in 0.000s: " ++ stats.text)
    pure (.success stats)
  | .error (.error e) =>
    let problem :=
      if e.isLocked then Text.of "Lock contention during compaction: " else "Compaction failed: "
    log .warning (problem ++ e.message)
    pure (.failure e)
  | .error (.foreign cause) => fail (.foreign cause)

/-- The references of an open repository. -/
def listReferences (storage : Storage σ η) (handle : η) : Activity σ (List Reference) :=
  call .listed fun s =>
    let (listing, s) := storage.references handle s
    ⟨listing.all, s, []⟩

/-- The part of a run for which the repository is open. -/
def pruneOpened (storage : Storage σ η) (handle : η) (config : Config) (rid : Identifier)
    (peer : Peer) (observer : Option Observer) : Activity σ PruneResult := do
  advance rid .idle .enumerating
  advance rid .enumerating .filtering
  let references ← during rid .filtering (listReferences storage handle)
  let matched := peer.owned references
  let names := matched.map (·.name)
  log .info
    (Text.ofNat matched.length ++ " reference(s) in " ++ rid.text ++ " match " ++ peer.pattern)
  -- a dry run stops after the listing: nothing has been deleted and nothing is compacted
  if config.dryRun then
    advance rid .filtering .done
    pure ⟨rid.text, peer.id.text, names, [], none⟩
  else
    -- one policy serves the deletions and the compaction
    let retry := some ⟨config.attempts, config.waitMax⟩
    advance rid .filtering .deleting
    let outcomes ← during rid .deleting
      (pruneReferences storage handle retry observer ⟨matched, none⟩)
    advance rid .deleting .compacting
    let compaction ← during rid .compacting (compactRepository storage handle retry)
    advance rid .compacting .done
    pure ⟨rid.text, peer.id.text, names, outcomes, some compaction⟩

/-- Removes the references of a peer from a repository. The identifiers are checked first; then
`pick` chooses the storage. -/
def pruneNamespace (pick : Identifier → σ → Answer σ (Storage σ η)) (config : Config)
    (rid peer : Text) (observer : Option Observer) : Activity σ PruneResult := do
  let rid ← ofExcept (parseRepository rid)
  let peer ← ofExcept (Peer.parse peer)
  let storage ← answer (pick rid)
  let root := config.storageRoot
  let handle ← call (.opened root rid.text) (storage.openRepository root rid)
  (pruneOpened storage handle config rid peer observer).closing
    (call .closed (storage.close handle))

end RefSweep
