import RefSweep.Host.Database
import RefSweep.Host.GitRepository
import RefSweep.Prune

/-!
# Runs on a host

A run on a host takes the storage that the configuration names, or the one whose layout the
repository has.
-/

namespace RefSweep.Host

def storageOf : StorageKind → Storage Host Handle
  | .sqlite => sqliteStorage
  | .git => gitStorage none

/-- The storage for a repository. -/
def pick (config : Config) (rid : Identifier) (h : Host) : Answer Host (Storage Host Handle) :=
  match h.select config.storageRoot config.backend rid with
  | .error f => ⟨.error f, h, []⟩
  | .ok (kind, log) => ⟨.ok (storageOf kind), h, log⟩

/-- Removes the references of a peer from a repository of the host. -/
def prune (config : Config) (rid peer : Text) (observer : Option Observer) :
    Activity Host PruneResult :=
  pruneNamespace (pick config) config rid peer observer

end RefSweep.Host
