import RefSweep.Storage

/-!
# Scripted storages

A storage kept in memory whose failures are planned ahead: each deletion and each compaction
consults a schedule before anything else happens. It serves to study runs under any pattern of
failures.
-/

namespace RefSweep

/-- The failures of one operation: a queue that is used up attempt by attempt, and then possibly one
failure for every further attempt. -/
structure Schedule where
  queue : List Failure
  always : Option Failure

namespace Schedule

/-- The failure planned for the next attempt, and the schedule after it. -/
def next (s : Schedule) : Option Failure × Schedule :=
  match s.queue with
  | f :: rest => (some f, { s with queue := rest })
  | [] => (s.always, s)

end Schedule

structure Scripted where
  references : List Reference
  /-- Schedules of deletions by name; a name that is not listed never fails. -/
  deletions : List (Text × Schedule)
  compactions : Schedule
  stats : CompactionStats
  openFailure : Option Failure
  /-- After how many references a listing fails, and how. -/
  listFailure : Option (Nat × Failure)

namespace Scripted

/-- The schedule of a name used up by one attempt. -/
def useSchedule (name : Text) : List (Text × Schedule) → Option Failure × List (Text × Schedule)
  | [] => (none, [])
  | (n, s) :: rest =>
    if n = name then
      let (failure, s) := s.next
      (failure, (n, s) :: rest)
    else
      let (failure, rest) := useSchedule name rest
      (failure, (n, s) :: rest)

/-- The references without the first of this name, or none if there is none. -/
def withoutFirst? (name : RefName) (references : List Reference) : Option (List Reference) :=
  let named := fun r : Reference => r.name.text = name.text
  if references.any (fun r => named r) then some (references.eraseP fun r => named r) else none

def listing (s : Scripted) : Listing :=
  match s.listFailure with
  | none => ⟨s.references, none⟩
  | some (n, f) => ⟨s.references.take n, some f⟩

/-- Deletes the first reference of a name. -/
def delete (name : RefName) (s : Scripted) : Answer Scripted Unit :=
  let (failure, deletions) := useSchedule name.text s.deletions
  let s := { s with deletions }
  match failure with
  | some f => ⟨.error f, s, []⟩
  | none =>
    match withoutFirst? name s.references with
    | some references => ⟨.ok (), { s with references }, []⟩
    | none => ⟨.error (Error.undeletable name.text .absent), s, []⟩

/-- Compacts, which changes no reference. -/
def compact (s : Scripted) : Answer Scripted CompactionStats :=
  let (failure, compactions) := s.compactions.next
  let s := { s with compactions }
  match failure with
  | some f => ⟨.error f, s, []⟩
  | none => ⟨.ok s.stats, s, []⟩

def storage : Storage Scripted Unit where
  openRepository _ _ s :=
    ⟨match s.openFailure with
      | some f => .error f
      | none => .ok (), s, []⟩
  references _ s := (s.listing, s)
  deleteReference _ name s := s.delete name
  compact _ s := s.compact
  close _ s := ⟨.ok (), s, []⟩

end Scripted

end RefSweep
