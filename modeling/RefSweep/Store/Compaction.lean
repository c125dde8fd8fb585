import RefSweep.Store.Reachability

/-!
# Compaction

Compacting a store deletes every object that no reference reaches, with the links that go out from
it, in chunks of five hundred. All chunks are one transaction: if any statement up to the commit is
refused, nothing has changed. The file is rebuilt after the commit; a refusal there leaves the store
compacted.
-/

namespace RefSweep.Store

/-- How many objects one statement deletes at most. -/
def chunkSize : Nat := 500

/-- The keys in groups of at most `chunkSize`. -/
def chunks (keys : List Text) : List (List Text) :=
  if keys = [] then [] else keys.take chunkSize :: chunks (keys.drop chunkSize)
termination_by keys.length
decreasing_by
  have := List.length_pos_iff.2 ‹_›
  simp only [List.length_drop, chunkSize]
  omega

/-- The store without the links that go out from these objects. -/
def withoutLinks (s : Store) (keys : List Text) : Store :=
  { s with links := s.links.map (·.filter fun l => !keys.contains l.source) }

/-- The store without these objects. -/
def withoutObjects (s : Store) (keys : List Text) : Store :=
  { s with objects := s.objects.map (·.filter fun o => !keys.contains o.key) }

/-- The refusal of deleting these objects, if a reference points at one of them. -/
def pin? (s : Store) (keys : List Text) : Option DbError :=
  if s.refRows.any fun r => keys.contains r.target && s.holds r.target then some .foreignKey
  else none

/-- Deletes the chunks one after another, the first of them with number `n`. -/
def sweep (refusals : Refusals) (s : Store) (n : Nat) : List (List Text) → Except DbError Store
  | [] => .ok s
  | chunk :: rest =>
    match (refusals (.deleteLinks n)).or s.lock? with
    | some e => .error e
    | none =>
      match (refusals (.deleteObjects n)).or (s.pin? chunk) with
      | some e => .error e
      | none => sweep refusals ((s.withoutLinks chunk).withoutObjects chunk) (n + 1) rest

/-- The keys to delete, unless reading one of the tables is refused. -/
def readUnreachable (refusals : Refusals) (s : Store) : Except DbError (List Text) :=
  match (refusals .readObjects).or (s.missing? .objects) with
  | some e => .error e
  | none =>
    match (refusals .readLinks).or (s.missing? .links) with
    | some e => .error e
    | none =>
      match (refusals .readTargets).or (s.missing? .refs) with
      | some e => .error e
      | none => .ok s.unreachable

/-- Deletes these keys in one transaction: the store is as before if any statement is refused. -/
def sweepAll (refusals : Refusals) (s : Store) (keys : List Text) : Except DbError Store :=
  match s.sweep refusals 0 (chunks keys) with
  | .error e => .error e
  | .ok swept =>
    match refusals .commit with
    | some e => .error e
    | none => .ok swept

/-- The refusal of what follows the commit. -/
def tidy? (refusals : Refusals) (s : Store) : Option DbError :=
  (refusals .rebuild).or (s.lock?.or (refusals .emptyLog))

/-- Compacts the store: the number of deleted objects or the refusal, and the store after it. -/
def compact (refusals : Refusals) (s : Store) : Except DbError Nat × Store :=
  match s.readUnreachable refusals with
  | .error e => (.error e, s)
  | .ok keys =>
    match s.sweepAll refusals keys with
    | .error e => (.error e, s)
    | .ok swept =>
      match swept.tidy? refusals with
      | some e => (.error e, swept)
      | none => (.ok keys.length, swept)

end RefSweep.Store
