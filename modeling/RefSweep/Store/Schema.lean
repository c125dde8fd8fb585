import RefSweep.Store.Basic

/-!
# The schema of a store

A store is usable if all its tables are there and its metadata give the known version. `initialised`
makes it so as far as it may: it adds what is missing and changes nothing that is there.
-/

namespace RefSweep.Store

/-- The version of the schema that is understood. -/
def knownVersion : Text := "2"

/-- The metadata key of the version. -/
def versionKey : Text := "schema_version"

/-- The recorded version: the value of the row under its key, of which there is at most one. -/
def version? (s : Store) : Option Text :=
  (s.metadataRows.find? (·.key = versionKey)).map (·.value)

/-- The missing tables, in the order of their names. -/
def missingTables (s : Store) : List Table := Table.all.filter fun t => !s.has t

/-- The store with this version recorded, or with none. -/
def withVersion (s : Store) (version : Option Text) : Store :=
  { s with metadata := some ((s.metadata.getD .empty).record versionKey version) }

/-- The store with every missing table added empty. -/
def filled (s : Store) : Store := { s with
  metadata := some (s.metadata.getD .empty)
  links := some s.linkRows
  objects := some s.objectRows
  refs := some s.refRows }

/-- The store with every missing table added empty, and the known version recorded if none was. -/
def initialised (s : Store) : Store :=
  match s.filled.version? with
  | some _ => s.filled
  | none => s.filled.withVersion (some knownVersion)

/-- The version of a usable store, or why it cannot be read. Missing tables are reported first. -/
def checkSchema (s : Store) : Except ReadFault Text :=
  match s.missingTables with
  | [] =>
    match s.version? with
    | some v => if v = knownVersion then .ok v else .error (.schemaVersion (some v))
    | none => .error (.schemaVersion none)
  | missing => .error (.missingTables (missing.map (·.name)))

end RefSweep.Store
