import RefSweep.Digest
import RefSweep.Store.Compaction
import RefSweep.Store.Session

/-!
# Operations on an open store

What a session does to a database. Storing an object and moving a reference suspend the session when
the database refuses the change. Deleting a reference and compacting take their failures back
themselves, so that the session goes on. A refusal planned for a first statement is what executing
that statement raises: it comes before the session is asked whether it is suspended, and a deletion
or a compaction that meets it takes even a suspended session back.
-/

namespace RefSweep

/-- What an operation of a session gives back: its result, and session and database after it. -/
structure Step (α : Type) where
  result : Except Failure α
  session : Session
  database : Database

namespace Step

variable {α : Type}

def ok (session : Session) (database : Database) (a : α) : Step α := ⟨.ok a, session, database⟩

def fail (session : Session) (database : Database) (f : Failure) : Step α :=
  ⟨.error f, session, database⟩

/-- Writing failed: the database is as before, the session is suspended. -/
def suspend (session : Session) (database : Database) (cause : Foreign) : Step α :=
  ⟨.error cause, session.suspend, database⟩

end Step

/-- Why links from a new object cannot be added, if one of them cannot. They are tried in order. -/
def Store.linkFailure? (s : Store) (source : Text) (targets : List Text) : Option Foreign :=
  if targets = [] then none
  else ((s.missing? .links).map Foreign.database).or <| targets.findSome? fun target =>
    (target.strayRun?.map Foreign.unencodable).or
      ((s.linkRefusal? ⟨source, target⟩).map Foreign.database)

namespace Session

/-- Does `operation` unless the session is suspended. -/
def unlessSuspended {α : Type} (x : Session) (d : Database) (operation : Step α) : Step α :=
  if x.suspended then .fail x d Foreign.rollbackPending else operation

/-- Does `operation` if the text consists of characters. Only those can be stored. -/
def ifEncodable {α : Type} (x : Session) (d : Database) (t : Text) (operation : Step α) : Step α :=
  match t.strayRun? with
  | some run => .fail x d (Foreign.unencodable run)
  | none => operation

/-- Reads a table: what the session sees of the store goes to `operation`. -/
def reading {α : Type} (refusal : Option DbError) (x : Session) (d : Database) (query : Query)
    (operation : Session → Store → Step α) : Step α :=
  match refusal with
  | some e => .fail x d (Foreign.database e)
  | none =>
    if x.suspended then .fail x d Foreign.rollbackPending
    else
      match x.read d query with
      | (x, some e) => .fail x d (Foreign.database e)
      | (x, none) => operation x (x.view d)

/-- The stored references, and the session after listing them. -/
def listing (refusals : Refusals) (x : Session) (d : Database) : Listing × Session :=
  match refusals .readReferences with
  | some e => (refused e, x)
  | none =>
    if x.suspended then (.failed Foreign.rollbackPending, x)
    else
      match x.read d .references with
      | (x, some e) => (refused e, x)
      | (x, none) => (Store.parseRows (x.view d).refRows, x)
where
  /-- A listing that the database refuses. -/
  refused (e : DbError) : Listing :=
    .failed (Error.unreadable (.enumerationRefused e.text e.isLock))

/-- The target of a reference, if it is stored. -/
def lookup (refusals : Refusals) (x : Session) (d : Database) (name : Text) :
    Step (Option Text) :=
  x.reading (refusals .readReference) d .target fun x view =>
    x.ifEncodable d name <| .ok x d ((view.refRow? name).map (·.target))

def countObjects (refusals : Refusals) (x : Session) (d : Database) : Step Nat :=
  x.reading (refusals .countObjects) d .keys fun x view => .ok x d view.objectRows.length

/-- Stores an object with its links, and gives its key. An object that is there already stays as it
is, and so do its links. -/
def writeObject (refusals : Refusals) (x : Session) (d : Database) (kind : Text) (payload : Bytes)
    (links : List Text) : Step Text :=
  x.ifEncodable d kind <| x.reading (refusals .readObject) d .object fun x view =>
    let key := Digest.key kind payload
    if view.holds key then .ok x.ended d key
    else
      let targets := links.eraseDups
      match ((x.writeRefusal? d).map Foreign.database).or (d.store.linkFailure? key targets) with
      | some cause => .suspend x d cause
      | none =>
        .ok x.ended (d.commit (d.store.withObject ⟨key, kind, payload⟩ targets)) key

/-- Creates a reference or moves it. One that points there already needs no writing. -/
def updateReference (refusals : Refusals) (x : Session) (d : Database) (name target : Text) :
    Step Unit :=
  match RefName.parse name with
  | .error fault => .fail x d (Error.ofName name fault)
  | .ok _ =>
    x.reading (refusals .readReference) d .reference fun x view => x.ifEncodable d name <|
      let row := view.refRow? name
      if row.any (·.target = target) then .ok x.ended d ()
      else
        let change : Query := if row.isSome then .move else .add
        -- from here on a failure comes out of the flush, and suspends the session
        match x.compile d change with
        | (x, some e) => .suspend x d (.database e)
        | (x, none) =>
          match target.strayRun? with
          | some run => .suspend x d (.unencodable run)
          | none =>
            match x.reach d change with
            | (x, some e) => .suspend x d (.database e)
            | (x, none) =>
              match d.store.targetRefusal? target with
              | some e => .suspend x d (.database e)
              | none => .ok x.ended (d.commit (d.store.withRef name target)) ()

/-- The error of a deletion that the database refused. -/
def deletionError (name : Text) (e : DbError) : Error :=
  if e.isLock then .locked "delete" name else .undeletable name (.said e.text)

/-- Deletes a reference. A name that cannot be stored is found after the transaction has begun,
which then goes on; if the last statement of the transaction was refused, that refusal is
reported. -/
def deleteReference (refusals : Refusals) (x : Session) (d : Database) (name : Text) : Step Unit :=
  match refusals .deleteReference with
  | some e => .fail x.takenBack d (deletionError name e)
  | none =>
    x.unlessSuspended d <|
      match x.compile d .remove with
      | (x, some e) => .fail x.takenBack d (deletionError name e)
      | (x, none) =>
        -- the name is encoded only when the statement is sent, after the transaction has begun
        match name.strayRun?, x.begin.refused with
        | some _, some e => .fail x.takenBack d (deletionError name e)
        | some run, none => .fail x.begin d (Foreign.unencodable run)
        | none, _ =>
          match x.begin.reach d .remove with
          | (x, some e) => .fail x.takenBack d (deletionError name e)
          | (x, none) =>
            match d.store.guardRefusal? name with
            | some e => .fail x.takenBack d (deletionError name e)
            | none =>
              if (d.store.refRow? name).isSome then
                .ok x.takenBack (d.commit (d.store.withoutRef name)) ()
              else .fail x.takenBack d (Error.undeletable name .absent)

/-- The error of a compaction that the database refused. -/
def compactionError (e : DbError) : Error :=
  if e.isLock then .locked "compact" e.text else .uncompacted (.refused e.text)

/-- Reads the tables that a compaction needs, up to the first refusal. -/
def readAll (refusals : Refusals) (x : Session) (d : Database) :
    List (Statement × Query) → Session × Option DbError
  | [] => (x, none)
  | (statement, query) :: rest =>
    match refusals statement with
    | some e => (x, some e)
    | none =>
      match x.read d query with
      | (x, some e) => (x, some e)
      | (x, none) => readAll refusals x d rest

/-- Compacts the store. The unreachable objects are those that the session sees; the file is rebuilt
in its newest state. -/
def compact (refusals : Refusals) (x : Session) (d : Database) : Step CompactionStats :=
  match refusals .readObjects with
  | some e => .fail x.takenBack d (compactionError e)
  | none =>
    x.unlessSuspended d <|
      match x.readAll refusals d
          [(.readObjects, .keys), (.readLinks, .links), (.readTargets, .targets)] with
      | (x, some e) => .fail x.takenBack d (compactionError e)
      | (x, none) =>
        -- what can be reached is judged in the view of the session, but the lock is that of the
        -- file
        let view := { x.view d with locked := d.store.locked || x.outdated d }
        let keys := view.unreachable
        match view.sweepAll refusals keys with
        | .error e => .fail x.takenBack d (compactionError e)
        | .ok swept =>
          -- the deletions are committed before the file is rebuilt, which may still be refused
          let after :=
            if keys = [] then d else d.commit { swept with locked := d.store.locked }
          match after.store.tidy? refusals with
          | some e => .fail { x.takenBack with known := none } after (compactionError e)
          | none =>
            .ok (x.takenBack.rebuilt after.store) (after.commit after.store)
              ⟨some keys.length,
                some (max 0 ((d.store.footprint : Int) - after.store.footprint))⟩

end Session

end RefSweep
