import RefSweep.Store.Database
import RefSweep.Store.Rows

/-!
# Sessions

A session is one connection to a database. A transaction that it has begun takes its view of the
store with the first statement that runs, and keeps it until it ends; what others commit meanwhile
is not seen, and makes writing impossible. Between transactions a session sees the newest store.

A connection knows the tables it last saw, and keeps the queries it has compiled. Compiling asks for
the tables that are known, and looks again only if one of them is not. A compiled query looks when
it runs, after the lock was taken; if it finds a table missing, or the file was rebuilt, it is
compiled again before it runs the next time.

A session that failed to write is suspended: it refuses everything until it is taken back or closed.
-/

namespace RefSweep

/-- What a session has begun and not ended. -/
inductive Transaction where
  | idle
  | begun
  | reading (view : Database)
  deriving DecidableEq, Repr

/-- The queries that a connection keeps once they are compiled. The first ones read a table, the
last three write references. -/
inductive Query where
  | references
  | reference
  | target
  | targets
  | keys
  | object
  | links
  | add
  | move
  | remove
  deriving DecidableEq, Repr

namespace Query

/-- The refusal of a query where these are the tables. Writing references needs the table that they
point into as well. -/
def refusal? (tables : List Table) : Query → Option DbError
  | references | reference | target | targets => missing? .refs
  | keys | object => missing? .objects
  | links => missing? .links
  | add | move | remove =>
    (missing? .refs).or <|
      if tables.contains .objects then none
      else some (.noTable ("main." ++ Table.objects.name))
where
  /-- The refusal of a query on a table that is not there. -/
  missing? (table : Table) : Option DbError :=
    if tables.contains table then none else some (.noTable table.name)

end Query

/-- The state of an open store's session. -/
structure Session where
  suspended : Bool
  transaction : Transaction
  /-- The tables that were there when the connection last looked, if it has. -/
  known : Option (List Table)
  compiled : List Query
  /-- The compiled queries that have to be compiled again. -/
  expired : List Query
  /-- The refusal that the last query of the transaction met. -/
  refused : Option DbError
  deriving DecidableEq, Repr

namespace Session

/-- A session whose connection is not made yet, or was closed. -/
def fresh : Session := ⟨false, .idle, none, [], [], none⟩

/-- A session whose connection has found all tables. -/
def justOpened : Session := { fresh with known := some Table.all }

/-- The store as the session sees it. -/
def view (x : Session) (d : Database) : Store :=
  match x.transaction with
  | .reading view => view.store
  | _ => d.store

/-- The session sees a state of the store that is not the newest. -/
def outdated (x : Session) (d : Database) : Bool :=
  match x.transaction with
  | .reading view => view.revision ≠ d.revision
  | _ => false

/-- The session having seen the tables of a store. -/
def seeing (x : Session) (s : Store) : Session := { x with known := some s.tables }

def ended (x : Session) : Session := { x with transaction := .idle }

/-- The session after its changes were taken back. -/
def takenBack (x : Session) : Session := { x with suspended := false, transaction := .idle }

/-- The session after a failure to write. -/
def suspend (x : Session) : Session := { x with suspended := true, transaction := .idle }

/-- The session after a transaction was begun, if there was none. -/
def begin (x : Session) : Session :=
  match x.transaction with
  | .idle => { x with transaction := .begun, refused := none }
  | _ => x

/-- The session with the view taken that a transaction needs to run a query. -/
def viewing (x : Session) (d : Database) : Session :=
  match x.transaction with
  | .begun => { x with transaction := .reading d }
  | _ => x

/-- The session after looking for the tables of a query, and the refusal if one is missing. What the
connection knows is enough if it knows them all. -/
def findTables (x : Session) (d : Database) (query : Query) : Session × Option DbError :=
  if query.refusal? (x.known.getD []) = none then (x, none)
  else (x.seeing (x.view d), query.refusal? (x.view d).tables)

/-- The session after compiling a query, unless it was compiled before. -/
def compile (x : Session) (d : Database) (query : Query) : Session × Option DbError :=
  if x.compiled.contains query then (x, none)
  else
    match x.findTables d query with
    | (x, some e) => (x, some e)
    | (x, none) => ({ x with compiled := query :: x.compiled }, none)

/-- The session after compiling an expired query again. -/
def renew (x : Session) (d : Database) (query : Query) : Session × Option DbError :=
  if x.expired.contains query then
    match x.findTables d query with
    | (x, some e) => (x, some e)
    | (x, none) => ({ x with expired := x.expired.filter (· ≠ query) }, none)
  else (x, none)

/-- The session after a compiled query looked at the tables, and the refusal if one is missing. -/
def look (x : Session) (d : Database) (query : Query) : Session × Option DbError :=
  let seen := x.seeing (x.view d)
  match query.refusal? (x.view d).tables with
  | some e => ({ seen with expired := query :: x.expired }, some e)
  | none => (seen, none)

/-- The session after the file was rebuilt. -/
def rebuilt (x : Session) (s : Store) : Session := { x.seeing s with expired := x.compiled }

/-- Runs a query that reads a table: the session after it, and the refusal if there is one. -/
def read (x : Session) (d : Database) (query : Query) : Session × Option DbError :=
  let (x, refusal) := match x.compile d query with
    | (x, some e) => (x, some e)
    | (x, none) =>
      match x.renew d query with
      | (x, some e) => (x, some e)
      | (x, none) => (x.viewing d).look d query
  ({ x with refused := refusal }, refusal)

/-- The refusal of writing: another process holds the lock, or the session's view is outdated. -/
def writeRefusal? (x : Session) (d : Database) : Option DbError :=
  if d.store.locked || x.outdated d then some .databaseLocked else none

/-- Runs a compiled query that writes references, up to the rows that it is about: the session after
it, and the refusal if it does not get that far. -/
def reach (x : Session) (d : Database) (query : Query) : Session × Option DbError :=
  match x.renew d query with
  | (x, some e) => (x, some e)
  | (x, none) =>
    match x.writeRefusal? d with
    | some e => (x, some e)
    | none => x.look d query

end Session

end RefSweep
