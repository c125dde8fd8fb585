import RefSweep.RefName
import RefSweep.Text.Markup
import RefSweep.Text.Quoted

/-!
# Errors

What can go wrong, by cause. `Error` holds the library's own errors; a prune run records those of a
single deletion or of the compaction and passes on the others. `Failure` adds what comes from
outside: a database that refuses a statement, a handle of the wrong kind, a callback that fails.
Every wording is in `message`.
-/

namespace RefSweep

/-- The classes of errors that the database reports. -/
inductive DbErrorKind where
  | operational
  | integrity
  | database
  deriving DecidableEq, Repr

/-- An error of the database: its class and its own text. -/
structure DbError where
  kind : DbErrorKind
  text : Text
  deriving DecidableEq, Repr

/-- Why a caller's request makes no sense. -/
inductive UsageFault where
  | reported (message : Text)
  | unknownBackend (name : Text)
  deriving DecidableEq, Repr

/-- Why a reference store cannot be read. -/
inductive ReadFault where
  | reported (message : Text) (retryable : Bool)
  | missingTables (tables : List Text)
  | schemaVersion (found : Option Text)
  | storeRefused (kind : DbErrorKind) (text : Text) (retryable : Bool)
  | enumerationRefused (text : Text) (retryable : Bool)
  | corruptName (name : Text) (fault : NameFault)
  | listingFailed (stderr : Text) (retryable : Bool)
  | unexpectedName (name : Text) (fault : NameFault)
  deriving DecidableEq, Repr

/-- Why a reference was not deleted. -/
inductive DeleteFault where
  | absent
  | said (reason : Text)
  | exitStatus (code : Int)
  deriving DecidableEq, Repr

/-- Why a store was not compacted. -/
inductive CompactFault where
  | reported (message : Text)
  | refused (text : Text)
  | collectionFailed (stderr : Text) (code : Int)
  deriving DecidableEq, Repr

/-- The library's own errors. -/
inductive Error where
  | general (message : Text)
  | usage (fault : UsageFault)
  | identifier (kind value reason : Text)
  | refName (name reason : Text)
  | notFound (rid path reason : Text)
  | unreadable (fault : ReadFault)
  | gitUnavailable (message : Text)
  | undeletable (name : Text) (fault : DeleteFault)
  | locked (operation detail : Text)
  | uncompacted (fault : CompactFault)
  deriving DecidableEq, Repr

namespace DbErrorKind

/-- The name under which the database reports errors of this class. -/
def label : DbErrorKind → Text
  | operational => "sqlite3.OperationalError"
  | integrity => "sqlite3.IntegrityError"
  | database => "sqlite3.DatabaseError"

end DbErrorKind

namespace Error

/-- The error of a refused identifier. -/
def ofIdentifier (kind value : Text) (fault : IdentifierFault) : Error :=
  .identifier kind value fault.message

/-- The error of a refused reference name. -/
def ofName (name : Text) (fault : NameFault) : Error := .refName name fault.message

/-- The text, with a colon and the detail after it if there is a detail. -/
def withDetail (text detail : Text) : Text :=
  if detail = [] then text else text ++ ": " ++ detail

/-- The wording of a refused reference name. -/
def nameMessage (name reason : Text) : Text :=
  "Invalid reference name '" ++ name ++ "': " ++ reason

end Error

namespace UsageFault

def message : UsageFault → Text
  | reported message => message
  | unknownBackend name => "Unknown storage backend: " ++ name.quoted

end UsageFault

namespace ReadFault

def message : ReadFault → Text
  | reported message _ => message
  | missingTables tables => "Store is missing tables: " ++ Text.joined ", " tables
  | schemaVersion found =>
    "Unsupported store schema version: " ++ (found.map Text.quoted).getD "None"
  | storeRefused kind text _ => "Cannot read store: (" ++ kind.label ++ ") " ++ text
  | enumerationRefused text _ => "Cannot read references: " ++ text
  | corruptName name fault =>
    "Corrupt reference in store: " ++ Error.nameMessage name fault.message
  | listingFailed stderr _ => "git for-each-ref failed: " ++ stderr
  | unexpectedName name fault =>
    "Unexpected reference name from git: " ++ Error.nameMessage name fault.message

/-- The read was refused because another process held the store's lock. -/
def retryable : ReadFault → Bool
  | reported _ retryable => retryable
  | storeRefused _ _ retryable => retryable
  | enumerationRefused _ retryable => retryable
  | listingFailed _ retryable => retryable
  | _ => false

end ReadFault

namespace DeleteFault

def message : DeleteFault → Text
  | absent => "reference does not exist"
  | said reason => reason
  | exitStatus code => "exit status " ++ Text.ofInt code

end DeleteFault

namespace CompactFault

def message : CompactFault → Text
  | reported message => message
  | refused text => "Compaction failed: " ++ text
  | collectionFailed stderr code =>
    "git gc failed: " ++ if stderr = [] then Text.ofInt code else stderr

end CompactFault

namespace Error

def message : Error → Text
  | general message => message
  | usage fault => fault.message
  | identifier kind value reason =>
    "Invalid " ++ kind ++ " identifier " ++ value.quoted ++ ": " ++ reason
  | refName name reason => nameMessage name reason
  | notFound rid path reason =>
    withDetail ("Repository not found: " ++ rid ++ " (" ++ path ++ ")") reason
  | unreadable fault => fault.message
  | gitUnavailable message => message
  | undeletable name fault => "Failed to delete " ++ name ++ ": " ++ fault.message
  | locked operation detail =>
    withDetail ("Storage is locked by another process during " ++ operation) detail
  | uncompacted fault => fault.message

/-- The error says that another process holds the store's lock. -/
def isLocked : Error → Bool
  | locked .. => true
  | _ => false

/-- The error is the caller's: missing or malformed arguments. -/
def isUsage : Error → Bool
  | usage .. => true
  | identifier .. => true
  | _ => false

end Error

/-- What the file system says against a path. -/
inductive PathProblem where
  | missing
  | taken
  | notDirectory
  | nameTooLong
  deriving DecidableEq, Repr

namespace PathProblem

def number : PathProblem → Nat
  | missing => 2
  | taken => 17
  | notDirectory => 20
  | nameTooLong => 36

def wording : PathProblem → Text
  | missing => "No such file or directory"
  | taken => "File exists"
  | notDirectory => "Not a directory"
  | nameTooLong => "File name too long"

end PathProblem

/-- Why the value of an option in a store's address is refused. -/
inductive AddressFault where
  | notFlag (value : Text)
  | notNumber (value : Text)
  | notInteger (value : Text)
  deriving DecidableEq, Repr

namespace AddressFault

/-- How much of a quoted number is shown. -/
def shownLength : Nat := 200

def message : AddressFault → Text
  | notFlag value => "String is not true/false: " ++ value.quoted
  | notNumber value => "could not convert string to float: " ++ value.quoted
  | notInteger value =>
    "invalid literal for int() with base 10: " ++ value.quoted.take shownLength

end AddressFault

/-- What comes from outside the library and is never recorded in a result. -/
inductive Foreign where
  | runtime (message : Text)
  | database (error : DbError)
  | rollbackPending
  | wrongHandle
  | unencodable (run : Text.StrayRun)
  | path (problem : PathProblem) (path : Text)
  /-- A command cannot be started in this directory. -/
  | startDirectory (problem : PathProblem) (directory : Text)
  | embeddedNull
  | address (fault : AddressFault)
  | markup (fault : Markup.Fault)
  deriving DecidableEq, Repr

namespace Foreign

/-- The text of a problem with a path, which is shown in its own form. -/
def pathMessage (problem : PathProblem) (shown : Text) : Text :=
  "[Errno " ++ Text.ofNat problem.number ++ "] " ++ problem.wording ++ ": " ++ shown

/-- The text of a foreign failure, if it has one. -/
def message? : Foreign → Option Text
  | runtime message => some message
  | database error => some error.text
  | rollbackPending => none
  | wrongHandle => some "Expected SqliteRepositoryHandle, got GitRepositoryHandle"
  | unencodable run =>
    let place := if run.length = 1 then
      "character '" ++ Text.display [.stray run.first] ++ "' in position " ++ Text.ofNat run.start
    else
      "characters in position " ++ Text.ofNat run.start ++ "-" ++
        Text.ofNat (run.start + run.length - 1)
    some ("'utf-8' codec can't encode " ++ place ++ ": surrogates not allowed")
  | path problem place => some (pathMessage problem place.quoted)
  | startDirectory problem directory =>
    some (pathMessage problem ("PosixPath(" ++ directory.quoted ++ ")"))
  | embeddedNull => some "embedded null byte"
  | address fault => some fault.message
  | markup fault => some fault.message

end Foreign

/-- How an operation fails. -/
inductive Failure where
  | error (error : Error)
  | foreign (cause : Foreign)
  deriving DecidableEq, Repr

instance : Coe Error Failure := ⟨.error⟩

instance : Coe Foreign Failure := ⟨.foreign⟩

end RefSweep
