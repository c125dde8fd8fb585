import RefSweep.Text.Space

/-!
# Lock messages

How git says that another process is in its way. Letter case does not matter.
-/

namespace RefSweep.Git

/-- The text begins with `Unable to create` and names a lock file later on its first line. -/
def beginsWithCreate (t : Text) : Bool :=
  let opening := Text.of "unable to create "
  t.startsWith opening &&
    Text.includes (Text.of ".lock") ((t.drop opening.length).takeWhile (· ≠ Glyph.char '\n'))

/-- A part of the text begins so. -/
def namesLockAfterCreate : Text → Bool
  | [] => false
  | g :: t => beginsWithCreate (g :: t) || namesLockAfterCreate t

/-- The message of a failed command is about a lock. -/
def isLockMessage (stderr : Text) : Bool :=
  let t := stderr.map Glyph.caseless
  Text.includes (Text.of "cannot lock ref") t ||
    Text.includes (Text.of ".lock: file exists") t ||
    Text.includes (Text.of ".lock': file exists") t ||
    namesLockAfterCreate t ||
    Text.includes (Text.of "gc is already running") t

end RefSweep.Git
