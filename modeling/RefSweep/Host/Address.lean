import RefSweep.Error
import RefSweep.Number.Decimal
import RefSweep.Path
import RefSweep.Text.Percent
import RefSweep.Text.Space

/-!
# Addresses of stores

A store is reached through an address, whose text is the path of its file. The path goes up to the
first question mark, and percent signs in it stand for bytes; what follows the question mark counts
as options of the connection. So a path with such characters may lead to another file than the one
it names, and a path whose options make no sense leads nowhere.
-/

namespace RefSweep

/-- What an address leads to. -/
inductive Address where
  | memory
  | file (path : Path)
  deriving DecidableEq, Repr

namespace Address

/-- The kinds of values that options of a connection take. -/
inductive OptionKind where
  | flag
  | number
  | integer
  deriving DecidableEq, Repr

/-- The name of the option that makes the rest of the options a part of the file's name. -/
def literalOption : Text := "uri"

/-- The options of a connection whose values are checked, in the order of the checks. -/
def checkedOptions : List (Text × OptionKind) :=
  [(literalOption, .flag), (Text.of "timeout", .number), (Text.of "detect_types", .integer),
    (Text.of "check_same_thread", .flag), (Text.of "cached_statements", .integer)]

/-- The options of a connection that are no part of the file's name. -/
def ownOptions : List Text := checkedOptions.map (·.1) ++ [Text.of "isolation_level"]

/-- What is meant by a name or a value among the options. -/
def optionText (t : Text) : Text :=
  Text.percentDecoded (t.map fun g => if g = Glyph.char '+' then .char ' ' else g)

/-- A name and a value, as they are meant; one without a value is no option. -/
def option? (pair : Text) : Option (Text × Text) :=
  let (name, value) := pair.cut '='
  if value = [] then none else some (optionText name, optionText value)

/-- The options that follow a path. -/
def options (query : Text) : List (Text × Text) :=
  (Text.split '&' (query.takeWhile (· ≠ Glyph.char '\n'))).filterMap option?

/-- The options as they are written into the name of a file, in the order of their names. -/
def rewritten (options : List (Text × Text)) : Text :=
  let sorted := options.mergeSort fun a b => Text.le a.1 b.1
  Text.joined ['&'] (sorted.map fun o => o.1 ++ .char '=' :: o.2)

def flag? (word : Text) : Option Bool :=
  if [Text.of "true", "yes", "on", "y", "t", "1"].contains word then some true
  else if [Text.of "false", "no", "off", "n", "f", "0"].contains word then some false
  else none

/-- The fault in the value of an option. -/
def faultIn? (value : Text) : OptionKind → Option AddressFault
  | .flag =>
    let word := (Text.strip value).map Glyph.lower
    if (flag? word).isSome then none else some (.notFlag word)
  | .number => if (Decimal.read? (Text.strip value)).isSome then none else some (.notNumber value)
  | .integer => if (Text.int? value).isSome then none else some (.notInteger value)

/-- The fault in the options, if there is one. -/
def fault? (options : List (Text × Text)) : Option AddressFault :=
  checkedOptions.findSome? fun (name, kind) => (options.lookup name).bind (faultIn? · kind)

/-- The parts above, with one more part carried out; the last of them comes first. -/
def resolve (above : List Text) (part : Text) : List Text :=
  if part = Text.of ".." then
    match above with
    | last :: rest => if last = Text.of ".." then part :: above else rest
    | [] => [part]
  else part :: above

/-- The parts of a path with dots and two dots carried out, in reverse. -/
def resolved (parts : List Text) : List Text := parts.foldl resolve []

/-- The file of a name. Two dots take back the part before them, whatever it leads to. -/
def ofName (name : Text) : Address :=
  if name = [] ∨ name = Text.of ":memory:" then .memory
  else
    let path := Path.parse name
    .file ⟨path.root, (resolved path.parts).reverse⟩

/-- What the text of a path leads to. -/
def read (t : Text) : Except AddressFault Address :=
  let (name, query) := t.cut '?'
  let name := Text.percentDecoded name
  let options := options query
  match fault? options with
  | some fault => .error fault
  | none =>
    let literal := ((options.lookup literalOption).bind fun v =>
      flag? ((Text.strip v).map Glyph.lower)) = some true
    let others := options.filter fun o => !ownOptions.contains o.1
    if literal ∧ others ≠ [] then .ok (ofName (name ++ .char '?' :: rewritten others))
    else .ok (ofName name)

end Address

end RefSweep
