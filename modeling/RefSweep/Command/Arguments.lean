import RefSweep.Command.Options

/-!
# Arguments

Reading the words of a command line. Options may stand anywhere before a double dash; a value
follows its option or an equals sign, and may itself begin with a dash; flags of one letter may
share a dash. What cannot be read is reported before any value is looked at.
-/

namespace RefSweep

/-- The arguments as they were read: the options in order, with the values of those that take one,
and the other arguments. -/
structure Arguments where
  options : List (Switch × Text)
  positional : List Text

namespace Arguments

def empty : Arguments := ⟨[], []⟩

def addOption (a : Arguments) (option : Switch) (value : Text) : Arguments :=
  { a with options := a.options ++ [(option, value)] }

def addPositional (a : Arguments) (values : List Text) : Arguments :=
  { a with positional := a.positional ++ values }

/-- Reads the letters after a single dash. -/
def readLetters (a : Arguments) : Text → Except CommandFault Arguments
  | [] => .ok a
  | g :: t =>
    match Switch.ofLetter? g with
    | some option => readLetters (a.addOption option []) t
    | none => .error (.unknownOption ['-', g])

/-- The word is no option: it does not begin with a dash, or is a single dash. -/
def isPositional (word : Text) : Bool := !word.startsWith ['-'] || word.length = 1

/-- Reads the words after those read so far. -/
def readOn (a : Arguments) : List Text → Except CommandFault Arguments
  | [] => .ok a
  | word :: rest =>
    -- two dashes end the options: all that follows is positional
    if word = Text.of "--" then .ok (a.addPositional rest)
    else if isPositional word then readOn (a.addPositional [word]) rest
    else
      let (name, value) := word.cut '='
      -- the whole word may be an option; if it is not, its letters may be short ones
      match Switch.ofName? name with
      | none =>
        if word.startsWith (Text.of "--") then .error (.unknownOption name)
        else
          match a.readLetters word.tail with
          | .error fault => .error fault
          | .ok a => readOn a rest
      | some option =>
        if option.takesValue then
          if word.contains '=' then readOn (a.addOption option value) rest
          else
            match rest with
            | [] => .error (.missingValue option)
            | value :: rest => readOn (a.addOption option value) rest
        else if word.contains '=' then .error (.unexpectedValue option)
        else readOn (a.addOption option []) rest

/-- Reads the words of a command line. -/
def read (words : List Text) : Except CommandFault Arguments := Arguments.empty.readOn words

def has (a : Arguments) (option : Switch) : Bool := a.options.any (·.1 = option)

/-- The value of an option; the last one counts. -/
def value? (a : Arguments) (option : Switch) : Option Text :=
  (a.options.reverse.find? (·.1 = option)).map (·.2)

def count (a : Arguments) (option : Switch) : Nat := (a.options.filter (·.1 = option)).length

/-- The options given, each once, in the order in which they first come. -/
def given (a : Arguments) : List Switch := (a.options.map (·.1)).eraseDups

end Arguments

end RefSweep
