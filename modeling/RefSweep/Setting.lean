import RefSweep.Path
import RefSweep.Seconds
import RefSweep.Number.Decimal

/-!
# Settings

Settings arrive untyped: as text, integers, stored numbers, booleans or nothing. Each check turns a
value into one of the type that is needed, or says why it cannot. A number may be spelled as text,
and an integer may come as a stored number or with a fraction of zeros.
-/

namespace RefSweep

/-- Which kind of storage a run uses. -/
inductive BackendChoice where
  | auto
  | sqlite
  | git
  deriving DecidableEq, Repr

namespace BackendChoice

def name : BackendChoice → Text
  | auto => "auto"
  | sqlite => "sqlite"
  | git => "git"

def ofName? (t : Text) : Option BackendChoice :=
  [auto, sqlite, git].find? fun choice => choice.name = t

end BackendChoice

/-- A value before it is checked. -/
inductive Setting where
  | null
  | flag (b : Bool)
  | whole (n : Int)
  | stored (q : Quantity)
  | text (t : Text)
  | composite
  deriving DecidableEq

/-- Why a value is refused. -/
inductive SettingFault where
  | notPath
  | notBackend
  | notInteger
  | unreadableInteger
  | oversizedInteger
  | fractional
  | notFinite
  | noAttempt
  | notNumber
  | unreadableNumber
  | negativeWait
  | notFlag
  | unreadableFlag
  deriving DecidableEq, Repr

namespace SettingFault

def message : SettingFault → Text
  | notPath => "Input is not a valid path for <class 'pathlib.Path'>"
  | notBackend => "Input should be 'auto', 'sqlite' or 'git'"
  | notInteger => "Input should be a valid integer"
  | unreadableInteger => "Input should be a valid integer, unable to parse string as an integer"
  | oversizedInteger => "Unable to parse input string as an integer, exceeded maximum size"
  | notFinite => "Input should be a finite number"
  | fractional => "Input should be a valid integer, got a number with a fractional part"
  | noAttempt => "Input should be greater than or equal to 1"
  | notNumber => "Input should be a valid number"
  | unreadableNumber => "Input should be a valid number, unable to parse string as a number"
  | negativeWait => "Input should be greater than or equal to 0"
  | notFlag => "Input should be a valid boolean"
  | unreadableFlag => "Input should be a valid boolean, unable to interpret input"

end SettingFault

namespace Setting

/-- The text without blanks at both ends; the four separator controls are no blanks here. -/
def trimmed (t : Text) : Text :=
  let blank := fun g : Glyph => g.isSpace && !g.within [(0x1C, 0x1F)]
  ((t.dropWhile blank).reverse.dropWhile blank).reverse

/-- The text with its underscores removed, if each stands between two glyphs that are none. -/
def withoutUnderscores? (t : Text) : Option Text :=
  if t.startsWith ['_'] || t.endsWith ['_'] || Text.includes ['_', '_'] t then none
  else some (t.filter (· ≠ Glyph.char '_'))

/-- A text that starts with a digit, without the zeros in front; underscores among the zeros go with
them. The zero before a point stays, and so does the last of nothing but zeros. -/
def significant? : Text → Option Text
  | [] => none
  | g :: rest =>
    if g = '0' then
      let zeros := rest.takeWhile fun g : Glyph => g = '0' || g = '_'
      match rest.dropWhile (fun g : Glyph => g = '0' || g = '_') with
      | [] => some [zeros.getLastD '0']
      | h :: t =>
        if h = '.' then some (zeros.getLastD '0' :: h :: t)
        else if h.asciiDigit?.isSome then some (h :: t)
        else none
    else if g.asciiDigit?.isSome then some (g :: rest)
    else none

/-- The text without a fraction of zeros, of which there must be one. -/
def withoutZeroFraction (t : Text) : Text :=
  let (front, fraction) := t.cut '.'
  if fraction ≠ [] ∧ fraction.all (· = Glyph.char '0') then front else t

/-- The most characters that the sign and the digits of an integer may have. -/
def integerLimit : Nat := 4300

/-- An integer in ASCII digits with a minus or no sign, and without zeros in front. The length is
looked at before what follows the digits. -/
def plainInteger (t : Text) : Except SettingFault Int :=
  let (minus, unsigned) := match t with
    | .char '-' :: rest => (true, rest)
    | t => (false, t)
  match Decimal.leadingDigits unsigned with
  | ([], _) | (0 :: _ :: _, _) => .error .unreadableInteger
  | (digits, rest) =>
    if integerLimit < digits.length + minus.toNat then .error .oversizedInteger
    else if rest ≠ [] then .error .unreadableInteger
    else .ok (if minus then -(Decimal.ofDigits digits : Int) else Decimal.ofDigits digits)

/-- The plain form of an integer that is written with a plus, with zeros in front, with a fraction
of zeros or with single underscores. -/
def plainForm? (t : Text) : Option Text := do
  let t := match t with
    | .char '+' :: rest => if Text.startsWith rest ['-'] then [] else rest
    | t => t
  let (minus, unsigned) := match t with
    | .char '-' :: rest => ([Glyph.char '-'], rest)
    | t => ([], t)
  let digits := withoutZeroFraction (← significant? unsigned)
  pure (minus ++ (withoutUnderscores? digits).getD digits)

/-- The integer of a text with blanks around it, in its plain form or another one. -/
def integerOf (t : Text) : Except SettingFault Int :=
  match plainInteger (trimmed t) with
  | .error .unreadableInteger =>
    match plainForm? (trimmed t) with
    | some plain => plainInteger plain
    | none => .error .unreadableInteger
  | read => read

/-- A number with blanks around it, or one with single underscores and no blanks. -/
def quantity? (t : Text) : Option Quantity :=
  match Decimal.read? (trimmed t) with
  | some q => some q
  | none => (withoutUnderscores? t).bind Decimal.read?

/-- The first integer that is too large for a machine word of 64 bits. -/
def wordLimit : Int := 0x8000000000000000

/-- A stored number fits a machine word of 64 bits. -/
def fitsWord (r : Rat) : Bool := (-wordLimit : Int) < r && r < wordLimit

/-- The integer that a stored number is. -/
def integerOfStored (q : Quantity) : Except SettingFault Int :=
  match q.value? with
  | none => .error .notFinite
  | some r =>
    if r.den ≠ 1 then .error .fractional
    else if fitsWord r then .ok r.num
    else .error .oversizedInteger

/-- A path is any text. -/
def path : Setting → Except SettingFault Path
  | text t => .ok (Path.parse t)
  | _ => .error .notPath

/-- A backend is given by its exact name. -/
def backend : Setting → Except SettingFault BackendChoice
  | text t =>
    match BackendChoice.ofName? t with
    | some choice => .ok choice
    | none => .error .notBackend
  | _ => .error .notBackend

/-- A whole number of any sign. -/
def integer : Setting → Except SettingFault Int
  | flag b => .ok (if b then 1 else 0)
  | whole n => .ok n
  | stored q => integerOfStored q
  | text t => integerOf t
  | _ => .error .notInteger

/-- A number of attempts: a whole number, at least one. -/
def attempts (s : Setting) : Except SettingFault { n : Nat // 0 < n } :=
  match s.integer with
  | .error fault => .error fault
  | .ok n => if h : 0 < n.toNat then .ok ⟨n.toNat, h⟩ else .error .noAttempt

/-- A stored number; a whole number that is too large for one is refused. -/
def quantity : Setting → Except SettingFault Quantity
  | flag b => .ok (.finite (if b then 1 else 0))
  | whole n =>
    match Binary64.nearest n with
    | some r => .ok (.finite r)
    | none => .error .notNumber
  | stored q => .ok q
  | text t =>
    match quantity? t with
    | some q => .ok q
    | none => .error .unreadableNumber
  | _ => .error .notNumber

/-- A pause: a number that is at least zero. -/
def wait (s : Setting) : Except SettingFault { d : Seconds // d.isNonneg = true } :=
  match s.quantity with
  | .error fault => .error fault
  | .ok q => if h : Seconds.isNonneg q = true then .ok ⟨q, h⟩ else .error .negativeWait

def flagWords : List (Text × Bool) :=
  [("0", false), ("off", false), ("f", false), ("false", false), ("n", false), ("no", false),
    ("1", true), ("on", true), ("t", true), ("true", true), ("y", true), ("yes", true)]

/-- The boolean of a number: 0 and 1 stand for one, other integers of a machine word might have. -/
def onOffOf (r : Rat) (word : Bool) : Except SettingFault Bool :=
  if r = 0 then .ok false
  else if r = 1 then .ok true
  else if word then .error .unreadableFlag
  else .error .notFlag

/-- A boolean, the numbers 0 and 1, or a word for one of them. -/
def onOff : Setting → Except SettingFault Bool
  | flag b => .ok b
  | whole n => onOffOf n (-wordLimit ≤ n && n < wordLimit)
  | stored q =>
    match q.value? with
    | some r => onOffOf r (r.den = 1 && fitsWord r)
    | none => .error .notFlag
  | text t =>
    match flagWords.lookup (t.map Glyph.lowerAscii) with
    | some b => .ok b
    | none => .error .unreadableFlag
  | _ => .error .notFlag

end Setting

end RefSweep
