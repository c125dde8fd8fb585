import RefSweep.Text.Space

/-!
# Markup

Messages carry style tags in square brackets, and the text put into a message is escaped first. A
bracket opens a tag if a lower-case letter, `#`, `/` or `@` follows it and the closing bracket comes
before the next opening one. Backslashes before a tag come in pairs, each shown as one; an odd one
makes the tag plain text.

`escape` prepares a text and `render` shows a line, both in one pass that counts the backslashes
just read. Before a bracket that opens no tag `render` still takes one backslash away, though
`escape` adds none there. A tag that two escaped texts form together is a tag like any other; one
that closes nothing is a fault of the line.
-/

namespace RefSweep.Markup

/-- The text goes on to a closing bracket with no opening one before it. -/
def closes : Text → Bool
  | [] => false
  | g :: t => if g = ']' then true else if g = '[' then false else closes t

/-- The text, read after an opening bracket, makes that bracket the start of a tag. -/
def opensTag : Text → Bool
  | [] => false
  | g :: t => g.within [(0x61, 0x7A), (0x23, 0x23), (0x2F, 0x2F), (0x40, 0x40)] && closes t

def backslashes (n : Nat) : Text := List.replicate n (.char '\x5c')

/-- Escapes the text that follows `n` backslashes: those before a tag are doubled, and one more is
put in front of it. -/
def escapeAfter (n : Nat) : Text → Text
  | [] => backslashes n
  | g :: t =>
    if g = '\x5c' then escapeAfter (n + 1) t
    else if g = '[' && opensTag t then backslashes (2 * n + 1) ++ g :: escapeAfter 0 t
    else backslashes n ++ g :: escapeAfter 0 t

/-- The text in a form whose rendering shows it. A single backslash at its end is doubled, so that
it does not act on what the message goes on with. -/
def escape (t : Text) : Text :=
  let escaped := escapeAfter 0 t
  if escaped.endsWith (backslashes 1) && !escaped.endsWith (backslashes 2) then
    escaped ++ backslashes 1
  else escaped

/-- Why a line cannot be shown: the tag at a position closes no open one. -/
inductive Fault where
  | unmatched (tag : Text) (position : Nat)
  | nothingToClose (position : Nat)
  deriving DecidableEq, Repr

namespace Fault

def message : Fault → Text
  | unmatched tag position =>
    "closing tag '[" ++ tag ++ "]' at position " ++ Text.ofNat position ++
      " doesn't match any open tag"
  | nothingToClose position =>
    "closing tag '[/]' at position " ++ Text.ofNat position ++ " has nothing to close"

end Fault

/-- The name under which a style is opened and closed. The renderer also takes the names that mean
one style for one, so that `[b]` is closed by `[/bold]`; here they stay two. -/
def styleName (t : Text) : Text := (Text.strip t).map Glyph.lowerAscii

/-- The names of the open styles, the newest first, after a tag. A slash closes the style that is
named after it, under the very name under which it was opened, or the newest one if none is; what
comes after an equals sign is no part of a name. -/
def opened (position : Nat) (tag : Text) (styles : List Text) : Except Fault (List Text) :=
  match tag.takeWhile (· ≠ Glyph.char '=') with
  | .char '/' :: name =>
    if Text.strip name = [] then
      match styles with
      | [] => .error (.nothingToClose position)
      | _ :: others => .ok others
    else if styleName name ∈ styles then .ok (styles.erase (styleName name))
    else .error (.unmatched tag position)
  | name => .ok (styleName name :: styles)

/-- Where rendering is: after a number of backslashes, or in a tag, which is not shown, after the
part of it that has been read. -/
inductive Place where
  | after (backslashes : Nat)
  | inTag (start : Nat) (read : Text)

/-- Renders the text from a position and a place on, with these styles open. -/
def renderFrom (styles : List Text) (position : Nat) : Place → Text → Except Fault Text
  | .after n, [] => .ok (backslashes n)
  | .inTag _ _, [] => .ok []
  | .inTag start read, g :: t =>
    if g = ']' then
      match opened start read styles with
      | .error fault => .error fault
      | .ok styles => renderFrom styles (position + 1) (.after 0) t
    else renderFrom styles (position + 1) (.inTag start (read ++ [g])) t
  | .after n, g :: t =>
    if g = '\x5c' then renderFrom styles (position + 1) (.after (n + 1)) t
    else if g = '[' then
      if opensTag t then
        if n % 2 = 1 then
          shown (backslashes (n / 2) ++ [g]) (renderFrom styles (position + 1) (.after 0) t)
        else shown (backslashes (n / 2)) (renderFrom styles (position + 1) (.inTag position []) t)
      else shown (backslashes (n - 1) ++ [g]) (renderFrom styles (position + 1) (.after 0) t)
    else shown (backslashes n ++ [g]) (renderFrom styles (position + 1) (.after 0) t)
where
  /-- What is shown first, before what the rest shows. -/
  shown (lead : Text) : Except Fault Text → Except Fault Text
    | .ok t => .ok (lead ++ t)
    | .error fault => .error fault

/-- What a line of markup shows. -/
def render (t : Text) : Except Fault Text := renderFrom [] 0 (.after 0) t

end RefSweep.Markup
