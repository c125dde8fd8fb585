import RefSweep.Text.Printable

/-!
# Quoted text

Identifiers and versions that an error message repeats are quoted, so that white space and control
characters in them can be seen. The quote is single, or double when the text holds a single quote
and no double one; the quote in use, the backslash and every character without a visible form are
escaped.
-/

namespace RefSweep

namespace Quoted

/-- Hexadecimal digits in lower case, with zeros in front up to the given width. -/
def hex (width n : Nat) : Text :=
  let digits := (Nat.toDigits 16 n).map Glyph.char
  List.replicate (width - digits.length) (.char '0') ++ digits

/-- How one glyph is written between quotes of the given kind. -/
def escape (quote : Char) (g : Glyph) : Text :=
  if g = quote || g = '\x5c' then ['\x5c', g]
  else if g = '\n' then Text.of "\\n"
  else if g = '\r' then Text.of "\\r"
  else if g = '\t' then Text.of "\\t"
  else if g.isPrintable then [g]
  else if g.code < 0x100 then Text.of "\\x" ++ hex 2 g.code
  else if g.code < 0x10000 then Text.of "\\u" ++ hex 4 g.code
  else Text.of "\\U" ++ hex 8 g.code

/-- The quote that a text is written with. -/
def quoteFor (t : Text) : Char :=
  if t.contains (.char '\x27') && !t.contains (.char '\x22') then '\x22' else '\x27'

end Quoted

/-- The text in quotes, with every invisible character escaped. -/
def Text.quoted (t : Text) : Text :=
  let quote := Quoted.quoteFor t
  .char quote :: t.flatMap (Quoted.escape quote) ++ [.char quote]

end RefSweep
