import RefSweep.Text.Basic

/-!
# White space, lines and letter case

The white space that is stripped from tool output, the characters that end a line, and the letters
that two different searches treat as equal. All three are properties of code points; a stray byte is
in none of them.
-/

namespace RefSweep

namespace Glyph

/-- White space: the separators of Unicode and the control characters that act as such. -/
def isSpace (g : Glyph) : Bool :=
  g.within [(0x09, 0x0D), (0x1C, 0x20), (0x85, 0x85), (0xA0, 0xA0), (0x1680, 0x1680),
    (0x2000, 0x200A), (0x2028, 0x2029), (0x202F, 0x202F), (0x205F, 0x205F), (0x3000, 0x3000)]

/-- The characters that end a line. -/
def endsLine (g : Glyph) : Bool :=
  g.within [(0x0A, 0x0D), (0x1C, 0x1E), (0x85, 0x85), (0x2028, 0x2029)]

def lowerAscii : Glyph → Glyph
  | char c => char c.toLower
  | g => g

/-- The letter that stands for all its case variants in a search that ignores case, of the letters
that fold to ASCII: the dotted and the dotless i, the long s and the Kelvin sign. -/
def caseless (g : Glyph) : Glyph :=
  match g.code with
  | 0x130 | 0x131 => 'i'
  | 0x17F => 's'
  | 0x212A => 'k'
  | _ => g.lowerAscii

/-- Lower case as far as an ASCII letter comes out: the ASCII capitals and the Kelvin sign. -/
def lower (g : Glyph) : Glyph := if g.code = 0x212A then 'k' else g.lowerAscii

end Glyph

namespace Text

/-- The text without the white space at both ends. -/
def strip (t : Text) : Text :=
  ((t.dropWhile Glyph.isSpace).reverse.dropWhile Glyph.isSpace).reverse

/-- Line endings as the single character line feed: a carriage return counts as one, and so does
a carriage return with the line feed after it. -/
def withLineFeeds : Text → Text
  | .char '\r' :: .char '\n' :: t => .char '\n' :: withLineFeeds t
  | .char '\r' :: t => .char '\n' :: withLineFeeds t
  | g :: t => g :: withLineFeeds t
  | [] => []

/-- What follows a line's end; a carriage return and a line feed after it are one end. -/
def afterEnd : Text → Text
  | .char '\r' :: .char '\n' :: t => t
  | t => t.tail

theorem length_afterEnd_le (t : Text) : (afterEnd t).length ≤ t.length - 1 := by
  unfold afterEnd
  split <;> simp

/-- The lines of a text, without the characters that end them. No empty line follows the last
end. -/
def lines : Text → List Text
  | [] => []
  | g :: t =>
    (g :: t).takeWhile (!·.endsLine) :: lines (afterEnd ((g :: t).dropWhile (!·.endsLine)))
termination_by t => t.length
decreasing_by
  have := length_afterEnd_le ((g :: t).dropWhile (!·.endsLine))
  have := (List.dropWhile_suffix (!Glyph.endsLine ·) (l := g :: t)).length_le
  simp only [List.length_cons] at *
  omega

end Text

end RefSweep
