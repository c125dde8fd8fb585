import RefSweep.Text.Cells
import RefSweep.Text.Space

/-!
# Wrapped lines

A line that is too wide for its place is broken between words. A word keeps the white space after
it, which may reach beyond the edge; a word that fits on no line at all begins a new one and is cut
where the line is full. Main statements: `flatten_words` and `flatten_chopped`, nothing is lost.
-/

namespace RefSweep.Text

/-- Puts a glyph in front of the words of a text. White space stays behind what comes before it. -/
def beforeWords (g : Glyph) : List Text → List Text
  | [] => [[g]]
  | word :: rest =>
    if g.isSpace && word.head?.any (!·.isSpace) then [g] :: word :: rest else (g :: word) :: rest

/-- The words of a text, each with the white space after it, and the first with that before it. -/
def words (t : Text) : List Text :=
  match t.foldr beforeWords [] with
  | first :: second :: rest =>
    if first.all Glyph.isSpace then (first ++ second) :: rest else first :: second :: rest
  | few => few

/-- The text without the white space at its end. -/
def stripEnd (t : Text) : Text := (t.reverse.dropWhile Glyph.isSpace).reverse

/-- A text cut where a line is full, after what stands on the line and takes some of its cells. -/
def chopped (width : Nat) (line : Text) (taken : Nat) : Text → List Text
  | [] => [line]
  | g :: t =>
    if width < taken + g.cells then line :: chopped width [g] g.cells t
    else chopped width (line ++ [g]) (taken + g.cells) t

/-- Lines of words, after what stands on the first line and takes some of its cells. -/
def filledLines (width : Nat) (line : Text) (taken : Nat) : List Text → List Text
  | [] => [line]
  | word :: rest =>
    if taken + word.stripEnd.cells ≤ width then
      filledLines width (line ++ word) (taken + word.cells) rest
    else if width < word.stripEnd.cells then
      let pieces := chopped width [] 0 word
      let last := pieces.getLastD []
      (if line = [] then [] else [line]) ++ pieces.dropLast ++
        filledLines width last last.cells rest
    else line :: filledLines width word word.cells rest

/-- The line without the white space at its end that reaches beyond the edge. -/
def withinEdge (width : Nat) (line : Text) : Text :=
  line.take (line.length - min (line.length - width) (line.length - line.stripEnd.length))

/-- The lines that a line is wrapped into. -/
def wrapped (width : Nat) (line : Text) : List Text :=
  (filledLines width [] 0 line.words).map (withinEdge width)

theorem flatten_beforeWords (g : Glyph) (words : List Text) :
    (beforeWords g words).flatten = g :: words.flatten := by
  cases words with
  | nil => rfl
  | cons word rest =>
    rw [beforeWords]
    split <;> simp

theorem flatten_words (t : Text) : t.words.flatten = t := by
  have h : (t.foldr beforeWords []).flatten = t := by
    induction t with
    | nil => rfl
    | cons g t ih => rw [List.foldr_cons, flatten_beforeWords, ih]
  rw [words]
  split
  · next first second rest heq =>
    rw [heq] at h
    split <;> simpa using h
  · exact h

theorem flatten_chopped (width : Nat) (line : Text) (taken : Nat) (t : Text) :
    (chopped width line taken t).flatten = line ++ t := by
  fun_induction chopped width line taken t with
  | case1 line => simp
  | case2 line taken g t h ih => simp [ih]
  | case3 line taken g t h ih => simp [ih]

end RefSweep.Text
