import RefSweep.Text.Basic

/-!
# Similar texts

Which of some known words a mistyped one may have meant. Two texts are compared by their longest
common block, then by what lies left of it and what lies right of it; the similarity is twice the
length of all blocks over the length of both texts.
-/

namespace RefSweep.Similar

/-- How many glyphs the two texts have in common at their start. -/
def commonLead : Text → Text → Nat
  | a :: s, b :: t => if a = b then commonLead s t + 1 else 0
  | _, _ => 0

/-- A common block: where it begins in the two texts, and its length. -/
structure Block where
  left : Nat
  right : Nat
  length : Nat

/-- The longest common block; of several the first in the left text, then in the right one. -/
def longestBlock (s t : Text) : Block :=
  (List.range s.length).foldl (fun best i =>
    (List.range t.length).foldl (fun best j =>
      let n := commonLead (s.drop i) (t.drop j)
      if best.length < n then ⟨i, j, n⟩ else best) best) ⟨0, 0, 0⟩

/-- The total length of the blocks of two texts. `depth` bounds the nesting and is enough at the
length of the left text. -/
def matched : Nat → Text → Text → Nat
  | 0, _, _ => 0
  | depth + 1, s, t =>
    let block := longestBlock s t
    if block.length = 0 then 0
    else
      matched depth (s.take block.left) (t.take block.right) + block.length +
        matched depth (s.drop (block.left + block.length)) (t.drop (block.right + block.length))

/-- The similarity of two texts, from 0 to 1. -/
def similarity (s t : Text) : Rat :=
  mkRat (2 * matched (s.length + 1) s t) (s.length + t.length)

/-- How similar a word has to be. -/
def cutoff : Rat := mkRat 6 10

/-- The words that are most similar to a text, at most `count` of them and the best first. Of
equally similar ones the last in order is the best. -/
def best (count : Nat) (words : List Text) (t : Text) : List Text :=
  let rated := (words.map fun w => (similarity w t, w)).filter (cutoff ≤ ·.1)
  ((rated.mergeSort fun a b => b.1 < a.1 || (a.1 = b.1 && Text.le b.2 a.2)).take count).map (·.2)

end RefSweep.Similar
