/-!
# Text

Reference names and tool output arrive as bytes, and not all of them spell characters. A `Text` is
a list of glyphs: a glyph is a character, or a *stray* byte that belongs to no character. Nothing is
lost on the way in, so a name can be handed back to the tool byte for byte.

The operations here are list operations: cutting at a separator, joining, searching for a part.
Main statements: `joined_split` (joining the pieces of a split gives the text back), `mem_split` (no
piece holds the separator) and `includes_iff` (searching finds every part).
-/

namespace RefSweep

/-- One element of a text: a character, or a byte `0x80 + low` that no character accounts for. -/
inductive Glyph where
  | char (c : Char)
  | stray (low : Fin 128)
  deriving DecidableEq, Repr, Inhabited

instance : Coe Char Glyph := ⟨.char⟩

namespace Glyph

/-- The place of a glyph in the order of texts. Stray bytes take the code points `U+DC80` to
`U+DCFF`, which no character has. -/
def code : Glyph → Nat
  | char c => c.toNat
  | stray low => 0xDC80 + low.val

def char? : Glyph → Option Char
  | char c => some c
  | stray _ => none

def isOneOf (cs : List Char) : Glyph → Bool
  | char c => cs.contains c
  | stray _ => false

/-- The glyph's code lies in one of the given inclusive ranges. -/
def within (ranges : List (Nat × Nat)) (g : Glyph) : Bool :=
  ranges.any fun (low, high) => low ≤ g.code && g.code ≤ high

end Glyph

abbrev Text := List Glyph

/-- Raw content of files, payloads and process output. -/
abbrev Bytes := List UInt8

instance (t : Text) (texts : List Text) : Decidable (t ∈ texts) := inferInstance

namespace Text

/-- The text of a string, one glyph per character. -/
def of (s : String) : Text := s.toList.map .char

instance : Coe String Text := ⟨Text.of⟩

/-- The decimal digits of a number. -/
def ofNat (n : Nat) : Text := (Nat.toDigits 10 n).map .char

/-- The decimal digits of an integer, with a minus sign if it is negative. -/
def ofInt : Int → Text
  | .ofNat n => ofNat n
  | .negSucc n => .char '-' :: ofNat (n + 1)

/-- The order of texts: by code, glyph by glyph, a shorter text first. -/
def le : Text → Text → Bool
  | [], _ => true
  | _ :: _, [] => false
  | a :: s, b :: t => if a = b then le s t else a.code < b.code

def startsWith (t lead : Text) : Bool := lead.isPrefixOf t

def endsWith (t tail : Text) : Bool := tail.isSuffixOf t

/-- The text `part` occurs somewhere in the other one. -/
def includes (part : Text) : Text → Bool
  | [] => part.isEmpty
  | g :: t => part.isPrefixOf (g :: t) || includes part t

/-- The pieces between the separators: one more than there are separators. -/
def split (sep : Glyph) : Text → List Text
  | [] => [[]]
  | g :: t =>
    if g = sep then [] :: split sep t
    else match split sep t with
      | [] => [[g]]
      | piece :: pieces => (g :: piece) :: pieces

/-- The pieces with `sep` between each two of them. -/
def joined (sep : Text) : List Text → Text
  | [] => []
  | [t] => t
  | t :: u :: rest => t ++ sep ++ joined sep (u :: rest)

/-- The part before the first `sep` and the part after it. Without a separator the second part is
empty. -/
def cut (sep : Glyph) (t : Text) : Text × Text :=
  (t.takeWhile (· ≠ sep), (t.dropWhile (· ≠ sep)).tail)

/-- The pieces that are not empty, for path parts. -/
def parts (sep : Glyph) (t : Text) : List Text := (split sep t).filter (· ≠ [])

/-- How a text is shown where only characters can be: a stray byte as a backslash, `udc` and its
two lower-case hexadecimal digits. -/
def display (t : Text) : Text :=
  t.flatMap fun
    | .char c => [.char c]
    | .stray low => Text.of "\\udc" ++ (Nat.toDigits 16 (0x80 + low.val)).map .char

/-- A run of stray bytes: where it begins, how long it is, and the first byte above `0x80`. -/
structure StrayRun where
  start : Nat
  length : Nat
  first : Fin 128
  deriving DecidableEq, Repr

def isStray : Glyph → Bool
  | .char _ => false
  | .stray _ => true

/-- The first run of stray bytes, if the text is more than characters. -/
def strayRun? (t : Text) : Option StrayRun :=
  match t.dropWhile (!isStray ·) with
  | .stray first :: rest =>
    some ⟨(t.takeWhile (!isStray ·)).length, (rest.takeWhile isStray).length + 1, first⟩
  | _ => none

/-- The text as a string, as it is shown. -/
def toString (t : Text) : String := String.ofList (t.display.filterMap Glyph.char?)

theorem split_ne_nil (sep : Glyph) (t : Text) : split sep t ≠ [] := by
  cases t with
  | nil => simp [split]
  | cons g t =>
    rw [split]
    split
    · simp
    · split <;> simp

theorem joined_split (sep : Glyph) (t : Text) : joined [sep] (split sep t) = t := by
  induction t with
  | nil => rfl
  | cons g t ih =>
    rw [split]
    match h : split sep t with
    | [] => exact absurd h (split_ne_nil sep t)
    | [p] =>
      rw [h] at ih
      by_cases hg : g = sep <;> simp_all [joined]
    | p :: q :: rest =>
      rw [h] at ih
      by_cases hg : g = sep <;> simp_all [joined]

theorem mem_split {sep : Glyph} {t piece : Text} (h : piece ∈ split sep t) : sep ∉ piece := by
  induction t generalizing piece with
  | nil => simp_all [split]
  | cons g t ih =>
    rw [split] at h
    split at h
    · rcases List.mem_cons.1 h with rfl | h
      · simp
      · exact ih h
    · next hg =>
      match hs : split sep t with
      | [] => exact absurd hs (split_ne_nil sep t)
      | p :: rest =>
        rw [hs] at h ih
        rcases List.mem_cons.1 h with rfl | h
        · have := ih (List.mem_cons_self)
          simp [this, Ne.symm hg]
        · exact ih (List.mem_cons_of_mem _ h)

theorem mem_joined {sep : Text} {g : Glyph} {pieces : List Text} (h : g ∈ joined sep pieces) :
    g ∈ sep ∨ ∃ piece ∈ pieces, g ∈ piece := by
  fun_induction joined sep pieces with
  | case1 => simp at h
  | case2 t => exact .inr ⟨t, by simp, h⟩
  | case3 t u rest ih =>
    rcases List.mem_append.1 h with h | h
    · rcases List.mem_append.1 h with h | h
      · exact .inr ⟨t, by simp, h⟩
      · exact .inl h
    · rcases ih h with h | ⟨piece, hp, h⟩
      · exact .inl h
      · exact .inr ⟨piece, List.mem_cons_of_mem _ hp, h⟩

theorem includes_iff {part t : Text} : includes part t = true ↔ part <:+: t := by
  induction t with
  | nil => simp [includes, List.infix_nil]
  | cons g t ih => rw [includes, Bool.or_eq_true, List.isPrefixOf_iff_prefix, ih, List.infix_cons_iff]

end Text

end RefSweep
