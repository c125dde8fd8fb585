import Mathlib.Algebra.Order.BigOperators.Group.List
import Mathlib.Algebra.Order.Ring.Nat
import RefSweep.Path
import RefSweep.Proofs.Text.Percent
import RefSweep.Proofs.Text.Split

/-!
# Paths and their texts

A path that was read is proper: no part of it is empty, a single dot, or holds a slash. Writing such
a path and reading it gives it back (`Proper.parse_text`). Reading drops slashes and dots, so that
the parts of a path take no more glyphs of ASCII than the text did (`extent_parse`).
-/

namespace RefSweep

/-! ## Pieces with a separator after each -/

namespace Text

variable {sep : Glyph} {pieces pieces' : List Text}

/-- How many glyphs of ASCII the pieces take, with a separator after each. -/
def extent (pieces : List Text) : Nat := (pieces.map fun piece => ascii piece + 1).sum

theorem extent_cons (piece : Text) (pieces : List Text) :
    extent (piece :: pieces) = ascii piece + 1 + extent pieces := by simp [extent]

/-- The pieces of two lists take as much as both lists do. -/
theorem extent_append (pieces pieces' : List Text) :
    extent (pieces ++ pieces') = extent pieces + extent pieces' := by simp [extent]

theorem extent_reverse (pieces : List Text) : extent pieces.reverse = extent pieces := by
  simp [extent]

theorem extent_le_of_sublist (h : pieces.Sublist pieces') : extent pieces ≤ extent pieces' :=
  (h.map _).sum_le_sum fun _ _ => Nat.zero_le _

/-- Joined pieces have one separator less than pieces with a separator after each, as none stands
after the last. -/
theorem ascii_joined (hsep : sep.isAscii) (hne : pieces ≠ []) :
    ascii (joined [sep] pieces) + 1 = extent pieces := by
  fun_induction joined [sep] pieces with
  | case1 => exact absurd rfl hne
  | case2 t => simp [extent]
  | case3 t u rest ih =>
    have hrest := ih (List.cons_ne_nil u rest)
    have hone : ascii [sep] = 1 := by rw [ascii_cons, if_pos hsep]; rfl
    rw [ascii_append, ascii_append, extent_cons, hone]
    omega

/-- The glyphs of each piece are glyphs of what the pieces are joined to. -/
theorem mem_joined_of_mem {sep piece : Text} {g : Glyph} (hpiece : piece ∈ pieces)
    (hg : g ∈ piece) : g ∈ joined sep pieces := by
  fun_induction joined sep pieces with
  | case1 => cases hpiece
  | case2 t => exact List.mem_singleton.1 hpiece ▸ hg
  | case3 t u rest ih =>
    obtain rfl | hpiece := List.mem_cons.1 hpiece
    · exact List.mem_append_left _ (List.mem_append_left _ hg)
    · exact List.mem_append_right _ (ih hpiece)

theorem extent_split (hsep : sep.isAscii) (t : Text) : extent (split sep t) = ascii t + 1 := by
  rw [← ascii_joined hsep (split_ne_nil sep t), joined_split]

end Text

/-- How many slashes stand for the root. -/
def PathRoot.slashes : PathRoot → Nat
  | workingDirectory => 0
  | slash => 1
  | doubleSlash => 2

namespace Path

variable {p : Path} {t : Text}

/-- A path that begins with no slash starts in the working directory. -/
theorem rootOf_cons {g : Glyph} (hg : g ≠ '/') (rest : Text) :
    rootOf (g :: rest) = .workingDirectory := by
  unfold rootOf
  split <;> simp_all

/-- One slash in front stands for the root. -/
theorem rootOf_slash {g : Glyph} (hg : g ≠ '/') (rest : Text) :
    rootOf (.char '/' :: g :: rest) = .slash := by
  unfold rootOf
  split <;> simp_all

/-- Exactly two slashes in front are a root of their own; three or more would be one again. -/
theorem rootOf_doubleSlash {g : Glyph} (hg : g ≠ '/') (rest : Text) :
    rootOf (.char '/' :: .char '/' :: g :: rest) = .doubleSlash := by
  unfold rootOf
  split
  next heq => exact absurd (List.cons.inj (List.cons.inj (List.cons.inj heq).2).2).1 hg
  · rfl
  next hone heq => exact (hone _ (List.cons.inj heq).2.symm).elim
  next hnone => exact (hnone _ rfl).elim

/-- The parts are names: not empty, no single dot, without a slash. -/
structure Proper (p : Path) : Prop where
  nonempty : ∀ part ∈ p.parts, part ≠ []
  named : ∀ part ∈ p.parts, part ≠ Text.of "."
  whole : ∀ part ∈ p.parts, Glyph.char '/' ∉ part

/-- The parts of a path are the pieces between its slashes, without the empty ones and without
single dots. -/
theorem parse_parts (t : Text) : (parse t).parts =
    ((Text.split '/' t).filter (· ≠ [])).filter (· ≠ Text.of ".") := rfl

/-- A slash in front is no part. -/
theorem parse_slash (t : Text) : (parse (.char '/' :: t)).parts = (parse t).parts := by
  simp [parse_parts, Text.split]

/-- Whatever the text was, the path that is read from it is proper. -/
theorem proper_parse (t : Text) : (parse t).Proper := by
  refine ⟨fun part h => ?_, fun part h => ?_, fun part h => ?_⟩ <;>
    simp only [parse_parts, List.mem_filter, decide_eq_true_eq] at h
  · exact h.1.2
  · exact h.2
  · exact Text.mem_split h.1.1

namespace Proper

/-- A name that could be a part makes a proper path of what it is put behind. -/
theorem child (h : p.Proper) {name : Text} (hne : name ≠ []) (hdot : name ≠ Text.of ".")
    (hslash : Glyph.char '/' ∉ name) : (p.child name).Proper := by
  refine ⟨?_, ?_, ?_⟩ <;> intro part hpart <;>
    obtain hpart | hpart := List.mem_append.1 hpart
  · exact h.nonempty part hpart
  · exact List.mem_singleton.1 hpart ▸ hne
  · exact h.named part hpart
  · exact List.mem_singleton.1 hpart ▸ hdot
  · exact h.whole part hpart
  · exact List.mem_singleton.1 hpart ▸ hslash

/-- What the parts are joined to begins with a glyph that is no slash. -/
theorem joined_eq_cons (h : p.Proper) (hne : p.parts ≠ []) :
    ∃ g rest, Text.joined ['/'] p.parts = g :: rest ∧ g ≠ '/' := by
  obtain ⟨first, others, hparts⟩ := List.exists_cons_of_ne_nil hne
  have hmem : first ∈ p.parts := hparts ▸ .head _
  obtain ⟨g, rest, hfirst⟩ := List.exists_cons_of_ne_nil (h.nonempty first hmem)
  have hg : g ≠ '/' := fun heq => h.whole first hmem (hfirst ▸ heq ▸ .head _)
  refine ⟨g, rest ++ (Text.joined ['/'] p.parts).drop first.length, ?_, hg⟩
  rw [hparts, hfirst]
  cases others with
  | nil => simp [Text.joined]
  | cons second others => simp [Text.joined]

/-- Reading what the parts are joined to gives the parts. -/
theorem parse_joined (h : p.Proper) : (parse (Text.joined ['/'] p.parts)).parts = p.parts := by
  rw [parse_parts]
  by_cases hne : p.parts = []
  · rw [hne]
    rfl
  · have hnonempty : p.parts.filter (· ≠ []) = p.parts :=
      List.filter_eq_self.2 fun part hpart => decide_eq_true (h.nonempty part hpart)
    have hnamed : p.parts.filter (· ≠ Text.of ".") = p.parts :=
      List.filter_eq_self.2 fun part hpart => decide_eq_true (h.named part hpart)
    rw [Text.split_joined hne h.whole, hnonempty, hnamed]

/-- Writing a proper path and reading it gives the path: the root is told from the slashes in front,
and no part is lost or split. -/
theorem parse_text (h : p.Proper) : parse p.text = p := by
  have hparts := h.parse_joined
  obtain ⟨root, parts⟩ := p
  by_cases hne : parts = []
  · subst hne
    cases root <;> rfl
  · -- the joined parts begin with no slash, so the slashes in front are those of the root
    obtain ⟨g, rest, hjoined, hg⟩ := h.joined_eq_cons hne
    dsimp only at hjoined hparts
    rw [hjoined] at hparts
    unfold parse text
    dsimp only
    rw [hjoined]
    cases root with
    | workingDirectory =>
      rw [if_neg (List.cons_ne_nil g rest)]
      exact congrArg₂ Path.mk (rootOf_cons hg rest) hparts
    | slash => exact congrArg₂ Path.mk (rootOf_slash hg rest) ((parse_slash _).trans hparts)
    | doubleSlash =>
      exact congrArg₂ Path.mk (rootOf_doubleSlash hg rest)
        ((parse_slash _).trans ((parse_slash _).trans hparts))

end Proper

/-! ## The text of a path -/

/-- The glyphs of the parts are glyphs of the text. -/
theorem mem_text {part : Text} {g : Glyph} (hpart : part ∈ p.parts) (hg : g ∈ part) :
    g ∈ p.text := by
  have hjoined : g ∈ Text.joined ['/'] p.parts := Text.mem_joined_of_mem hpart hg
  unfold text
  cases p.root with
  | workingDirectory =>
    dsimp only
    rw [if_neg (List.ne_nil_of_mem hjoined)]
    exact hjoined
  | slash => exact .tail _ hjoined
  | doubleSlash => exact .tail _ (.tail _ hjoined)

/-- The text of a path holds nothing but slashes, a dot for the working directory, and the glyphs of
the parts. -/
theorem of_mem_text {g : Glyph} (hg : g ∈ p.text) :
    g = '/' ∨ g = '.' ∨ ∃ part ∈ p.parts, g ∈ part := by
  -- between the parts there are slashes only
  have hjoined : g ∈ Text.joined ['/'] p.parts → g = '/' ∨ g = '.' ∨ ∃ part ∈ p.parts, g ∈ part :=
    fun h => by
      obtain hslash | hpart := Text.mem_joined h
      · exact .inl (List.mem_singleton.1 hslash)
      · exact .inr (.inr hpart)
  unfold text at hg
  dsimp only at hg
  split at hg
  · split at hg
    · exact .inr (.inl (List.mem_singleton.1 hg))
    · exact hjoined hg
  · obtain rfl | hg := List.mem_cons.1 hg
    · exact .inl rfl
    · exact hjoined hg
  · obtain rfl | hg := List.mem_cons.1 hg
    · exact .inl rfl
    · obtain rfl | hg := List.mem_cons.1 hg
      · exact .inl rfl
      · exact hjoined hg

/-- The text of a proper path takes as many glyphs of ASCII as its root and its parts, less one for
the separator that is not there after the last. -/
theorem Proper.ascii_text (h : p.Proper) (hne : p.parts ≠ []) :
    Text.ascii p.text + 1 = Text.extent p.parts + p.root.slashes := by
  obtain ⟨g, rest, hjoined, -⟩ := h.joined_eq_cons hne
  have hslash : Glyph.isAscii '/' = true := rfl
  have hextent := Text.ascii_joined hslash hne
  unfold text
  -- the root adds its slashes to the joined parts
  cases p.root with
  | workingDirectory =>
    dsimp only
    rw [if_neg (by rw [hjoined]; exact List.cons_ne_nil g rest)]
    exact hextent
  | slash =>
    dsimp only [PathRoot.slashes]
    rw [Text.ascii_cons, hslash, if_pos rfl]
    omega
  | doubleSlash =>
    dsimp only [PathRoot.slashes]
    rw [Text.ascii_cons, Text.ascii_cons, hslash, if_pos rfl]
    omega

/-- The text of a path with one more name is its own text, a slash and the name, unless the path is
a root and has its slashes already. -/
theorem Proper.text_child (h : p.Proper) (hne : p.parts ≠ []) (name : Text) :
    (p.child name).text = p.text ++ .char '/' :: name := by
  obtain ⟨g, rest, hjoined, -⟩ := h.joined_eq_cons hne
  have happend : Text.joined ['/'] (p.parts ++ [name]) =
      Text.joined ['/'] p.parts ++ .char '/' :: name := by
    rw [Text.joined_append _ hne (List.cons_ne_nil name []), List.append_assoc]
    rfl
  unfold text
  dsimp only [Path.child]
  rw [happend, hjoined]
  cases p.root <;> simp

/-- Reading a path takes a slash in front and one for each part. -/
theorem extent_parse (t : Text) :
    Text.extent (parse t).parts + min 1 (parse t).root.slashes ≤ Text.ascii t + 1 := by
  by_cases hroot : rootOf t = .workingDirectory
  · -- reading drops empty pieces and dots, and adds nothing
    have hparts : (parse t).parts.Sublist (Text.split '/' t) :=
      (List.filter_sublist ..).trans (List.filter_sublist ..)
    have hsplit := Text.extent_le_of_sublist hparts
    rw [Text.extent_split rfl] at hsplit
    have hslashes : (parse t).root.slashes = 0 := congrArg PathRoot.slashes hroot
    omega
  · -- before the slash in front there is an empty piece, which is no part
    obtain ⟨rest, rfl⟩ : ∃ rest, t = .char '/' :: rest := by
      unfold rootOf at hroot
      split at hroot
      · exact ⟨_, rfl⟩
      · exact ⟨_, rfl⟩
      · exact ⟨_, rfl⟩
      · exact absurd rfl hroot
    have hparts : (parse (.char '/' :: rest)).parts.Sublist (Text.split '/' rest) := by
      rw [parse_slash]
      exact (List.filter_sublist ..).trans (List.filter_sublist ..)
    have hsplit := Text.extent_le_of_sublist hparts
    rw [Text.extent_split rfl] at hsplit
    have hslash : Glyph.isAscii '/' = true := rfl
    rw [Text.ascii_cons, hslash, if_pos rfl]
    omega

end Path

end RefSweep
