import RefSweep.Proofs.Text.Split
import RefSweep.Text.Digits
import RefSweep.Text.Terminal

/-!
# What a terminal shows of a text

A text without control characters is shown as it is (`onTerminal_plain`), and in front of any other
text it still comes first (`isPrefix_onTerminal`). A text with stray bytes is shown with a backslash
for each of them; `display_inj`, texts without backslashes of their own can be told apart by what is
shown.
-/

namespace RefSweep.Text

variable {t u : Text} {g : Glyph}

/-- The text holds no control character before the space. -/
def Plain (t : Text) : Prop := ∀ g ∈ t, 0x20 ≤ g.code

instance : DecidablePred Plain := fun t => inferInstanceAs (Decidable (∀ g ∈ t, 0x20 ≤ g.code))

theorem Plain.append (ht : Plain t) (hu : Plain u) : Plain (t ++ u) := fun g hg =>
  (List.mem_append.1 hg).elim (ht g) (hu g)

theorem Plain.notMem (h : Plain t) (hg : g.code < 0x20) : g ∉ t := fun hmem => by
  have := h g hmem
  omega

/-! ## Terminal lines -/

/-- The first field is shown as it is; only the ones after tabs are moved. -/
theorem isPrefix_aligned (column : Nat) (field : Text) (rest : List Text) :
    field <+: aligned column (field :: rest) := by
  cases rest with
  | nil => exact List.prefix_rfl
  | cons next rest =>
    rw [aligned]
    simp only [List.append_assoc]
    exact List.prefix_append ..

/-- Joined pieces begin with the first of them. -/
theorem isPrefix_joined (sep piece : Text) (rest : List Text) :
    piece <+: joined sep (piece :: rest) := by
  cases rest with
  | nil => exact List.prefix_rfl
  | cons next rest =>
    rw [joined, List.append_assoc]
    exact List.prefix_append ..

/-- Nothing is taken out of a plain text. -/
theorem Plain.filter (h : Plain t) : t.filter (fun g => !g.within [(7, 8), (11, 13)]) = t := by
  refine List.filter_eq_self.2 fun g hg => ?_
  have hcode := h g hg
  simp only [Glyph.within, List.any_cons, List.any_nil, Bool.or_false, Bool.not_eq_true',
    Bool.or_eq_false_iff, Bool.and_eq_false_iff, decide_eq_false_iff_not]
  omega

/-- What comes first in a text comes first on the terminal. -/
theorem isPrefix_onTerminal (h : Plain t) (u : Text) : t <+: (t ++ u).onTerminal := by
  have hfeed : Glyph.char '\n' ∉ t := h.notMem (by decide)
  have htab : Glyph.char '\t' ∉ t := h.notMem (by decide)
  unfold onTerminal withoutTabs
  rw [List.filter_append, h.filter]
  obtain ⟨line, lines, -, hlines⟩ := split_append_of_notMem hfeed
    (u.filter fun g => !g.within [(7, 8), (11, 13)])
  obtain ⟨field, fields, -, hfields⟩ := split_append_of_notMem htab line
  rw [hlines, List.map_cons, hfields]
  -- the first field of the first line begins with the text
  exact (List.prefix_append t field).trans
    ((isPrefix_aligned ..).trans (isPrefix_joined ..))

/-- A plain text looks on the terminal as it is. -/
theorem onTerminal_plain (h : Plain t) : t.onTerminal = t := by
  have hfeed : Glyph.char '\n' ∉ t := h.notMem (by decide)
  have htab : Glyph.char '\t' ∉ t := h.notMem (by decide)
  unfold onTerminal withoutTabs
  rw [h.filter, split_eq_singleton hfeed, List.map_cons, split_eq_singleton htab]
  rfl

/-! ## Stray bytes -/

/-- The form in which a stray byte is shown. -/
def strayForm (low : Fin 128) : Text :=
  Text.of "\\udc" ++ (Nat.toDigits 16 (0x80 + low.val)).map .char

@[simp] theorem display_nil : display [] = [] := rfl

@[simp] theorem display_char (c : Char) (t : Text) :
    display (.char c :: t) = .char c :: display t := rfl

@[simp] theorem display_stray (low : Fin 128) (t : Text) :
    display (.stray low :: t) = strayForm low ++ display t := rfl

/-- All stray bytes are shown in the same length, so that it is known where such a form ends. -/
theorem length_strayForm (low : Fin 128) : (strayForm low).length = 6 := by
  revert low
  decide

/-- The digits at the end give the byte. -/
theorem strayForm_inj {low low' : Fin 128} (h : strayForm low = strayForm low') : low = low' := by
  have hread : ∀ low : Fin 128,
      ((strayForm low).drop 4).foldl (fun n g => 16 * n + g.hexDigit?.getD 0) 0 =
        0x80 + low.val := by decide
  have hvalue := hread low
  rw [h, hread low'] at hvalue
  exact Fin.ext (by omega)

/-- The form of a stray byte is plain, and does not end in a backslash. -/
theorem strayForm_chars (low : Fin 128) :
    Plain (strayForm low) ∧ ¬ [.char '\x5c'] <:+ strayForm low := by
  revert low
  decide

/-- Showing stray bytes keeps a text plain. -/
theorem Plain.display (h : Plain t) : Plain t.display := by
  induction t with
  | nil => exact h
  | cons g t ih =>
    have hrest := ih fun g hg => h g (.tail _ hg)
    cases g with
    | char c => exact List.forall_mem_cons.2 ⟨h _ (.head _), hrest⟩
    | stray low => exact (strayForm_chars low).1.append hrest

/-- A character that no form of a byte holds is shown only where it is. -/
theorem char_notMem_display {c : Char} (hform : ∀ low, Glyph.char c ∉ strayForm low)
    (h : Glyph.char c ∉ t) : Glyph.char c ∉ t.display := by
  induction t with
  | nil => exact h
  | cons g t ih =>
    have hrest := ih fun hmem => h (.tail _ hmem)
    cases g with
    | char c => exact fun hmem => (List.mem_cons.1 hmem).elim (fun heq => h (heq ▸ .head _)) hrest
    | stray low => exact fun hmem => (List.mem_append.1 hmem).elim (hform low) hrest

theorem display_append (t u : Text) : display (t ++ u) = display t ++ display u :=
  List.flatMap_append

/-- A text that does not end in a backslash is not shown with one at its end. -/
theorem not_isSuffix_display (h : Glyph.char '\x5c' ∉ t) : ¬ [Glyph.char '\x5c'] <:+ t.display := by
  rcases List.eq_nil_or_concat t with rfl | ⟨front, g, rfl⟩
  · decide
  · have hg : g ≠ '\x5c' := fun heq => h (by simp [heq])
    rw [List.concat_eq_append, display_append]
    intro hend
    -- what is shown last is the last character itself, or the form of a stray byte
    cases g with
    | char c =>
      have hlast := List.suffix_of_suffix_length_le hend (List.suffix_append _ [Glyph.char c])
        (by simp)
      exact hg (List.cons.inj (hlast.eq_of_length rfl)).1.symm
    | stray low =>
      have hform : display [Glyph.stray low] = strayForm low := List.append_nil _
      rw [hform] at hend
      have hlast := List.suffix_of_suffix_length_le hend (List.suffix_append _ (strayForm low))
        (by rw [length_strayForm]; decide)
      exact (strayForm_chars low).2 hlast

/-- What is shown tells the texts apart that hold no backslash, since a stray byte is shown with
one. -/
theorem display_inj (ht : Glyph.char '\x5c' ∉ t) (hu : Glyph.char '\x5c' ∉ u)
    (h : t.display = u.display) : t = u := by
  induction t generalizing u with
  | nil =>
    cases u with
    | nil => rfl
    | cons g u => cases g <;> cases h
  | cons g t ih =>
    have ht' : Glyph.char '\x5c' ∉ t := fun hmem => ht (.tail _ hmem)
    cases u with
    | nil => cases g <;> cases h
    | cons g' u =>
      have hu' : Glyph.char '\x5c' ∉ u := fun hmem => hu (.tail _ hmem)
      -- a backslash in front tells a stray byte from a character
      cases g with
      | char c =>
        cases g' with
        | char c' =>
          obtain ⟨hchar, hrest⟩ := List.cons.inj h
          rw [hchar, ih ht' hu' hrest]
        | stray low' => exact absurd ((List.cons.inj h).1 ▸ .head t) ht
      | stray low =>
        cases g' with
        | char c' => exact absurd ((List.cons.inj h).1 ▸ .head u) hu
        | stray low' =>
          have hlength : (strayForm low).length = (strayForm low').length := by
            rw [length_strayForm, length_strayForm]
          obtain ⟨hform, hrest⟩ := List.append_inj h hlength
          rw [strayForm_inj hform, ih ht' hu' hrest]

end RefSweep.Text
