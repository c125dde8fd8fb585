import RefSweep.Text.Cells

/-!
# Terminal lines

What a terminal is sent for a text: some control characters are left out, and a tab becomes as many
spaces as lead to the next multiple of eight cells of its line. What is no terminal is sent no
sequences that set a style. Main statement: `tab_notMem_withoutTabs`, no tab is left.
-/

namespace RefSweep.Text

/-- The cells from a column to the next multiple of eight. -/
def cellsToStop (column : Nat) : Nat := (8 - column % 8) % 8

/-- Fields from a column on, each but the last with a space after it and filled up to the next
stop. A joiner at the end of a field swallows that space, which then counts for nothing. -/
def aligned (column : Nat) : List Text → Text
  | [] => []
  | [field] => field
  | field :: next :: rest =>
    let shown := field ++ [Glyph.char ' ']
    let column := column + shown.cells
    let missing := cellsToStop column
    shown ++ List.replicate missing (.char ' ') ++ aligned (column + missing) (next :: rest)

/-- The text with spaces for its tabs. -/
def withoutTabs (t : Text) : Text :=
  joined ['\n'] ((t.split '\n').map fun line => aligned 0 (line.split '\t'))

/-- What a terminal line shows of a text: no bell, backspace, vertical tab, form feed or carriage
return, and spaces for tabs. -/
def onTerminal (t : Text) : Text := withoutTabs (t.filter fun g => !g.within [(7, 8), (11, 13)])

/-- What follows the introduction of a style, if that ends as it has to: parameters and a letter. -/
def afterStyle? (t : Text) : Option Text :=
  match t.dropWhile (·.within [(0x30, 0x39), (0x3B, 0x3B), (0x3F, 0x3F)]) with
  | g :: rest => if g.within [(0x41, 0x5A), (0x61, 0x7A)] then some rest else none
  | [] => none

theorem length_afterStyle?_lt {t rest : Text} (h : afterStyle? t = some rest) :
    rest.length < t.length := by
  have hle := (t.dropWhile_sublist
    (·.within [(0x30, 0x39), (0x3B, 0x3B), (0x3F, 0x3F)])).length_le
  rw [afterStyle?] at h
  split at h
  · next g more heq =>
    rw [heq] at hle
    split at h
    · cases h
      exact hle
    · cases h
  · cases h

/-- The text without the sequences that set a style. -/
def withoutStyling : Text → Text
  | [] => []
  | [g] => [g]
  | g :: h :: t =>
    match _ : if g = '\x1b' ∧ h = '[' then afterStyle? t else none with
    | some rest => withoutStyling rest
    | none => g :: withoutStyling (h :: t)
termination_by t => t.length
decreasing_by
  · next heq =>
    split at heq
    · have := length_afterStyle?_lt heq
      simp only [List.length_cons]
      omega
    · cases heq
  · simp

theorem tab_notMem_aligned (column : Nat) (fields : List Text)
    (h : ∀ field ∈ fields, Glyph.char '\t' ∉ field) : Glyph.char '\t' ∉ aligned column fields := by
  fun_induction aligned column fields with
  | case1 => simp
  | case2 column field => exact h field (by simp)
  | case3 column field next rest shown column' missing ih =>
    have hf := h field (by simp)
    have hr := ih fun f hf => h f (List.mem_cons_of_mem _ hf)
    simp [shown, hf, hr]

theorem tab_notMem_withoutTabs (t : Text) : Glyph.char '\t' ∉ withoutTabs t := by
  intro h
  rcases mem_joined h with h | ⟨piece, hp, h⟩
  · simp at h
  · obtain ⟨line, _, rfl⟩ := List.mem_map.1 hp
    exact tab_notMem_aligned 0 _ (fun field hf => mem_split hf) h

end RefSweep.Text
