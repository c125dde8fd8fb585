import RefSweep.Text.Markup

/-!
# Escaped text in lines of markup

A line of markup is shown unless one of its tags closes nothing. `Showable` is what the rest of a
line has to be for that, read from a place without backslashes before it, and `Follows` the same
after any number of them, as an escaped text may end in some. `Shows` says what the front of a line
comes to, whatever the rest is. Main statement: `showable_escape`, an escaped text holds no tag,
whatever it says, if what comes after it does not close a bracket that the text leaves open.
-/

namespace RefSweep.Markup

variable {styles styles' : List Text} {position n : Nat} {t u rest : Text} {g : Glyph}

/-- From a place after no backslash on, with these styles open, the text is shown. -/
def Showable (styles : List Text) (t : Text) : Prop :=
  ∀ position, ∃ shown, renderFrom styles position (.after 0) t = .ok shown

/-- The text is shown also after backslashes. -/
def Follows (styles : List Text) (t : Text) : Prop :=
  ∀ position n, ∃ shown, renderFrom styles position (.after n) t = .ok shown

theorem Follows.showable (h : Follows styles t) : Showable styles t := (h · 0)

/-- What is put in front of a text that can be shown can be shown with it. -/
theorem renderFrom.shown_ok {lead : Text} {r : Except Fault Text} (h : ∃ shown, r = .ok shown) :
    ∃ shown, renderFrom.shown lead r = .ok shown := by
  obtain ⟨shown, rfl⟩ := h
  exact ⟨_, rfl⟩

/-! ## Plain glyphs -/

/-- A glyph that is neither a backslash nor an opening bracket is shown, and so are the backslashes
before it. -/
theorem renderFrom_of_ne (hslash : g ≠ '\x5c') (hbracket : g ≠ '[') :
    renderFrom styles position (.after n) (g :: t) =
      renderFrom.shown (backslashes n ++ [g]) (renderFrom styles (position + 1) (.after 0) t) := by
  rw [renderFrom, if_neg hslash, if_neg hbracket]

/-- Backslashes are counted and not shown yet, as what they come to depends on what follows them. -/
theorem renderFrom_backslashes (k : Nat) :
    renderFrom styles position (.after n) (backslashes k ++ t) =
      renderFrom styles (position + k) (.after (n + k)) t := by
  induction k generalizing position n with
  | zero => rfl
  | succ k ih =>
    have hcons : backslashes (k + 1) ++ t = .char '\x5c' :: (backslashes k ++ t) := rfl
    rw [hcons, renderFrom, if_pos rfl, ih, Nat.add_assoc, Nat.add_assoc, Nat.add_comm 1 k]

/-- What is put in front twice is put in front as one text. -/
theorem renderFrom.shown_shown (lead lead' : Text) (r : Except Fault Text) :
    renderFrom.shown lead (renderFrom.shown lead' r) = renderFrom.shown (lead ++ lead') r := by
  cases r with
  | ok t => exact congrArg Except.ok (List.append_assoc lead lead' t).symm
  | error fault => rfl

theorem Follows.nil : Follows styles [] := fun _ n => ⟨backslashes n, rfl⟩

/-- A plain glyph may follow backslashes: it shows them all, and what comes after it is read as
after none. -/
theorem Follows.cons (hslash : g ≠ '\x5c') (hbracket : g ≠ '[') (h : Showable styles t) :
    Follows styles (g :: t) := by
  intro position n
  rw [renderFrom_of_ne hslash hbracket]
  exact renderFrom.shown_ok (h _)

/-- Backslashes may stand before what may follow any number of them. -/
theorem Follows.append_backslashes (h : Follows styles t) (k : Nat) :
    Follows styles (backslashes k ++ t) := by
  intro position n
  rw [renderFrom_backslashes]
  exact h _ _

/-- What holds no opening bracket may stand before what may follow it. -/
theorem Follows.append (h : Follows styles rest) (ht : Glyph.char '[' ∉ t) :
    Follows styles (t ++ rest) := by
  induction t with
  | nil => exact h
  | cons first t ih =>
    have hfirst : first ≠ '[' := fun h => ht (h ▸ .head _)
    have hrest := ih fun h => ht (.tail first h)
    by_cases hback : first = '\x5c'
    · rw [hback]
      exact hrest.append_backslashes 1
    · exact .cons hback hfirst hrest.showable

/-! ## Brackets that open a tag -/

/-- A backslash is no bracket, so backslashes in front change nothing about what comes first, a
closing bracket or an opening one. -/
theorem closes_backslashes (k : Nat) : closes (backslashes k ++ t) = closes t := by
  induction k with
  | zero => rfl
  | succ k ih => exact ih

/-- Two texts that close no bracket close none together. The first one may end at an opening
bracket, or open none at all. -/
theorem closes_append (ht : closes t = false) (hrest : closes rest = false) :
    closes (t ++ rest) = false := by
  fun_induction closes t with
  | case1 => exact hrest
  | case2 => cases ht
  | case3 t => rfl
  | case4 g t hclose hopen ih =>
    rw [List.cons_append, closes, if_neg hclose, if_neg hopen]
    exact ih ht

/-- Backslashes that are put into a text close no bracket and open none. -/
theorem closes_escapeAfter : closes (escapeAfter n t ++ rest) = closes (t ++ rest) := by
  fun_induction escapeAfter n t with
  | case1 n => exact closes_backslashes n
  | case2 n t ih => exact ih
  | case3 n g t hslash hopens ih =>
    obtain rfl : g = '[' := by simp_all
    rw [List.append_assoc, closes_backslashes]
    rfl
  | case4 n g t hslash hopens ih =>
    rw [List.append_assoc, closes_backslashes]
    simp only [List.cons_append, closes, ih]

/-- A tag begins with a glyph of its own. -/
theorem of_opensTag_cons (h : opensTag (g :: t) = true) :
    g ≠ '\x5c' ∧ g ≠ '[' ∧ closes t = true := by
  obtain ⟨hletter, hcloses⟩ := Bool.and_eq_true_iff.1 h
  refine ⟨?_, ?_, hcloses⟩
  · rintro rfl
    exact absurd hletter (by decide)
  · rintro rfl
    exact absurd hletter (by decide)

/-- What opens a tag closes its bracket: its first glyph is no bracket itself. -/
theorem closes_of_opensTag (h : opensTag t = true) : closes t = true := by
  cases t with
  | nil => cases h
  | cons g t =>
    obtain ⟨-, hopen, hcloses⟩ := of_opensTag_cons h
    rw [closes, if_neg hopen, hcloses]
    split <;> rfl

theorem opensTag_backslash : opensTag (.char '\x5c' :: t) = false := rfl

/-- Backslashes that were read are still in front when the text is escaped, alone or doubled, so
what is escaped begins with one. -/
theorem escapeAfter_succ (n : Nat) (t : Text) :
    ∃ more, escapeAfter (n + 1) t = .char '\x5c' :: more := by
  induction t generalizing n with
  | nil => exact ⟨_, rfl⟩
  | cons g t ih =>
    rw [escapeAfter]
    split
    · exact ih (n + 1)
    · split
      · exact ⟨_, rfl⟩
      · exact ⟨_, rfl⟩

/-- A bracket that opens no tag opens none after escaping either, if what comes after the text does
not close it. -/
theorem opensTag_escapeAfter (hrest : closes rest = false) (ht : opensTag t = false) :
    opensTag (escapeAfter 0 t ++ rest) = false := by
  cases t with
  | nil =>
    cases hopens : opensTag rest with
    | false => exact hopens
    | true =>
      rw [closes_of_opensTag hopens] at hrest
      cases hrest
  | cons g t =>
    rw [escapeAfter]
    split
    · -- there is a backslash after the bracket now, or still
      obtain ⟨more, hmore⟩ := escapeAfter_succ 0 t
      rw [hmore]
      exact opensTag_backslash
    next hslash =>
      split
      · exact opensTag_backslash
      -- the first glyph stays, so the text opens a tag only if it did before or the rest closes it
      next hbracket =>
        show opensTag (g :: (escapeAfter 0 t ++ rest)) = false
        rw [opensTag] at ht ⊢
        rcases Bool.and_eq_false_iff.1 ht with hletter | hcloses
        · rw [hletter, Bool.false_and]
        · rw [closes_escapeAfter, closes_append hcloses hrest, Bool.and_false]

/-! ## Escaped text -/

/-- Escaping leaves no tag in a text: the backslashes before a bracket that would open one are odd
in number. -/
theorem showable_escapeAfter (hcloses : closes rest = false) (hrest : Follows styles rest) :
    Showable styles (escapeAfter n t ++ rest) := by
  fun_induction escapeAfter n t with
  | case1 n => exact (hrest.append_backslashes n).showable
  | case2 n t ih => exact ih
  | case3 n g t hslash hopens ih =>
    obtain ⟨hbracket, hopens⟩ := Bool.and_eq_true_iff.1 hopens
    have hbracket : g = '[' := of_decide_eq_true hbracket
    intro position
    have hodd : (0 + (2 * n + 1)) % 2 = 1 := by omega
    rw [List.append_assoc, renderFrom_backslashes, List.cons_append, renderFrom, if_neg hslash,
      if_pos hbracket, if_pos hodd]
    -- the bracket is plain text, whether or not it still opens a tag
    split <;> exact renderFrom.shown_ok (ih _)
  | case4 n g t hslash hopens ih =>
    intro position
    rw [List.append_assoc, renderFrom_backslashes, List.cons_append, renderFrom, if_neg hslash]
    split
    next hbracket =>
      have hplain : opensTag t = false := by simpa [hbracket] using hopens
      rw [opensTag_escapeAfter hcloses hplain]
      exact renderFrom.shown_ok (ih _)
    · exact renderFrom.shown_ok (ih _)

/-- An escaped text holds no tag, whatever it says, if what comes after it does not close a bracket
that it leaves open. A single backslash at its end is doubled and stays a backslash. -/
theorem showable_escape (hcloses : closes rest = false) (hrest : Follows styles rest) :
    Showable styles (escape t ++ rest) := by
  unfold escape
  dsimp only
  split
  · rw [List.append_assoc]
    exact showable_escapeAfter (by rwa [closes_backslashes]) (hrest.append_backslashes 1)
  · exact showable_escapeAfter hcloses hrest

/-! ## Texts that need no escaping -/

/-- Where a text opens no bracket, escaping puts nothing into it. -/
theorem escapeAfter_plain (ht : Glyph.char '[' ∉ t) : escapeAfter n t = backslashes n ++ t := by
  fun_induction escapeAfter n t with
  | case1 n => exact (List.append_nil _).symm
  | case2 n t ih =>
    rw [ih fun h => ht (.tail _ h), backslashes, backslashes, List.replicate_succ']
    simp
  | case3 n g t hslash hopens ih =>
    have hbracket : g = '[' := of_decide_eq_true (Bool.and_eq_true_iff.1 hopens).1
    exact absurd (hbracket ▸ .head t) ht
  | case4 n g t hslash hopens ih =>
    rw [ih fun h => ht (.tail _ h)]
    rfl

/-- What comes after a text that opens no bracket may close one. -/
theorem showable_escape_plain (ht : Glyph.char '[' ∉ t) (hrest : Follows styles rest) :
    Showable styles (escape t ++ rest) := by
  have hsame : escapeAfter 0 t = t := escapeAfter_plain ht
  unfold escape
  dsimp only
  rw [hsame]
  split
  · rw [List.append_assoc]
    exact ((hrest.append_backslashes 1).append ht).showable
  · exact (hrest.append ht).showable

/-- A text without opening brackets that does not end in a backslash is its own escaped form. -/
theorem escape_plain (ht : Glyph.char '[' ∉ t) (hend : ¬ backslashes 1 <:+ t) : escape t = t := by
  have hsame : escapeAfter 0 t = t := escapeAfter_plain ht
  have hlast : t.endsWith (backslashes 1) = false :=
    Bool.eq_false_iff.2 fun h => hend (List.isSuffixOf_iff_suffix.1 h)
  unfold escape
  dsimp only
  rw [hsame, hlast]
  rfl

/-! ## What the front of a line shows -/

/-- Read with the first styles open, the text shows the second text and leaves the other styles
open. -/
def Shows (styles : List Text) (t : Text) (styles' : List Text) (u : Text) : Prop :=
  ∀ position rest, ∃ position', renderFrom styles position (.after 0) (t ++ rest) =
    renderFrom.shown u (renderFrom styles' position' (.after 0) rest)

/-- Fronts are put together: the second begins with the styles that the first has left open. -/
theorem Shows.append {styles'' : List Text} {t' u' : Text} (h : Shows styles t styles' u)
    (h' : Shows styles' t' styles'' u') : Shows styles (t ++ t') styles'' (u ++ u') := by
  intro position rest
  obtain ⟨middle, hfirst⟩ := h position (t' ++ rest)
  obtain ⟨last, hsecond⟩ := h' middle rest
  refine ⟨last, ?_⟩
  rw [List.append_assoc, hfirst, hsecond, renderFrom.shown_shown]

/-- A text without opening brackets is shown as it is, backslashes and all, up to the plain glyph
after it. -/
theorem renderFrom_plain (ht : Glyph.char '[' ∉ t) (hslash : g ≠ '\x5c') (hbracket : g ≠ '[') :
    renderFrom styles position (.after n) (t ++ g :: rest) =
      renderFrom.shown (backslashes n ++ t ++ [g])
        (renderFrom styles (position + t.length + 1) (.after 0) rest) := by
  -- by induction on the text, with the backslashes that have been read but not shown yet
  induction t generalizing position n with
  | nil =>
    rw [List.append_nil]
    exact renderFrom_of_ne hslash hbracket
  | cons first t ih =>
    have hfirst : first ≠ '[' := fun h => ht (h ▸ .head _)
    have hrest := fun h => ht (.tail first h)
    have hposition : position + (first :: t).length + 1 = position + 1 + t.length + 1 := by
      rw [List.length_cons]
      omega
    rw [List.cons_append, hposition]
    by_cases hback : first = '\x5c'
    · rw [renderFrom, if_pos hback, ih hrest, hback, backslashes, backslashes,
        List.replicate_succ']
      simp
    · rw [renderFrom_of_ne hback hfirst, ih hrest, renderFrom.shown_shown]
      simp [backslashes]

/-- A text without a bracket shows itself as soon as a plain glyph comes after it, which makes its
last backslashes plain. -/
theorem Shows.plain (ht : Glyph.char '[' ∉ t) (hslash : g ≠ '\x5c') (hbracket : g ≠ '[') :
    Shows styles (t ++ [g]) styles (t ++ [g]) := by
  intro position rest
  rw [List.append_assoc]
  exact ⟨_, renderFrom_plain ht hslash hbracket⟩

/-- A text without brackets and backslashes is shown as it is. -/
theorem Shows.word (hbracket : Glyph.char '[' ∉ t) (hslash : Glyph.char '\x5c' ∉ t) :
    Shows styles t styles t := by
  rcases List.eq_nil_or_concat t with rfl | ⟨front, g, rfl⟩
  · intro position rest
    refine ⟨position, ?_⟩
    rw [List.nil_append]
    cases renderFrom styles position (.after 0) rest <;> rfl
  · rw [List.concat_eq_append] at hbracket hslash ⊢
    exact .plain (fun hmem => hbracket (List.mem_append_left _ hmem))
      (fun heq => hslash (by simp [heq])) (fun heq => hbracket (by simp [heq]))

/-- A tag is read up to the first closing bracket. Then the styles are those that the tag leaves
open. -/
theorem renderFrom_inTag {start : Nat} {read tag : Text} (htag : Glyph.char ']' ∉ tag)
    (hopened : opened start (read ++ tag) styles = .ok styles') :
    renderFrom styles position (.inTag start read) (tag ++ .char ']' :: rest) =
      renderFrom styles' (position + tag.length + 1) (.after 0) rest := by
  -- by induction on the tag, of which a part has been read already
  induction tag generalizing position read with
  | nil =>
    rw [List.append_nil] at hopened
    rw [List.nil_append, renderFrom, if_pos rfl, hopened]
    rfl
  | cons g tag ih =>
    have hg : g ≠ ']' := fun h => htag (h ▸ .head _)
    have hopened' : opened start (read ++ [g] ++ tag) styles = .ok styles' := by
      rwa [List.append_assoc]
    have hposition : position + (g :: tag).length + 1 = position + 1 + tag.length + 1 := by
      rw [List.length_cons]
      omega
    rw [List.cons_append, renderFrom, if_neg hg, ih (fun h => htag (.tail _ h)) hopened', hposition]

/-- A tag shows nothing, and opens or closes a style. -/
theorem Shows.tag {tag : Text} (htag : Glyph.char ']' ∉ tag)
    (hopens : ∀ rest, opensTag (tag ++ .char ']' :: rest) = true)
    (hopened : ∀ position, opened position tag styles = .ok styles') :
    Shows styles (.char '[' :: tag ++ [.char ']']) styles' [] := by
  intro position rest
  refine ⟨position + 1 + tag.length + 1, ?_⟩
  have hcut : Glyph.char '[' :: tag ++ [.char ']'] ++ rest =
      .char '[' :: (tag ++ .char ']' :: rest) := by simp
  rw [hcut, renderFrom, if_neg (by decide), if_pos rfl, if_pos (hopens rest), if_neg (by decide),
    renderFrom_inTag htag (hopened position)]
  rfl

/-- What begins with a front that shows is shown, and begins with what that front comes to. -/
theorem Shows.ok (h : Shows styles t styles' u) (hrest : Showable styles' rest) (position : Nat) :
    ∃ more, renderFrom styles position (.after 0) (t ++ rest) = .ok (u ++ more) := by
  obtain ⟨middle, heq⟩ := h position rest
  obtain ⟨more, hmore⟩ := hrest middle
  exact ⟨more, by rw [heq, hmore]; rfl⟩

/-- A front that shows takes nothing from what can be shown after it. -/
theorem Shows.showable (h : Shows styles t styles' u) (hrest : Showable styles' rest) :
    Showable styles (t ++ rest) := fun position =>
  let ⟨_, hok⟩ := h.ok hrest position
  ⟨_, hok⟩

end RefSweep.Markup
