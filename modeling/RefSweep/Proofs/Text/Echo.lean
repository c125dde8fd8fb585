import RefSweep.Proofs.Text.Markup

/-!
# What an escaped text shows

Rendering gives an escaped text back, except for two things: a backslash before a bracket that opens
no tag is lost (`Loses`), and a single backslash at the end is shown twice (`EndsInOne`). Main
statements: `renderFrom_escape`, what an escaped text shows whatever stands around it, and
`echoed_eq_self_iff`, which texts are shown as they are.
-/

namespace RefSweep.Markup

variable {styles : List Text} {position n k : Nat} {t u rest : Text} {g : Glyph}

/-- The text has a backslash before a bracket that opens no tag. -/
inductive Loses : Text → Prop where
  | here {t : Text} (plain : opensTag t = false) : Loses (.char '\x5c' :: .char '[' :: t)
  | later (g : Glyph) {t : Text} (rest : Loses t) : Loses (g :: t)

/-- The text ends in a backslash, and only in one. -/
def EndsInOne (t : Text) : Prop := backslashes 1 <:+ t ∧ ¬ backslashes 2 <:+ t

instance (t : Text) : Decidable (EndsInOne t) :=
  inferInstanceAs (Decidable (backslashes 1 <:+ t ∧ ¬ backslashes 2 <:+ t))

/-- What a text that follows `n` backslashes shows after escaping. -/
def echoAfter (n : Nat) : Text → Text
  | [] => backslashes n
  | g :: t =>
    if g = '\x5c' then echoAfter (n + 1) t
    else if g = '[' && !opensTag t then backslashes (n - 1) ++ g :: echoAfter 0 t
    else backslashes n ++ g :: echoAfter 0 t

/-- What a text shows after escaping. -/
def echoed (t : Text) : Text :=
  echoAfter 0 t ++ if EndsInOne t then backslashes 1 else []

/-- The echo of a text holds glyphs of the text and backslashes. -/
theorem mem_echoAfter (h : g ∈ echoAfter n t) : g = '\x5c' ∨ g ∈ t := by
  fun_induction echoAfter n t with
  | case1 n => exact .inl (List.eq_of_mem_replicate h)
  | case2 n t ih => exact (ih h).imp_right (List.mem_cons_of_mem _)
  | case3 n first t hslash hplain ih | case4 n first t hslash hplain ih =>
    obtain hback | hmem := List.mem_append.1 h
    · exact .inl (List.eq_of_mem_replicate hback)
    · obtain rfl | hlater := List.mem_cons.1 hmem
      · exact .inr (.head _)
      · exact (ih hlater).imp_right (List.mem_cons_of_mem _)

/-- Only backslashes are shown that the text does not hold. -/
theorem mem_echoed (h : g ∈ echoed t) : g = '\x5c' ∨ g ∈ t := by
  obtain hmem | hmem := List.mem_append.1 h
  · exact mem_echoAfter hmem
  · split at hmem
    · exact .inl (List.eq_of_mem_replicate hmem)
    · cases hmem

/-! ## Backslashes -/

theorem backslashes_add (n k : Nat) : backslashes (n + k) = backslashes n ++ backslashes k :=
  List.replicate_append_replicate.symm

/-- Backslashes and one more are as many and one. -/
theorem backslashes_cons (n : Nat) (t : Text) :
    backslashes n ++ .char '\x5c' :: t = backslashes (n + 1) ++ t := by
  rw [backslashes_add, List.append_assoc]
  rfl

/-- What ends in backslashes ends in them from the last other glyph on. -/
theorem isSuffix_append_cons (hslash : g ≠ '\x5c') (s : Text) :
    backslashes k <:+ s ++ g :: t ↔ backslashes k <:+ t := by
  have hother : g ∉ backslashes k := fun hmem => hslash (List.eq_of_mem_replicate hmem)
  constructor
  · intro h
    obtain hshort | hlong := List.suffix_or_suffix_of_suffix h (List.suffix_append s (g :: t))
    · obtain heq | hin := List.suffix_cons_iff.1 hshort
      · exact absurd (heq ▸ .head t) hother
      · exact hin
    · exact absurd (hlong.subset (.head t)) hother
  · exact fun h => (h.trans (List.suffix_cons g t)).trans (List.suffix_append s (g :: t))

theorem endsInOne_append_cons (hslash : g ≠ '\x5c') (s : Text) :
    EndsInOne (s ++ g :: t) ↔ EndsInOne t := by
  rw [EndsInOne, EndsInOne, isSuffix_append_cons hslash, isSuffix_append_cons hslash]

/-- Escaping changes nothing at the end of a text. -/
theorem endsInOne_escapeAfter (n : Nat) (t : Text) :
    EndsInOne (escapeAfter n t) ↔ EndsInOne (backslashes n ++ t) := by
  fun_induction escapeAfter n t with
  | case1 n => rw [List.append_nil]
  | case2 n t ih => rw [ih, backslashes_cons]
  | case3 n g t hslash hopens ih =>
    rw [endsInOne_append_cons hslash, endsInOne_append_cons hslash]
    exact ih
  | case4 n g t hslash hopens ih =>
    rw [endsInOne_append_cons hslash, endsInOne_append_cons hslash]
    exact ih

/-- Escaping a text comes to two things: what is put before brackets, and one backslash behind a
text that ends in exactly one. -/
theorem escape_eq (t : Text) :
    escape t = escapeAfter 0 t ++ if EndsInOne t then backslashes 1 else [] := by
  have hends : (escapeAfter 0 t).endsWith (backslashes 1) &&
      !(escapeAfter 0 t).endsWith (backslashes 2) ↔ EndsInOne t := by
    rw [Bool.and_eq_true, Bool.not_eq_true', ← Bool.not_eq_true, Text.endsWith, Text.endsWith,
      List.isSuffixOf_iff_suffix, List.isSuffixOf_iff_suffix]
    exact endsInOne_escapeAfter 0 t
  unfold escape
  dsimp only
  by_cases h : EndsInOne t
  · rw [if_pos (hends.2 h), if_pos h]
  · rw [if_neg (mt hends.1 h), if_neg h, List.append_nil]

/-! ## Rendering -/

/-- What stands after an escaped text and does not act on it: it begins with a plain glyph, if with
any, and closes no bracket that the text may leave open. -/
structure Apart (rest : Text) : Prop where
  begins : ∀ g u, rest = g :: u → g ≠ '\x5c' ∧ g ≠ '['
  closes : Markup.closes rest = false

theorem Apart.nil : Apart [] := ⟨nofun, rfl⟩

/-- What stands apart from the backslashes before it makes them plain. -/
theorem renderFrom_apart (h : Apart rest) : renderFrom styles position (.after n) rest =
    renderFrom.shown (backslashes n) (renderFrom styles position (.after 0) rest) := by
  cases rest with
  | nil =>
    rw [renderFrom, renderFrom]
    exact congrArg Except.ok (List.append_nil _).symm
  | cons g u =>
    obtain ⟨hslash, hbracket⟩ := h.begins g u rfl
    rw [renderFrom_of_ne hslash hbracket, renderFrom_of_ne hslash hbracket,
      renderFrom.shown_shown]
    rfl

/-- What stands apart from a text may follow any number of backslashes. -/
theorem Follows.of_apart (h : Apart rest) (hrest : Showable styles rest) : Follows styles rest := by
  intro position n
  rw [renderFrom_apart h]
  exact renderFrom.shown_ok (hrest position)

/-- A text that closes a bracket does so whatever comes after it. -/
theorem closes_append_of_closes (h : closes t = true) : closes (t ++ rest) = true := by
  fun_induction closes t with
  | case1 => cases h
  | case2 t => rfl
  | case3 t => cases h
  | case4 g t hclose hopen ih =>
    rw [List.cons_append, closes, if_neg hclose, if_neg hopen]
    exact ih h

/-- A bracket that opens a tag still does after escaping, as nothing is put into the tag. -/
theorem opensTag_append (h : opensTag t = true) : opensTag (escapeAfter 0 t ++ rest) = true := by
  cases t with
  | nil => cases h
  | cons g u =>
    obtain ⟨hslash, hbracket, hcloses⟩ := of_opensTag_cons h
    rw [escapeAfter, if_neg hslash, if_neg (by simp [hbracket])]
    show opensTag (g :: (escapeAfter 0 u ++ rest)) = true
    rw [opensTag, closes_escapeAfter, closes_append_of_closes hcloses, Bool.and_true]
    exact (Bool.and_eq_true_iff.1 h).1

/-- What an escaped text shows, and then what stands after it: the text itself but for the
backslashes that it loses, as long as nothing after it reaches back. -/
theorem renderFrom_escapeAfter (hrest : Apart rest) (k : Nat) :
    ∃ position', renderFrom styles position (.after 0)
        (escapeAfter n t ++ (backslashes k ++ rest)) =
      renderFrom.shown (echoAfter n t ++ backslashes k)
        (renderFrom styles position' (.after 0) rest) := by
  have hcloses : Markup.closes (backslashes k ++ rest) = false := by
    rw [closes_backslashes]
    exact hrest.closes
  fun_induction escapeAfter n t generalizing position with
  | case1 n =>
    refine ⟨position + n + k, ?_⟩
    rw [echoAfter, renderFrom_backslashes, renderFrom_backslashes, renderFrom_apart hrest,
      Nat.zero_add, backslashes_add]
  | case2 n t ih =>
    rw [echoAfter, if_pos rfl]
    exact ih
  | case3 n g t hslash hopens ih =>
    -- the backslashes are odd in number, so that the bracket is shown behind half of them
    obtain ⟨hbracket, hopens⟩ := Bool.and_eq_true_iff.1 hopens
    have hbracket : g = '[' := of_decide_eq_true hbracket
    obtain ⟨position', hmore⟩ := @ih (position + (2 * n + 1) + 1)
    refine ⟨position', ?_⟩
    rw [echoAfter, if_neg hslash, if_neg (by simp [hopens]), List.append_assoc,
      renderFrom_backslashes, List.cons_append, renderFrom, if_neg hslash, if_pos hbracket,
      if_pos (opensTag_append hopens), if_pos (by omega), hmore, renderFrom.shown_shown]
    have hhalf : (0 + (2 * n + 1)) / 2 = n := by omega
    rw [hhalf]
    simp
  | case4 n g t hslash hopens ih =>
    obtain ⟨position', hmore⟩ := @ih (position + n + 1)
    refine ⟨position', ?_⟩
    rw [echoAfter, if_neg hslash, List.append_assoc, renderFrom_backslashes, List.cons_append,
      renderFrom, if_neg hslash, Nat.zero_add, hmore]
    by_cases hbracket : g = '['
    · -- no tag: one backslash is taken away
      have hplain : opensTag t = false := by simpa [hbracket] using hopens
      rw [if_pos hbracket, opensTag_escapeAfter hcloses hplain, if_neg Bool.false_ne_true,
        if_pos (by simp [hbracket, hplain]), renderFrom.shown_shown]
      simp
    · rw [if_neg hbracket, if_neg (by simp [hbracket]), renderFrom.shown_shown]
      simp

/-- An escaped text shows its echo, and what stands apart from it is then read as if it stood alone,
at another position. -/
theorem renderFrom_escape (hrest : Apart rest) (styles : List Text) (position : Nat) (t : Text) :
    ∃ position', renderFrom styles position (.after 0) (escape t ++ rest) =
      renderFrom.shown (echoed t) (renderFrom styles position' (.after 0) rest) := by
  rw [escape_eq, echoed, List.append_assoc]
  split
  · exact renderFrom_escapeAfter hrest 1
  · exact renderFrom_escapeAfter hrest 0

/-! ## Texts that are shown as they are -/

/-- A text loses a backslash at its first glyph, if a bracket that opens no tag follows it, or
further on. -/
theorem loses_cons_iff : Loses (g :: t) ↔
    (g = '\x5c' ∧ ∃ u, t = .char '[' :: u ∧ opensTag u = false) ∨ Loses t := by
  constructor
  · intro h
    cases h with
    | here plain => exact .inl ⟨rfl, _, rfl, plain⟩
    | later _ rest => exact .inr rest
  · rintro (⟨rfl, u, rfl, plain⟩ | h)
    · exact .here plain
    · exact .later g h

/-- Backslashes alone lose none. -/
theorem not_loses_backslashes (n : Nat) : ¬ Loses (backslashes n) := by
  induction n with
  | zero => exact nofun
  | succ n ih =>
    intro h
    obtain ⟨-, u, hbracket, -⟩ | hrest := loses_cons_iff.1 h
    · have hmem : Glyph.char '[' ∈ List.replicate n (Glyph.char '\x5c') := hbracket ▸ .head u
      exact absurd (List.eq_of_mem_replicate hmem) (by decide)
    · exact ih hrest

/-- Of backslashes before another glyph one is lost if that is a bracket that opens no tag. -/
theorem loses_backslashes_cons (hslash : g ≠ '\x5c') (n : Nat) :
    Loses (backslashes n ++ g :: t) ↔ (n ≠ 0 ∧ g = '[' ∧ opensTag t = false) ∨ Loses t := by
  induction n with
  | zero =>
    have hiff : Loses (g :: t) ↔ Loses t := by
      rw [loses_cons_iff, or_iff_right fun h => hslash h.1]
    simpa [backslashes] using hiff
  | succ n ih =>
    have hcons : backslashes (n + 1) ++ g :: t = .char '\x5c' :: (backslashes n ++ g :: t) := rfl
    rw [hcons, loses_cons_iff, ih]
    -- only the last backslash stands in front of the glyph; the others stand in front of one
    cases n with
    | zero =>
      have hfirst : (∃ u, backslashes 0 ++ g :: t = .char '[' :: u ∧ opensTag u = false) ↔
          g = '[' ∧ opensTag t = false := by
        constructor
        · rintro ⟨u, heq, plain⟩
          obtain ⟨hbracket, rfl⟩ := List.cons.inj heq
          exact ⟨hbracket, plain⟩
        · rintro ⟨rfl, plain⟩
          exact ⟨t, rfl, plain⟩
      simp only [hfirst, ne_eq, not_true_eq_false, false_and, false_or, true_and, Nat.zero_add,
        Nat.succ_ne_zero, not_false_eq_true]
    | succ n =>
      have hfirst : ¬ ∃ u, backslashes (n + 1) ++ g :: t = .char '[' :: u ∧ opensTag u = false := by
        rintro ⟨u, heq, -⟩
        exact absurd (List.cons.inj heq).1 (by decide)
      simp only [hfirst, and_false, false_or, ne_eq, Nat.succ_ne_zero, not_false_eq_true, true_and]

/-- What is put behind a text does not make up for what it loses, so a line shows a text as it is
exactly if the text alone would be. -/
theorem echoAfter_append_eq_iff (n : Nat) (t more : Text) :
    echoAfter n t ++ more = backslashes n ++ t ↔ ¬ Loses (backslashes n ++ t) ∧ more = [] := by
  fun_induction echoAfter n t with
  | case1 n => simp [not_loses_backslashes]
  | case2 n t ih =>
    rw [backslashes_cons]
    exact ih
  | case3 n g t hslash hplain ih =>
    obtain ⟨rfl, hopens⟩ : g = '[' ∧ opensTag t = false := by simpa using hplain
    rw [loses_backslashes_cons hslash]
    cases n with
    | zero => simpa [backslashes] using ih
    | succ n =>
      -- the bracket stands where a backslash should
      have hother : backslashes n ++ .char '[' :: echoAfter 0 t ++ more ≠
          backslashes (n + 1) ++ .char '[' :: t := by
        intro heq
        rw [backslashes_add, List.append_assoc, List.append_assoc,
          List.append_cancel_left_eq] at heq
        exact absurd (List.cons.inj heq).1 (by decide)
      refine ⟨fun heq => absurd heq hother, fun h => absurd (.inl ?_) h.1⟩
      exact ⟨Nat.succ_ne_zero n, rfl, hopens⟩
  | case4 n g t hslash hplain ih =>
    have hkept : ¬ (n ≠ 0 ∧ g = '[' ∧ opensTag t = false) := fun h => hplain (by simp [h.2])
    have hrest : Loses (backslashes n ++ g :: t) ↔ Loses t := by
      rw [loses_backslashes_cons hslash, or_iff_right hkept]
    rw [hrest, List.append_assoc, List.cons_append, List.append_cancel_left_eq, List.cons.injEq,
      and_iff_right rfl]
    exact ih

/-- A text is its own echo exactly if it has no backslash before a bracket that opens no tag and
does not end in exactly one backslash. -/
theorem echoed_eq_self_iff (t : Text) : echoed t = t ↔ ¬ Loses t ∧ ¬ EndsInOne t := by
  have h := echoAfter_append_eq_iff 0 t (if EndsInOne t then backslashes 1 else [])
  rw [echoed]
  refine h.trans (and_congr_right fun _ => ?_)
  split
  next hends => exact ⟨nofun, fun hnot => absurd hends hnot⟩
  next hends => exact ⟨fun _ => hends, fun _ => rfl⟩

end RefSweep.Markup
