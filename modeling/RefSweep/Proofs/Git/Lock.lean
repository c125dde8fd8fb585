import RefSweep.Git.Lock
import RefSweep.Proofs.Text.Space

/-!
# Messages about a lock

A message is about a lock if it holds one of a few phrases (`isLockMessage_iff`). None of them
begins or ends with white space, so that a message is about a lock whether or not it has been
stripped (`isLockMessage_strip`).
-/

namespace RefSweep.Git

variable {t phrase : Text}

/-- The phrases that speak of a lock. One of them has a gap, which is filled on one line. -/
inductive LockPhrase : Text → Prop where
  | reference : LockPhrase "cannot lock ref"
  | taken : LockPhrase ".lock: file exists"
  | quotedTaken : LockPhrase ".lock': file exists"
  | uncreated (gap : Text) (line : Glyph.char '\n' ∉ gap) :
      LockPhrase (Text.of "unable to create " ++ gap ++ Text.of ".lock")
  | collecting : LockPhrase "gc is already running"

/-- The search for a failed creation looks for the name of a lock file on the line that the phrase
begins. -/
theorem beginsWithCreate_iff : beginsWithCreate t ↔
    ∃ gap, Glyph.char '\n' ∉ gap ∧
      Text.of "unable to create " ++ gap ++ Text.of ".lock" <+: t := by
  unfold beginsWithCreate
  dsimp only
  rw [Bool.and_eq_true, Text.startsWith, List.isPrefixOf_iff_prefix, Text.includes_iff]
  constructor
  · -- the phrase ends on the line it begins on, so no line feed lies in between
    rintro ⟨⟨line, rfl⟩, gap, more, hline⟩
    rw [List.drop_left] at hline
    refine ⟨gap, fun hmem => ?_, ?_⟩
    · have hfeed : Glyph.char '\n' ∈ line.takeWhile (· ≠ Glyph.char '\n') := by
        rw [← hline]
        simp [hmem]
      exact absurd (List.mem_takeWhile_imp hfeed) (by decide)
    · rw [List.append_assoc, List.prefix_append_right_inj]
      exact (hline ▸ List.prefix_append _ more).trans (List.takeWhile_prefix _)
  · rintro ⟨gap, hgap, rest, rfl⟩
    refine ⟨⟨gap ++ Text.of ".lock" ++ rest, by simp⟩, gap,
      rest.takeWhile (· ≠ Glyph.char '\n'), ?_⟩
    have hline : ∀ g ∈ gap ++ Text.of ".lock", decide (g ≠ Glyph.char '\n') = true := by
      intro g hg
      refine decide_eq_true fun heq => ?_
      obtain hmem | hmem := List.mem_append.1 (heq ▸ hg)
      · exact hgap hmem
      · exact absurd hmem (by decide)
    have hrest : Text.of "unable to create " ++ gap ++ Text.of ".lock" ++ rest =
        Text.of "unable to create " ++ (gap ++ Text.of ".lock" ++ rest) := by simp
    rw [hrest, List.drop_left, List.takeWhile_append_of_pos hline]

/-- The failed creation may be told of anywhere in the text, with the lock file on the same line. -/
theorem namesLockAfterCreate_iff : namesLockAfterCreate t ↔
    ∃ gap, Glyph.char '\n' ∉ gap ∧
      Text.of "unable to create " ++ gap ++ Text.of ".lock" <:+: t := by
  induction t with
  | nil =>
    refine ⟨nofun, fun ⟨gap, _, h⟩ => ?_⟩
    have hlength := h.length_le
    simp [Text.of] at hlength
  | cons g t ih =>
    rw [namesLockAfterCreate, Bool.or_eq_true, ih, beginsWithCreate_iff]
    simp only [List.infix_cons_iff, and_or_left, exists_or]

/-- A message is about a lock exactly if one of the five phrases occurs in it, with letter case
ignored. -/
theorem isLockMessage_iff : isLockMessage t ↔
    ∃ phrase, LockPhrase phrase ∧ phrase <:+: t.map Glyph.caseless := by
  unfold isLockMessage
  dsimp only
  simp only [Bool.or_eq_true, Text.includes_iff, namesLockAfterCreate_iff]
  -- the five ways of counting as a lock are the five phrases
  constructor
  · rintro ((((h | h) | h) | ⟨gap, hgap, h⟩) | h)
    · exact ⟨_, .reference, h⟩
    · exact ⟨_, .taken, h⟩
    · exact ⟨_, .quotedTaken, h⟩
    · exact ⟨_, .uncreated gap hgap, h⟩
    · exact ⟨_, .collecting, h⟩
  · rintro ⟨phrase, hphrase, h⟩
    cases hphrase with
    | reference => exact .inl (.inl (.inl (.inl h)))
    | taken => exact .inl (.inl (.inl (.inr h)))
    | quotedTaken => exact .inl (.inl (.inr h))
    | uncreated gap hgap => exact .inl (.inr ⟨gap, hgap, h⟩)
    | collecting => exact .inr h

/-- No such phrase begins or ends with white space, so stripping a message takes none away. -/
theorem LockPhrase.bounded (h : LockPhrase phrase) : phrase.Bounded := by
  cases h with
  | uncreated gap =>
    refine ⟨⟨'u', Text.of "nable to create " ++ gap ++ Text.of ".lock", rfl, by decide⟩,
      Text.of "unable to create " ++ gap ++ Text.of ".loc", 'k', ?_, by decide⟩
    have hend : Text.of ".lock" = Text.of ".loc" ++ [.char 'k'] := rfl
    rw [hend, ← List.append_assoc]
  | reference => exact ⟨⟨_, _, rfl, by decide⟩, Text.of "cannot lock re", 'f', rfl, by decide⟩
  | taken => exact ⟨⟨_, _, rfl, by decide⟩, Text.of ".lock: file exist", 's', rfl, by decide⟩
  | quotedTaken =>
    exact ⟨⟨_, _, rfl, by decide⟩, Text.of ".lock': file exist", 's', rfl, by decide⟩
  | collecting =>
    exact ⟨⟨_, _, rfl, by decide⟩, Text.of "gc is already runnin", 'g', rfl, by decide⟩

/-- White space around a message does not matter. -/
theorem isLockMessage_strip (t : Text) : isLockMessage t.strip = isLockMessage t := by
  rw [Bool.eq_iff_iff, isLockMessage_iff, isLockMessage_iff]
  exact exists_congr fun phrase => and_congr_right fun hphrase =>
    Text.isInfix_strip_iff hphrase.bounded

end RefSweep.Git
