/-!
# Lists of entries by their keys

An entry is set by replacing the one with its key where it stands, or else behind all others.
Looking up a key then finds the new value, and what it found before for every other key
(`lookup_set`).
-/

namespace RefSweep.Entries

variable {α β : Type} [BEq α] [LawfulBEq α]

theorem lookup_cons_of_ne {key q : α} (h : q ≠ key) (v : β) (entries : List (α × β)) :
    ((key, v) :: entries).lookup q = entries.lookup q := by
  rw [List.lookup_cons, beq_false_of_ne h]

variable [DecidableEq α]

theorem lookup_replaced (entries : List (α × β)) (key q : α) (v : β) :
    (entries.map fun (k, old) => if k = key then (k, v) else (k, old)).lookup q =
      if q = key then (entries.lookup q).map fun _ => v else entries.lookup q := by
  induction entries with
  | nil => simp
  | cons entry rest ih =>
    obtain ⟨k, old⟩ := entry
    rw [List.map_cons]
    by_cases hq : q = k
    -- the first entry is the one that is looked up, replaced or not
    · subst hq
      by_cases hk : q = key <;> simp [hk]
    · rw [lookup_cons_of_ne hq, ← ih]
      dsimp only
      by_cases hk : k = key
      · rw [if_pos hk, lookup_cons_of_ne hq]
      · rw [if_neg hk, lookup_cons_of_ne hq]

theorem lookup_set (entries : List (α × β)) (key q : α) (v : β) :
    (if entries.any (·.1 = key) then
        entries.map fun (k, old) => if k = key then (k, v) else (k, old)
      else entries ++ [(key, v)]).lookup q =
      if q = key then some v else entries.lookup q := by
  split
  next hthere =>
    -- an entry that is there is replaced where it stands
    rw [lookup_replaced]
    by_cases hq : q = key
    · subst hq
      obtain ⟨entry, hentry, hkey⟩ := List.any_eq_true.1 hthere
      obtain ⟨old, hold⟩ := Option.isSome_iff_exists.1
        (List.lookup_isSome_iff.2 ⟨entry, hentry, beq_iff_eq.2 (of_decide_eq_true hkey).symm⟩)
      rw [if_pos rfl, if_pos rfl, hold]
      rfl
    · rw [if_neg hq, if_neg hq]
  next hnew =>
    -- a new one comes last, behind entries of other keys
    have hnone : entries.lookup key = none := by
      refine List.lookup_eq_none_iff.2 fun entry hentry => ?_
      have hother : ¬ entry.1 = key := fun heq =>
        hnew (List.any_eq_true.2 ⟨entry, hentry, decide_eq_true heq⟩)
      exact bne_iff_ne.2 (Ne.symm hother)
    rw [List.lookup_append]
    by_cases hq : q = key
    · subst hq
      rw [hnone]
      simp
    · rw [lookup_cons_of_ne hq]
      simp [hq]

end RefSweep.Entries
