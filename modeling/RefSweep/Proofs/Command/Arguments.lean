import RefSweep.Proofs.Command.Course

/-!
# An option in front

Reading words goes on in the same way after an option that stands in front of them. Main statement:
`demand_dryRun`, with `--dry-run` in front a demand to prune becomes the one for a dry run, and
nothing else of it changes.
-/

namespace RefSweep

namespace Arguments

variable {a b : Arguments} {t : Text} {words : List Text}

/-- The arguments with the dry run asked for before all else. -/
def dry (a : Arguments) : Arguments := { a with options := (.dryRun, []) :: a.options }

theorem dry_addOption (a : Arguments) (option : Switch) (value : Text) :
    (a.addOption option value).dry = a.dry.addOption option value := rfl

/-- A word of short options is read the same way after a dry run has been asked for. -/
theorem readLetters_dry (h : a.readLetters t = .ok b) : a.dry.readLetters t = .ok b.dry := by
  fun_induction readLetters a t with
  | case1 a => rw [← Except.ok.inj h, readLetters]
  | case2 a g t option hletter ih =>
    rw [readLetters, hletter]
    exact ih h
  | case3 => cases h

/-- And so is every word that follows: asking for a dry run first changes only that one flag of the
arguments. -/
theorem readOn_dry (h : a.readOn words = .ok b) : a.dry.readOn words = .ok b.dry := by
  -- each case of reading a word reads it the same way with the flag in front, and goes on
  fun_induction readOn a words with
  | case1 a => rw [← Except.ok.inj h, readOn]
  | case2 a rest => rw [← Except.ok.inj h, readOn, if_pos rfl]; rfl
  | case3 a word rest hdash hpositional ih =>
    rw [readOn, if_neg hdash, if_pos hpositional]
    exact ih h
  | case4 | case5 => cases h
  | case6 a word rest hdash hpositional name value hcut hname hlong a' hletters ih =>
    simpa only [readOn, if_neg hdash, if_neg hpositional, hcut, hname, if_neg hlong,
      readLetters_dry hletters] using ih h
  | case7 a word rest hdash hpositional name value hcut option hname htakes hequals ih =>
    simpa only [readOn, if_neg hdash, if_neg hpositional, hcut, hname, if_pos htakes,
      if_pos hequals, dry_addOption] using ih h
  | case8 => cases h
  | case9 a word hdash hpositional name value hcut option hname htakes hequals value' rest ih =>
    simpa only [readOn, if_neg hdash, if_neg hpositional, hcut, hname, if_pos htakes,
      if_neg hequals, dry_addOption] using ih h
  | case10 => cases h
  | case11 a word rest hdash hpositional name value hcut option hname htakes hequals ih =>
    simpa only [readOn, if_neg hdash, if_neg hpositional, hcut, hname, if_neg htakes,
      if_neg hequals, dry_addOption] using ih h

/-- Words that are read without an error are read without one behind `--dry-run`, to the same
arguments with the flag set. -/
theorem read_dryRun (h : read words = .ok a) : read (Text.of "--dry-run" :: words) = .ok a.dry := by
  have hfirst : read (Text.of "--dry-run" :: words) = Arguments.empty.dry.readOn words := by
    rw [read, readOn]
    rfl
  rw [hfirst]
  exact readOn_dry h

/-! ## What the options say -/

/-- Asking for a dry run adds that one flag to those that are set. -/
@[simp] theorem has_dry (a : Arguments) (option : Switch) :
    a.dry.has option = (decide (Switch.dryRun = option) || a.has option) := rfl

/-- It leaves the value of every other option as it was. -/
theorem value?_dry (a : Arguments) (option : Switch) (h : Switch.dryRun ≠ option) :
    a.dry.value? option = a.value? option := by
  have hnone : [((.dryRun : Switch), ([] : Text))].find? (·.1 = option) = none := by simp [h]
  simp only [value?, dry, List.reverse_cons, List.find?_append, hnone, Option.or_none]

/-- It leaves the number of times any other option was given as it was. -/
theorem count_dry (a : Arguments) (option : Switch) (h : Switch.dryRun ≠ option) :
    a.dry.count option = a.count option := by
  simp [count, dry, h]

/-- Of equal options only the first can be the first with a fault. -/
theorem findSome?_eraseDups {α β : Type} [BEq α] [LawfulBEq α] (f : α → Option β) (l : List α) :
    l.eraseDups.findSome? f = l.findSome? f := by
  match l with
  | [] => rfl
  | x :: rest =>
    rw [List.eraseDups_cons, List.findSome?_cons, List.findSome?_cons]
    cases hx : f x with
    | some y => rfl
    | none =>
      -- the others that are equal to `x` are passed over too
      have hskip : (rest.filter fun y => !y == x).findSome? f = rest.findSome? f := by
        induction rest with
        | nil => rfl
        | cons y rest ih =>
          by_cases hy : (y == x) = true
          · rw [List.filter_cons_of_neg (by simp [hy]), List.findSome?_cons, eq_of_beq hy, hx, ih]
          · rw [List.filter_cons_of_pos (by simp [hy]), List.findSome?_cons, List.findSome?_cons,
              ih]
      exact (findSome?_eraseDups f _).trans hskip
termination_by l.length
decreasing_by exact Nat.lt_succ_of_le (List.length_filter_le ..)

end Arguments

namespace Request

variable {a : Arguments} {radHome : Option Text} {isFile : Text → Except Foreign Bool}
  {request : Request}

/-- The checks that come after the reading find the same fault, or none, with the flag as without
it. -/
theorem faultIn_dry (isFile : Text → Except Foreign Bool) (homeValue : Option Text) :
    faultIn a.dry isFile homeValue = faultIn a isFile homeValue := by
  funext option
  cases option with
  | backend => rw [faultIn, faultIn, a.value?_dry .backend (by decide)]
  | lockRetries => rw [faultIn, faultIn, a.value?_dry .lockRetries (by decide)]
  | home | dryRun | verbose | help => rfl

/-- So the request that is made of the arguments differs in the flag alone. -/
theorem ofArguments_dry (h : ofArguments a radHome isFile = .ok request) :
    ofArguments a.dry radHome isFile = .ok { request with dryRun := true } := by
  -- the new option is checked first and has no fault, so the first fault is the one there was
  have hfaults : ∀ homeValue, (a.dry.given ++ [Switch.home]).findSome?
      (faultIn a.dry isFile homeValue) =
        (a.given ++ [Switch.home]).findSome? (faultIn a isFile homeValue) := by
    intro homeValue
    have hfirst : faultIn a isFile homeValue .dryRun = none := rfl
    rw [faultIn_dry, List.findSome?_append, List.findSome?_append]
    refine congrArg (Option.or · _) ?_
    unfold Arguments.given
    rw [Arguments.findSome?_eraseDups, Arguments.findSome?_eraseDups, Arguments.dry, List.map_cons,
      List.findSome?_cons, hfirst]
  unfold ofArguments at h ⊢
  rw [a.value?_dry .home (by decide), a.value?_dry .backend (by decide),
    a.value?_dry .lockRetries (by decide)]
  dsimp only at h ⊢
  rw [hfaults]
  split at h
  · cases h
  · simp only [bind, Except.bind] at h ⊢
    split at h
    · cases h
    · split at h
      · cases h
      · split at h
        · cases h
        · rw [← Except.ok.inj h, a.count_dry .verbose (by decide)]
          rfl

end Request

open Command in
/-- With the option in front the words ask for a dry run of what they ask for. -/
theorem Command.demand_dryRun {words : List Text} {radHome : Option Text}
    {isFile : Text → Except Foreign Bool} {request : Request} {rid nid : Text}
    (h : demand words radHome isFile = .prune request rid nid) :
    demand (Text.of "--dry-run" :: words) radHome isFile =
      .prune { request with dryRun := true } rid nid := by
  unfold demand at h ⊢
  cases hread : Arguments.read words with
  | error fault => rw [hread] at h; cases h
  | ok arguments =>
    rw [hread] at h
    rw [Arguments.read_dryRun hread]
    dsimp only at h ⊢
    -- asking for help still takes precedence
    have hhelp : arguments.dry.has .help = arguments.has .help := rfl
    rw [hhelp]
    split at h
    · cases h
    next hno =>
      rw [if_neg hno]
      cases hrequest : Request.ofArguments arguments radHome isFile with
      | error fault => rw [hrequest] at h; cases fault <;> cases h
      | ok request' =>
        rw [hrequest] at h
        rw [Request.ofArguments_dry hrequest]
        dsimp only at h ⊢
        split at h
        next hrid hnid =>
          obtain ⟨rfl, rfl, rfl⟩ := Demand.prune.inj h
          simp only [hrid, hnid]
        · cases h

end RefSweep
