import Mathlib.Data.ENat.Lattice
import RefSweep.Proofs.Exchange
import RefSweep.Proofs.Pause

/-!
# How a retried operation proceeds

Under a policy an operation is invoked until an invocation does not meet a lock, or as often as the
policy allows. What a run of it leaves is therefore known from the invocations alone: how many there
are, that the last one decides, and that each two are parted by one pause. The pauses are counted
anew for each operation, however many went before. Main statement: `retrying_attempts`.
-/

namespace RefSweep

variable {σ α : Type}

namespace Activity

/-! ## How often an operation is invoked -/

/-- The place, from 1, of the first result that is not a lock's; infinite if there is none. -/
noncomputable def settledAt (results : Nat → Except Failure α) : ℕ∞ :=
  ⨅ i ∈ {i | metLock (endingOf (results i)) = false}, ((i + 1 : Nat) : ℕ∞)

/-- How often an operation is invoked whose pauses are all taken: until it does not meet a lock, but
not more often than the policy allows. -/
noncomputable def due (p : RetryPolicy) (a : Activity σ α) (s : σ) : ℕ∞ :=
  min (settledAt fun i => (a.invocation s i).outcome) ((max 1 p.attempts).toNat : ℕ∞)

/-- When the first attempts have all met a lock, the one that settles the matter comes after them.
-/
theorem le_settledAt {results : Nat → Except Failure α} {m : Nat}
    (h : ∀ i < m, metLock (endingOf (results i)) = true) :
    ((m + 1 : Nat) : ℕ∞) ≤ settledAt results := by
  refine le_iInf₂ fun i hi => ?_
  have hle : m ≤ i := by
    by_contra hlt
    cases (h i (Nat.lt_of_not_le hlt)).symm.trans hi
  exact_mod_cast Nat.succ_le_succ hle

theorem allowed_eq (p : RetryPolicy) : (max 1 p.attempts).toNat = p.further + 1 := by
  rw [RetryPolicy.further]
  omega

/-- The invocations end with the first one that does not meet a lock, or with the last one allowed.
-/
theorem eq_due {p : RetryPolicy} {a : Activity σ α} {s : σ} {m : Nat} (hm : m ≤ p.further)
    (hlocks : ∀ i < m, metLock (endingOf (a.invocation s i).outcome) = true)
    (hstop : m < p.further → metLock (endingOf (a.invocation s m).outcome) = false) :
    ((m + 1 : Nat) : ℕ∞) = due p a s := by
  rw [due, allowed_eq]
  apply le_antisymm
  · exact le_min (le_settledAt hlocks) (by exact_mod_cast Nat.succ_le_succ hm)
  · rcases Nat.lt_or_eq_of_le hm with hlt | heq
    · exact (min_le_left _ _).trans (iInf₂_le m (hstop hlt))
    · rw [heq]
      exact min_le_right _ _

end Activity

namespace RetryPolicy

/-- The number of the first pause of the policy that the clock refuses; infinite if there is none.
-/
noncomputable def refusedAt (p : RetryPolicy) (clock : Clock) : ℕ∞ :=
  ⨅ k ∈ {k : Nat | 1 ≤ k ∧ clock (p.pause k) ≠ none}, (k : ℕ∞)

/-- When the first pauses are all granted, the refused one comes after them. -/
theorem le_refusedAt {p : RetryPolicy} {clock : Clock} {m : Nat}
    (h : ∀ i < m, clock (p.pause (1 + i)) = none) : ((m + 1 : Nat) : ℕ∞) ≤ p.refusedAt clock := by
  refine le_iInf₂ fun k ⟨hpos, hrefused⟩ => ?_
  have hle : m + 1 ≤ k := by
    by_contra hlt
    have htaken := h (k - 1) (by omega)
    rw [show 1 + (k - 1) = k by omega] at htaken
    exact hrefused htaken
  exact_mod_cast hle

/-- The pauses between the allowed attempts, counted from the first attempt on. -/
theorem taken_of_allowed {p : RetryPolicy} {clock : Clock}
    (h : ∀ k : Nat, 1 ≤ k → (k : Int) < p.attempts → clock (p.pause k) = none) :
    ∀ i < p.further, clock (p.pause (1 + i)) = none := by
  intro i hi
  rw [further] at hi
  exact h (1 + i) (by omega) (by omega)

end RetryPolicy

namespace Activity

/-! ## Attempts -/

/-- What one operation leaves that is invoked `m + 1` times under a policy, on this clock. -/
structure Attempts (clock : Clock) (p : RetryPolicy) (a : Activity σ α) (s : σ) (m : Nat)
    (r : Run σ α) : Prop where
  /-- There are as many invocations as are due, or as there are before the first refused pause. -/
  counted : ((m + 1 : Nat) : ℕ∞) = min (due p a s) (p.refusedAt clock)
  /-- If all that were due are made, the last invocation decides. There is one pause between two
  invocations, and none after the last. -/
  decided : ((m + 1 : Nat) : ℕ∞) = due p a s →
    r.outcome = (a.invocation s m).outcome ∧ r.journal = journalOf p a s 1 m
  /-- If another one was due, the refusal of the pause before it decides. -/
  refused : ((m + 1 : Nat) : ℕ∞) < due p a s →
    ∃ f, clock (p.pause (m + 1)) = some f ∧ r.outcome = .error f ∧
      r.journal = journalOf p a s 1 m ++
        announcement (p.pause (m + 1)) (a.invocation s m).outcome
  after : r.after = (a.invocation s m).after

/-- Under a policy there is a last attempt, and it is the last for one of the reasons that
`Attempts` lists. -/
theorem retryingOn_some (clock : Clock) (p : RetryPolicy) (a : Activity σ α) (s : σ) :
    ∃ m, Attempts clock p a s m (retryingOn clock (some p) a s) := by
  obtain ⟨m, hm, hbefore, hretried⟩ := retryFrom_retried clock p a p.further 1 s
  have hlocks : ∀ i < m, metLock (endingOf (a.invocation s i).outcome) = true :=
    fun i hi => (hbefore i hi).1
  have hfirst : ((m + 1 : Nat) : ℕ∞) ≤ p.refusedAt clock :=
    RetryPolicy.le_refusedAt fun i hi => (hbefore i hi).2
  refine ⟨m, ?_⟩
  rw [retryingOn]
  generalize retryFrom clock p a 1 p.further s = r at hretried
  cases hretried with
  | decided last =>
    have hdue := eq_due hm hlocks last
    exact ⟨by rw [← hdue, min_eq_left hfirst], fun _ => ⟨rfl, rfl⟩,
      fun hlt => absurd hdue hlt.ne, rfl⟩
  | refused room locked refusal =>
    rw [Nat.add_comm 1] at refusal
    have hrefused : p.refusedAt clock = ((m + 1 : Nat) : ℕ∞) := by
      refine le_antisymm (iInf₂_le (m + 1) ⟨Nat.succ_pos m, ?_⟩) hfirst
      rw [refusal]
      exact Option.some_ne_none _
    -- the invocation after the refused pause was due: the one before met a lock
    have hdue : ((m + 1 + 1 : Nat) : ℕ∞) ≤ due p a s := by
      rw [due, allowed_eq]
      refine le_min (le_settledAt fun i hi => ?_) (by exact_mod_cast Nat.succ_le_succ room)
      rcases Nat.lt_succ_iff_lt_or_eq.1 hi with hlt | rfl
      · exact hlocks i hlt
      · exact locked
    have hlt : ((m + 1 : Nat) : ℕ∞) < due p a s :=
      lt_of_lt_of_le (by exact_mod_cast Nat.lt_succ_self (m + 1)) hdue
    refine ⟨by rw [hrefused, min_eq_right hlt.le], fun heq => absurd heq hlt.ne,
      fun _ => ⟨_, refusal, rfl, ?_⟩, rfl⟩
    rw [Nat.add_comm 1]

/-- A clock that takes the pauses between the allowed attempts refuses none that is due. -/
theorem due_le_refusedAt {clock : Clock} {p : RetryPolicy}
    (h : ∀ k : Nat, 1 ≤ k → (k : Int) < p.attempts → clock (p.pause k) = none) (a : Activity σ α)
    (s : σ) : due p a s ≤ p.refusedAt clock :=
  calc due p a s ≤ ((max 1 p.attempts).toNat : ℕ∞) := min_le_right _ _
    _ = ((p.further + 1 : Nat) : ℕ∞) := by rw [allowed_eq]
    _ ≤ p.refusedAt clock := RetryPolicy.le_refusedAt (RetryPolicy.taken_of_allowed h)

/-- Where the clock takes every pause, attempts on it are the attempts that all runs are made of. -/
theorem retryFrom_eq_obliging {clock : Clock} {p : RetryPolicy} (a : Activity σ α) {k left : Nat}
    (h : ∀ i < left, clock (p.pause (k + i)) = none) :
    retryFrom clock p a k left = retryFrom .obliging p a k left := by
  -- by induction on the attempts left: the first pause is taken, and the later ones by hypothesis
  induction left generalizing k with
  | zero => rfl
  | succ left ih =>
    have hfirst : (wait clock (p.pause k) : Activity σ Unit) = wait .obliging (p.pause k) := by
      have htaken : clock (p.pause k) = none := h 0 (Nat.succ_pos left)
      rw [wait, wait, htaken]
      rfl
    have hrest := ih (k := k + 1) fun i hi => by
      rw [show k + 1 + i = k + (i + 1) by omega]
      exact h (i + 1) (Nat.succ_lt_succ hi)
    rw [retryFrom, retryFrom, hfirst, hrest]

/-- A clock that grants every pause a policy can ask for makes no difference to what the policy
does. -/
theorem retryingOn_eq_retrying {clock : Clock} {p : RetryPolicy} (a : Activity σ α)
    (h : ∀ k : Nat, 1 ≤ k → (k : Int) < p.attempts → clock (p.pause k) = none) :
    retryingOn clock (some p) a = retrying (some p) a :=
  retryFrom_eq_obliging a (RetryPolicy.taken_of_allowed h)

/-- A lock at the first attempt only takes two attempts, if the policy allows them. -/
theorem retrying_second {p : RetryPolicy} {a : Activity σ α} {s : σ} (hfurther : 0 < p.further)
    (hfirst : metLock (endingOf (a s).outcome) = true)
    (hsecond : metLock (endingOf (a (a s).after).outcome) = false) :
    retrying (some p) a s =
      ⟨(a (a s).after).outcome, (a (a s).after).after, journalOf p a s 1 1⟩ := by
  obtain ⟨m, -, hlocks, hstop, hrun⟩ := retryFrom_attempts p a p.further 1 s
  have hone : m = 1 := by
    match m with
    | 0 => cases hfirst.symm.trans (hstop hfurther)
    | 1 => rfl
    | m + 2 => cases (hlocks 1 (by omega)).symm.trans hsecond
  subst hone
  exact hrun

/-! ## Several operations under one policy -/

/-- The operations one after another, each under the policy, and how each ended. -/
def inTurn (clock : Clock) (p : RetryPolicy) :
    List (Activity σ α) → Activity σ (List (Except Failure α))
  | [] => pure []
  | a :: rest => do
    let first ← (retryingOn clock (some p) a).attempt
    let others ← inTurn clock p rest
    pure (first :: others)

section InTurn

variable (clock : Clock) (p : RetryPolicy)

/-- Operations in turn: the first is retried to its end, and the others follow on what it leaves. -/
theorem inTurn_cons (a : Activity σ α) {rest : List (Activity σ α)} {s t : σ}
    {others : List (Except Failure α)} {journal : List Event}
    (h : inTurn clock p rest (retryingOn clock (some p) a s).after = ⟨.ok others, t, journal⟩) :
    inTurn clock p (a :: rest) s = ⟨.ok ((retryingOn clock (some p) a s).outcome :: others), t,
      (retryingOn clock (some p) a s).journal ++ journal⟩ := by
  have hothers : (inTurn clock p rest (retryingOn clock (some p) a s).after).outcome =
      .ok others := by rw [h]
  rw [inTurn, bind_of_ok rfl, attempt_apply, bind_of_ok hothers, h]
  simp

/-- Whatever operations went before, the next one proceeds as if it were the first: it finds the
state they have left, and its attempts and pauses are counted anew. -/
theorem inTurn_append (before : List (Activity σ α)) (a : Activity σ α) (s : σ) :
    ∃ earlier t journal, inTurn clock p before s = ⟨.ok earlier, t, journal⟩ ∧
      inTurn clock p (before ++ [a]) s =
        ⟨.ok (earlier ++ [(retryingOn clock (some p) a t).outcome]),
          (retryingOn clock (some p) a t).after,
          journal ++ (retryingOn clock (some p) a t).journal⟩ := by
  -- by induction on the operations before: each has ended when the next one begins
  induction before generalizing s with
  | nil =>
    have hnone : inTurn clock p [] (retryingOn clock (some p) a s).after =
        ⟨.ok ([] : List (Except Failure α)), (retryingOn clock (some p) a s).after, []⟩ := rfl
    exact ⟨[], s, [], rfl, by simpa using inTurn_cons clock p a hnone⟩
  | cons b before ih =>
    obtain ⟨earlier, t, journal, hbefore, hall⟩ := ih (retryingOn clock (some p) b s).after
    refine ⟨_, t, _, inTurn_cons clock p b hbefore, ?_⟩
    rw [List.cons_append, inTurn_cons clock p b hall]
    simp

end InTurn

/-- Under a policy an operation is invoked as often as it meets a lock and once more, but at most as
often as the policy allows and at least once, as far as the clock takes the pauses; the last
invocation decides, or the refusal of a pause; one pause parts each two invocations. This holds of
each operation of any sequence, and its pauses start over. The `k`-th pause is the number stored for
a tenth, doubled `k - 1` times and capped by the limit of the policy, or that limit where the factor
is too large to be stored. A clock that takes the pauses between the allowed attempts refuses none
that is due; and none of them is below zero, if the limit is not or if at most 1025 attempts are
allowed. -/
theorem retrying_attempts (p : RetryPolicy) :
    (∀ (clock : Clock) (a : Activity σ α) (s : σ),
      ∃ m, Attempts clock p a s m (retryingOn clock (some p) a s)) ∧
    (∀ (clock : Clock) (before : List (Activity σ α)) (a : Activity σ α) (s : σ),
      ∃ earlier t journal m run,
        inTurn clock p before s = ⟨.ok earlier, t, journal⟩ ∧ Attempts clock p a t m run ∧
        inTurn clock p (before ++ [a]) s =
          ⟨.ok (earlier ++ [run.outcome]), run.after, journal ++ run.journal⟩) ∧
    Quantity.ofRat (1 / 10) = .finite tenth ∧
    (∀ k, p.pause k = match Binary64.nearest ((2 ^ (k - 1) : Nat) : Rat) with
      | some doubled => .finite (p.waitMax.capped (tenth * doubled))
      | none => p.waitMax) ∧
    (∀ clock : Clock,
      (∀ k : Nat, 1 ≤ k → (k : Int) < p.attempts → clock (p.pause k) = none) →
      ∀ (a : Activity σ α) (s : σ), due p a s ≤ p.refusedAt clock) ∧
    ((p.waitMax.isNonneg = true ∨ p.attempts ≤ 1025) →
      ∀ k : Nat, 1 ≤ k → (k : Int) < p.attempts → (p.pause k).isNonneg = true) := by
  refine ⟨fun clock => retryingOn_some clock p, fun clock before a s => ?_, by decide +kernel,
    p.pause_eq, fun clock => due_le_refusedAt, fun hlimit k _ hk => ?_⟩
  · obtain ⟨earlier, t, journal, hbefore, hall⟩ := inTurn_append clock p before a s
    obtain ⟨m, hattempts⟩ := retryingOn_some clock p a t
    exact ⟨earlier, t, journal, m, _, hbefore, hattempts, hall⟩
  · -- at most 1025 attempts have no pause after the 1025th, which is the first that the limit alone
    -- decides
    exact RetryPolicy.isNonneg_pause (hlimit.imp_right fun hallowed => by omega)

/-- The lock is gone at the second of two attempts, and the system has taken the pause between. -/
theorem retrying_attempts_released :
    let p : RetryPolicy := ⟨2, .finite 2⟩
    let released : Activity Nat Unit := fun n =>
      ⟨if n = 0 then .error (Error.locked "delete" []) else .ok (), n + 1, []⟩
    p.waitMax.isNonneg = true ∧
      (∀ k : Nat, 1 ≤ k → (k : Int) < p.attempts → Clock.system (p.pause k) = none) ∧
      (p.pause 1).isNonneg = true ∧
      ∃ m, Attempts .system p released 0 m (retryingOn .system (some p) released 0) ∧
        ((m + 1 : Nat) : ℕ∞) = due p released 0 := by
  intro p released
  -- two attempts have one pause between them, of a tenth of a second
  have htaken : ∀ k : Nat, 1 ≤ k → (k : Int) < p.attempts → Clock.system (p.pause k) = none := by
    intro k hpos hk
    obtain rfl : k = 1 := by
      have : (k : Int) < 2 := hk
      omega
    decide +kernel
  obtain ⟨hattempts, -, -, -, hdue, hnonneg⟩ := retrying_attempts (σ := Nat) (α := Unit) p
  obtain ⟨m, hm⟩ := hattempts .system released 0
  refine ⟨rfl, htaken, hnonneg (.inl rfl) 1 (Nat.le_refl 1) (by decide), m, hm, ?_⟩
  rw [hm.counted, min_eq_left (hdue .system htaken released 0)]

/-! ## A limit below zero -/

/-- Counts its invocations, each of which meets a lock. -/
def contended : Activity Nat Unit := fun n => ⟨.error (Error.locked "delete" []), n + 1, []⟩

/-- The contended operation meets a lock however often it has been invoked. -/
theorem invocation_contended (n i : Nat) :
    contended.invocation n i = ⟨.error (Error.locked "delete" []), n + i + 1, []⟩ := by
  induction i generalizing n with
  | zero => rfl
  | succ i ih =>
    rw [invocation_succ]
    refine (ih (n + 1)).trans ?_
    rw [Nat.add_right_comm n 1 i]
    rfl

/-- A limit below zero is asked of the system as it is once 1025 attempts have met locks. It is
refused, so the 1026th attempt is due and never made. -/
theorem retrying_overdrawn :
    let p : RetryPolicy := ⟨1026, .finite (-1)⟩
    let run := retryingOn .system (some p) contended 0
    due p contended 0 = 1026 ∧ run.after = 1025 ∧
      run.outcome = .error (Foreign.runtime "sleep length must be non-negative") := by
  intro p run
  have hmet : ∀ i, metLock (endingOf (contended.invocation 0 i).outcome) = true := fun i => by
    rw [invocation_contended]
    rfl
  have hearly : ∀ i < 1024, Clock.system (p.pause (1 + i)) = none := by
    intro i hi
    rw [RetryPolicy.pause_of_neg rfl (by norm_num) (by omega)]
    decide +kernel
  have hlate : Clock.system (p.pause (1 + 1024)) =
      some (Foreign.runtime "sleep length must be non-negative") := by
    rw [RetryPolicy.pause_of_late p (by omega)]
    decide +kernel
  have hdue : due p contended 0 = 1026 := by
    have hnever : settledAt (fun i => (contended.invocation 0 i).outcome) = ⊤ :=
      eq_top_iff.2 (le_iInf₂ fun i hi => by cases (hmet i).symm.trans hi)
    rw [due, hnever, min_eq_right le_top]
    rfl
  obtain ⟨m, hm, htaken, hretried⟩ := retryFrom_retried .system p contended p.further 1 0
  -- the attempts neither end before the refused pause nor get past it
  have hle : m ≤ 1024 := by
    by_contra hlt
    cases hlate.symm.trans (htaken 1024 (by omega)).2
  refine ⟨hdue, ?_⟩
  change (retryFrom .system p contended 1 p.further 0).after = 1025 ∧
    (retryFrom .system p contended 1 p.further 0).outcome = _
  generalize retryFrom .system p contended 1 p.further 0 = r at hretried
  cases hretried with
  | decided last =>
    have hfurther : p.further = 1025 := by decide
    cases (hmet m).symm.trans (last (by omega))
  | refused room locked refusal =>
    obtain rfl : m = 1024 := by
      by_contra hne
      cases (hearly m (by omega)).symm.trans refusal
    rw [invocation_contended]
    exact ⟨rfl, congrArg Except.error (Option.some.inj (refusal.symm.trans hlate))⟩

end Activity

end RefSweep
