import Mathlib.Logic.Function.Iterate
import RefSweep.Proofs.Run

/-!
# Exchanges with a storage

A run talks to its storage in calls, and each call is answered by ending normally or with a failure.
`Exchanged` says that a storage, asked these calls one after another, gives these answers;
`Performs`, that a run asks exactly these. An operation that meets a lock is invoked again: the
endings of such a round are `Persistent`. Main statements: `retryFrom_retried`, what is retried
leaves what its invocations leave, and `retrying_performs`, it makes one round.
-/

namespace RefSweep

variable {σ η α β : Type}

/-- A call and how it ended. -/
structure Exchange where
  call : Call
  ending : Option Failure

/-- The storage answers one call on an open repository. -/
inductive Answers (storage : Storage σ η) (handle : η) : σ → Exchange → σ → Prop where
  | listed (s : σ) :
      Answers storage handle s ⟨.listed, (storage.references handle s).1.failure⟩
        (storage.references handle s).2
  | deleted (name : RefName) (s : σ) :
      Answers storage handle s
        ⟨.deleted name, endingOf (storage.deleteReference handle name s).result⟩
        (storage.deleteReference handle name s).state
  | compacted (s : σ) :
      Answers storage handle s ⟨.compacted, endingOf (storage.compact handle s).result⟩
        (storage.compact handle s).state
  | closed (s : σ) :
      Answers storage handle s ⟨.closed, endingOf (storage.close handle s).result⟩
        (storage.close handle s).state

/-- The storage answers calls one after another. -/
inductive Exchanged (storage : Storage σ η) (handle : η) : σ → List Exchange → σ → Prop where
  | nil (s : σ) : Exchanged storage handle s [] s
  | cons {s t u : σ} {e : Exchange} {rest : List Exchange}
      (first : Answers storage handle s e t) (others : Exchanged storage handle t rest u) :
      Exchanged storage handle s (e :: rest) u

section Inversion

variable {storage : Storage σ η} {handle : η} {s u : σ}

/-- To a listing the storage answers with the references it has, or with the failure at which they
end. -/
theorem Answers.of_listed {ending : Option Failure}
    (h : Answers storage handle s ⟨.listed, ending⟩ u) :
    ending = (storage.references handle s).1.failure ∧ u = (storage.references handle s).2 := by
  cases h
  exact ⟨rfl, rfl⟩

/-- To closing the storage answers as its operation ends, in the state that this leaves. -/
theorem Answers.of_closed {ending : Option Failure}
    (h : Answers storage handle s ⟨.closed, ending⟩ u) :
    ending = endingOf (storage.close handle s).result ∧ u = (storage.close handle s).state := by
  cases h
  exact ⟨rfl, rfl⟩

/-- A sequence of exchanges begins with its first one, and the others go on from the state that it
has led to. -/
theorem Exchanged.of_cons {e : Exchange} {es : List Exchange}
    (h : Exchanged storage handle s (e :: es) u) :
    ∃ t, Answers storage handle s e t ∧ Exchanged storage handle t es u := by
  cases h with
  | cons first others => exact ⟨_, first, others⟩

/-- One exchange by itself is one answer. -/
theorem Exchanged.of_single {e : Exchange} (h : Exchanged storage handle s [e] u) :
    Answers storage handle s e u := by
  cases h with
  | cons first others =>
    cases others
    exact first

end Inversion

/-- Exchanges that go on where others have ended make one sequence with them. -/
theorem Exchanged.append {storage : Storage σ η} {handle : η} {s t u : σ} {es es' : List Exchange}
    (h : Exchanged storage handle s es t) (h' : Exchanged storage handle t es' u) :
    Exchanged storage handle s (es ++ es') u := by
  induction h with
  | nil => exact h'
  | cons first _ ih => exact .cons first (ih h')

/-- A sequence of exchanges can be cut anywhere: there is a state in which the first part ends and
the second begins. -/
theorem Exchanged.split {storage : Storage σ η} {handle : η} {s u : σ} {es es' : List Exchange}
    (h : Exchanged storage handle s (es ++ es') u) :
    ∃ t, Exchanged storage handle s es t ∧ Exchanged storage handle t es' u := by
  induction es generalizing s with
  | nil => exact ⟨s, .nil s, h⟩
  | cons e es ih =>
    cases h with
    | cons first others =>
      obtain ⟨t, ht, ht'⟩ := ih others
      exact ⟨t, .cons first ht, ht'⟩

/-- What every answer keeps, all answers keep. -/
theorem Exchanged.preserves {storage : Storage σ η} {handle : η} {I : σ → Prop} {s t : σ}
    {es : List Exchange} (h : Exchanged storage handle s es t)
    (hstep : ∀ {s t e}, e ∈ es → Answers storage handle s e t → I s → I t) (hs : I s) : I t := by
  induction h with
  | nil => exact hs
  | cons first _ ih =>
    have hnext := hstep (.head _) first hs
    exact ih (fun he => hstep (.tail _ he)) hnext

/-! ## Runs that perform exchanges -/

/-- From state `s` the run makes exactly these calls, gets these answers, and ends where they
lead. -/
structure Performs (storage : Storage σ η) (handle : η) (s : σ) (r : Run σ α)
    (exchanges : List Exchange) : Prop where
  calls : r.calls = exchanges.map (·.call)
  states : Exchanged storage handle s exchanges r.after

namespace Performs

open Activity

variable {storage : Storage σ η} {handle : η} {s : σ}

/-- A run that calls nothing and changes nothing. -/
theorem nothing {r : Run σ α} (hcalls : r.calls = []) (hafter : r.after = s) :
    Performs storage handle s r [] :=
  ⟨hcalls, by rw [hafter]; exact .nil s⟩

/-- A call performs the one exchange in which the storage answers it. -/
theorem single {c : Call} {operation : σ → Answer σ α}
    (h : Answers storage handle s ⟨c, endingOf (operation s).result⟩ (operation s).state) :
    Performs storage handle s (call c operation s) [⟨c, endingOf (operation s).result⟩] := by
  obtain ⟨-, hafter, hcalls⟩ := call_apply c operation s
  exact ⟨hcalls, hafter ▸ .cons h (.nil _)⟩

/-- Activities that follow one another perform the exchanges of the first and then those of the
second. -/
theorem bind_of_ok {a : Activity σ α} {next : α → Activity σ β} {es es' : List Exchange} {v : α}
    (ha : Performs storage handle s (a s) es) (hv : (a s).outcome = .ok v)
    (hnext : Performs storage handle (a s).after (next v (a s).after) es') :
    Performs storage handle s ((a >>= next) s) (es ++ es') := by
  constructor
  · rw [calls_bind_of_ok hv, ha.calls, hnext.calls, List.map_append]
  · rw [Activity.bind_of_ok hv]
    exact ha.states.append hnext.states

/-- What follows asks nothing. -/
theorem bind_nothing {a : Activity σ α} {next : α → Activity σ β} {es : List Exchange} {v : α}
    (ha : Performs storage handle s (a s) es) (hv : (a s).outcome = .ok v)
    (hcalls : (next v (a s).after).calls = []) (hafter : (next v (a s).after).after = (a s).after) :
    Performs storage handle s ((a >>= next) s) es := by
  simpa using ha.bind_of_ok hv (.nothing hcalls hafter)

/-- After a failure no exchanges are added. -/
theorem bind_of_error {a : Activity σ α} {next : α → Activity σ β} {es : List Exchange}
    {f : Failure} (ha : Performs storage handle s (a s) es) (hf : (a s).outcome = .error f) :
    Performs storage handle s ((a >>= next) s) es := by
  constructor
  · rw [calls_bind_of_error hf, ha.calls]
  · rw [Activity.bind_of_error hf]
    exact ha.states

theorem attempt {a : Activity σ α} {es : List Exchange} (ha : Performs storage handle s (a s) es) :
    Performs storage handle s (a.attempt s) es := ⟨ha.calls, ha.states⟩

/-- In the body of a stage an activity performs what it performs outside. -/
theorem during {a : Activity σ α} {es : List Exchange} (rid : Identifier) (stage : Stage)
    (ha : Performs storage handle s (a s) es) :
    Performs storage handle s (during rid stage a s) es :=
  ⟨(calls_noting _ a s).trans ha.calls, by rw [after_during]; exact ha.states⟩

theorem log_bind {level : Level} {text : Text} {next : Unit → Activity σ β} {es : List Exchange}
    (h : Performs storage handle s (next () s) es) :
    Performs storage handle s ((log level text >>= next) s) es := ⟨h.calls, h.states⟩

/-- What is run at the end adds its exchanges to those of the activity, on every path. -/
theorem closing {a : Activity σ α} {last : Activity σ Unit} {es es' : List Exchange}
    (ha : Performs storage handle s (a s) es)
    (hlast : Performs storage handle (a s).after (last (a s).after) es') :
    Performs storage handle s (a.closing last s) (es ++ es') := by
  constructor
  · rw [calls_closing, ha.calls, hlast.calls, List.map_append]
  · exact ha.states.append hlast.states

end Performs

/-! ## Rounds of attempts -/

/-- The exchanges of one call that is made again and again. -/
def round (c : Call) (endings : List (Option Failure)) : List Exchange := endings.map (⟨c, ·⟩)

/-- The operation was refused by a lock. -/
def metLock (ending : Option Failure) : Bool := ending.any (·.isLocked)

/-- How the attempts of one operation ended: there is at least one and at most `limit`, and a
further one follows exactly when an attempt met a lock and the limit is not used up. -/
structure Persistent (limit : Nat) (endings : List (Option Failure)) : Prop where
  attempted : 1 ≤ endings.length
  bounded : endings.length ≤ limit
  again : ∀ i, (h : i < endings.length) →
    (i + 1 < endings.length ↔ metLock endings[i] = true ∧ i + 1 < limit)

namespace Persistent

/-- All attempts but the last one met a lock. -/
theorem metLock_of_lt {limit : Nat} {es : List (Option Failure)} (h : Persistent limit es) {i : Nat}
    (hi : i + 1 < es.length) : metLock es[i] = true :=
  ((h.again i (by omega)).1 hi).1

end Persistent

namespace RetryPolicy

/-- How many attempts a policy allows in all; without a policy there is one. -/
def limit : Option RetryPolicy → Nat
  | none => 1
  | some p => p.further + 1

end RetryPolicy

/-! ## Invocations -/

namespace Activity

/-- Invocation number `i`, from 0, of those that follow one another from this state on. -/
def invocation (a : Activity σ α) (s : σ) (i : Nat) : Run σ α := a ((fun t => (a t).after)^[i] s)

/-- The warning about a pause, if an attempt that ended so is followed by one. -/
def announcement (pause : Seconds) : Except Failure α → List Event
  | .ok _ => []
  | .error f => [.announced pause f]

/-- What is written while an activity is invoked once and then `m` more times, each time after a
pause. The first pause is number `k`. -/
def journalOf (p : RetryPolicy) (a : Activity σ α) (s : σ) (k m : Nat) : List Event :=
  (a.invocation s 0).journal ++ (List.range m).flatMap fun i =>
    announcement (p.pause (k + i)) (a.invocation s i).outcome ++
      .slept (p.pause (k + i)) :: (a.invocation s (i + 1)).journal

/-- Each invocation begins where the one before has ended, so the later ones are those that follow
one another from where the first has ended. -/
theorem invocation_succ (a : Activity σ α) (s : σ) (i : Nat) :
    a.invocation s (i + 1) = a.invocation (a s).after i := rfl

/-- Where no attempt follows the first one, all that is written is what this has written. -/
theorem journalOf_zero (p : RetryPolicy) (a : Activity σ α) (s : σ) (k : Nat) :
    journalOf p a s k 0 = (a s).journal := by
  rw [journalOf, List.range_zero, List.flatMap_nil, List.append_nil]
  rfl

/-- What is written about several attempts begins with the first, the warning and the pause, and
goes on with the others as with attempts of their own, whose pauses are counted on. -/
theorem journalOf_succ (p : RetryPolicy) (a : Activity σ α) (s : σ) (k m : Nat) :
    journalOf p a s k (m + 1) = (a s).journal ++ (announcement (p.pause k) (a s).outcome ++
      .slept (p.pause k) :: journalOf p a (a s).after (k + 1) m) := by
  simp only [journalOf, List.range_succ_eq_map, List.flatMap_cons, List.flatMap_map,
    invocation_succ, Nat.add_zero, Nat.add_assoc, Nat.add_comm 1, List.append_assoc,
    List.cons_append]
  rfl

/-- What is written about attempts shows what the attempts themselves show, where neither warnings
nor pauses show. -/
theorem filterMap_journalOf {β : Type} {select : Event → Option β}
    (hannounced : ∀ d f, select (.announced d f) = none) (hslept : ∀ d, select (.slept d) = none)
    (p : RetryPolicy) (a : Activity σ α) (s : σ) (k m : Nat) :
    (journalOf p a s k m).filterMap select =
      (List.range (m + 1)).flatMap fun i => (a.invocation s i).journal.filterMap select := by
  -- a warning is written after a failure and shows nothing, like the pause behind it
  have hquiet : ∀ d (result : Except Failure α), (announcement d result).filterMap select = [] := by
    intro d result
    cases result with
    | ok value => rfl
    | error f => exact List.filterMap_cons_none (hannounced d f)
  rw [List.range_succ_eq_map, List.flatMap_cons, List.flatMap_map, journalOf,
    List.filterMap_append, List.filterMap_flatMap]
  simp only [List.filterMap_append, hquiet, List.nil_append,
    List.filterMap_cons_none (hslept _)]

/-- An activity that makes one call makes it once with each invocation. -/
theorem calls_journalOf {p : RetryPolicy} {a : Activity σ α} {c : Call}
    (hcalls : ∀ t, (a t).calls = [c]) (s : σ) (k m : Nat) :
    (journalOf p a s k m).filterMap Event.call? = List.replicate (m + 1) c := by
  rw [filterMap_journalOf (fun _ _ => rfl) (fun _ => rfl)]
  have hinvocation : ∀ i, (a.invocation s i).journal.filterMap Event.call? = [c] :=
    fun i => hcalls _
  simp only [hinvocation]
  rw [← List.map_eq_flatMap, List.map_const', List.length_range]

theorem note_bind (e : Event) (next : Unit → Activity σ α) (s : σ) :
    (note e >>= next) s = ⟨(next () s).outcome, (next () s).after, e :: (next () s).journal⟩ := rfl

/-- A pause that the clock takes stands in front of what follows. -/
theorem wait_bind_of_none {clock : Clock} {pause : Seconds} (h : clock pause = none)
    (next : Unit → Activity σ α) (s : σ) :
    (wait clock pause >>= next) s =
      ⟨(next () s).outcome, (next () s).after, .slept pause :: (next () s).journal⟩ := by
  rw [wait, h]
  rfl

/-- A pause that the clock refuses ends the activity, before anything is written about it. -/
theorem wait_bind_of_some {clock : Clock} {pause : Seconds} {f : Failure} (h : clock pause = some f)
    (next : Unit → Activity σ α) (s : σ) : (wait clock pause >>= next) s = ⟨.error f, s, []⟩ := by
  rw [wait, h]
  rfl

/-- How attempts with up to `left` more of them can end, of which `m` follow the first one, and
where the next pause is number `k`. -/
inductive Retried (clock : Clock) (p : RetryPolicy) (a : Activity σ α) (k left : Nat) (s : σ)
    (m : Nat) : Run σ α → Prop where
  /-- The last one met no lock, or no other is allowed. It decides. -/
  | decided (last : m < left → metLock (endingOf (a.invocation s m).outcome) = false) :
      Retried clock p a k left s m
        ⟨(a.invocation s m).outcome, (a.invocation s m).after, journalOf p a s k m⟩
  /-- The last one met a lock and would be followed by another one, but the clock refuses the pause
  between them. -/
  | refused {f : Failure} (room : m < left)
      (locked : metLock (endingOf (a.invocation s m).outcome) = true)
      (refusal : clock (p.pause (k + m)) = some f) :
      Retried clock p a k left s m ⟨.error f, (a.invocation s m).after, journalOf p a s k m ++
        announcement (p.pause (k + m)) (a.invocation s m).outcome⟩

/-- One more attempt in front: it met a lock, and the pause after it was taken. -/
theorem Retried.cons {clock : Clock} {p : RetryPolicy} {a : Activity σ α} {k left m : Nat} {s : σ}
    {r : Run σ α} (h : Retried clock p a (k + 1) left (a s).after m r) :
    Retried clock p a k (left + 1) s (m + 1) ⟨r.outcome, r.after, (a s).journal ++
      (announcement (p.pause k) (a s).outcome ++ .slept (p.pause k) :: r.journal)⟩ := by
  -- the attempts behind the first are counted from the next number on
  have hnumber : k + 1 + m = k + (m + 1) := by omega
  cases h with
  | decided last =>
    rw [← journalOf_succ]
    exact .decided fun hlt => last (Nat.lt_of_succ_lt_succ hlt)
  | refused room locked refusal =>
    rw [hnumber] at refusal ⊢
    have hrefused := Retried.refused (k := k) (s := s) (m := m + 1) (Nat.succ_lt_succ room) locked
      refusal
    rw [journalOf_succ] at hrefused
    simpa [invocation_succ] using hrefused

/-- Up to `left` more attempts are made, as many as meet a lock while the clock takes the pauses. -/
theorem retryFrom_retried (clock : Clock) (p : RetryPolicy) (a : Activity σ α) (left k : Nat)
    (s : σ) :
    ∃ m ≤ left, (∀ i < m, metLock (endingOf (a.invocation s i).outcome) = true ∧
      clock (p.pause (k + i)) = none) ∧
        Retried clock p a k left s m (retryFrom clock p a k left s) := by
  induction left generalizing k s with
  | zero =>
    refine ⟨0, Nat.le_refl 0, fun i hi => absurd hi (Nat.not_lt_zero i), ?_⟩
    have hdecided : Retried clock p a k 0 s 0 _ := .decided fun h => absurd h (Nat.not_lt_zero 0)
    rwa [journalOf_zero] at hdecided
  | succ left ih =>
    -- an attempt that meets no lock ends everything, whatever came before it
    have hfirst : metLock (endingOf (a s).outcome) = false →
        Retried clock p a k (left + 1) s 0 ⟨(a s).outcome, (a s).after, (a s).journal⟩ := by
      intro hfree
      have hdecided : Retried clock p a k (left + 1) s 0 _ := .decided fun _ => hfree
      rwa [journalOf_zero] at hdecided
    rw [retryFrom, attempt_bind]
    cases hout : (a s).outcome with
    | ok v =>
      refine ⟨0, Nat.zero_le _, fun i hi => absurd hi (Nat.not_lt_zero i), ?_⟩
      rw [hout] at hfirst
      simpa using hfirst rfl
    | error f =>
      have hmet : metLock (endingOf (a s).outcome) = f.isLocked := by
        rw [hout]
        rfl
      by_cases hlock : f.isLocked = true
      · -- the lock costs one attempt, and the pauses go on from the next number
        have hlocked := hmet.trans hlock
        simp only [hlock, if_true]
        cases hclock : clock (p.pause k) with
        | some g =>
          refine ⟨0, Nat.zero_le _, fun i hi => absurd hi (Nat.not_lt_zero i), ?_⟩
          have hrefused : Retried clock p a k (left + 1) s 0 _ :=
            .refused (Nat.succ_pos left) hlocked hclock
          rw [journalOf_zero] at hrefused
          rw [note_bind, wait_bind_of_some hclock]
          simpa [invocation, hout, announcement] using hrefused
        | none =>
          obtain ⟨m, hm, hlocks, hrest⟩ := ih (k + 1) (a s).after
          refine ⟨m + 1, Nat.succ_le_succ hm, fun i hi => ?_, ?_⟩
          · cases i with
            | zero => exact ⟨hlocked, hclock⟩
            | succ i =>
              have hnext := hlocks i (Nat.lt_of_succ_lt_succ hi)
              rwa [show k + 1 + i = k + (i + 1) by omega] at hnext
          · rw [note_bind, wait_bind_of_none hclock]
            simpa [hout, announcement] using hrest.cons
      · -- any other failure is the last word
        rw [Bool.not_eq_true] at hlock
        refine ⟨0, Nat.zero_le _, fun i hi => absurd hi (Nat.not_lt_zero i), ?_⟩
        have hended := hfirst (hmet.trans hlock)
        rw [hout] at hended
        simpa [hlock] using hended

/-- Where every pause is taken, up to `left` more attempts are made, as many as meet a lock. The
last one decides. -/
theorem retryFrom_attempts (p : RetryPolicy) (a : Activity σ α) (left k : Nat) (s : σ) :
    ∃ m ≤ left, (∀ i < m, metLock (endingOf (a.invocation s i).outcome) = true) ∧
      (m < left → metLock (endingOf (a.invocation s m).outcome) = false) ∧
      retryFrom .obliging p a k left s =
        ⟨(a.invocation s m).outcome, (a.invocation s m).after, journalOf p a s k m⟩ := by
  obtain ⟨m, hm, hlocks, hretried⟩ := retryFrom_retried .obliging p a left k s
  refine ⟨m, hm, fun i hi => (hlocks i hi).1, ?_⟩
  generalize retryFrom .obliging p a k left s = r at hretried
  cases hretried with
  | decided last => exact ⟨last, rfl⟩
  | refused _ _ refusal => cases refusal

/-- With a policy or without one, further attempts follow as long as they meet locks and the limit
is not used up. The last one decides. -/
theorem retrying_invocations (retry : Option RetryPolicy) (a : Activity σ α) (s : σ) :
    ∃ m < RetryPolicy.limit retry,
      (∀ i < m, metLock (endingOf (a.invocation s i).outcome) = true) ∧
      (m + 1 < RetryPolicy.limit retry →
        metLock (endingOf (a.invocation s m).outcome) = false) ∧
      (retrying retry a s).outcome = (a.invocation s m).outcome ∧
      (retrying retry a s).after = (a.invocation s m).after ∧
      ∀ c, (∀ t, (a t).calls = [c]) → (retrying retry a s).calls = List.replicate (m + 1) c := by
  cases retry with
  -- without a policy there is one attempt, and it is the last
  | none =>
    exact ⟨0, Nat.one_pos, fun i hi => absurd hi (Nat.not_lt_zero i),
      fun h => absurd h (Nat.lt_irrefl 1), rfl, rfl, fun c hc => hc s⟩
  | some p =>
    obtain ⟨m, hm, hlocks, hstop, hrun⟩ := retryFrom_attempts p a p.further 1 s
    rw [retrying, retryingOn, hrun]
    exact ⟨m, Nat.lt_succ_of_le hm, hlocks, fun h => hstop (Nat.lt_of_succ_lt_succ h), rfl, rfl,
      fun c hc => calls_journalOf hc s 1 m⟩

/-- How the first `n` invocations end. -/
def endings (a : Activity σ α) (s : σ) (n : Nat) : List (Option Failure) :=
  (List.range n).map fun i => endingOf (a.invocation s i).outcome

/-- The endings of several invocations are that of the first and those of the others from where it
has led. -/
theorem endings_succ (a : Activity σ α) (s : σ) (n : Nat) :
    a.endings s (n + 1) = endingOf (a s).outcome :: a.endings (a s).after n := by
  simp only [endings, List.range_succ_eq_map, List.map_cons, List.map_map]
  rfl

/-- Invocations that stop where a lock is no longer met, or where the limit is used up, end as the
attempts of a round have to. -/
theorem persistent_endings {a : Activity σ α} {s : σ} {m limit : Nat} (hm : m < limit)
    (hlocks : ∀ i < m, metLock (endingOf (a.invocation s i).outcome) = true)
    (hstop : m + 1 < limit → metLock (endingOf (a.invocation s m).outcome) = false) :
    Persistent limit (a.endings s (m + 1)) where
  attempted := by simp [endings]
  bounded := by
    rw [endings, List.length_map, List.length_range]
    exact hm
  again := by
    intro i hi
    simp only [endings, List.length_map, List.length_range, List.getElem_map,
      List.getElem_range] at hi ⊢
    constructor
    · intro hnext
      exact ⟨hlocks i (by omega), by omega⟩
    · rintro ⟨hlock, hroom⟩
      -- the last of these is not followed by another one, so it met no lock or was the last allowed
      rcases Nat.lt_succ_iff_lt_or_eq.1 hi with hlt | rfl
      · omega
      · cases hlock.symm.trans (hstop hroom)

section Calls

variable {storage : Storage σ η} {handle : η} {c : Call} {operation : σ → Answer σ α}

/-- Invocations of a call are exchanges with the storage. -/
theorem exchanged_endings
    (hop : ∀ s, Answers storage handle s ⟨c, endingOf (operation s).result⟩ (operation s).state)
    (n : Nat) (s : σ) :
    Exchanged storage handle s (round c ((call c operation).endings s n))
      ((fun t => (call c operation t).after)^[n] s) := by
  induction n generalizing s with
  | zero => exact .nil s
  | succ n ih =>
    rw [endings_succ]
    exact .cons (hop s) (ih (operation s).state)

/-- An operation under a policy makes one round of exchanges with the storage, which ends with what
the operation as a whole ends with. -/
theorem retrying_performs (storage : Storage σ η) (handle : η) (retry : Option RetryPolicy)
    (hop : ∀ s, Answers storage handle s ⟨c, endingOf (operation s).result⟩ (operation s).state)
    (s : σ) :
    ∃ endings, Performs storage handle s (retrying retry (call c operation) s) (round c endings) ∧
      Persistent (RetryPolicy.limit retry) endings ∧
      endings.getLast? = some (endingOf (retrying retry (call c operation) s).outcome) := by
  -- the round consists of the attempts, each of which is one call and one answer
  obtain ⟨m, hm, hlocks, hstop, hout, hafter, hcalls⟩ :=
    retrying_invocations retry (call c operation) s
  refine ⟨_, ⟨?_, ?_⟩, persistent_endings hm hlocks hstop, ?_⟩
  · rw [hcalls c fun t => (call_apply c operation t).2.2]
    simp [round, endings, Function.comp_def, List.map_const']
  · rw [hafter, invocation, ← Function.iterate_succ_apply' (fun t => (call c operation t).after)]
    exact exchanged_endings hop (m + 1) s
  · rw [hout, endings, List.range_succ, List.map_append]
    exact List.getLast?_concat

end Calls

end Activity

end RefSweep
