import RefSweep.Activity

/-!
# Retrying while a store is locked

An operation that fails because another process holds the lock is tried again, up to a number of
attempts in all, with a pause before each further attempt. The first pause is a tenth of a second,
each next one twice as long, none longer than a limit. Any other failure ends the attempts at once,
and so does a pause that the clock refuses. A warning is written before each pause.
-/

namespace RefSweep

/-- What a clock says against a pause, if it does not take it. -/
abbrev Clock := Seconds → Option Failure

namespace Clock

/-- A clock that takes every pause. -/
def obliging : Clock := fun _ => none

/-- Where the count of billionths of a second ends that the system keeps, in 64 bits. -/
def countLimit : Rat := ((Nat.pow 2 63 : Nat) : Rat)

/-- The stored number of billionths of a second can be counted. -/
def counts (r : Rat) : Bool :=
  match Binary64.nearest (r * 1000000000) with
  | some billionths => -countLimit ≤ billionths && billionths < countLimit
  | none => false

/-- The clock of the system, which pauses for what it can count and what is not below zero. -/
def system : Clock
  | .undefined => some (Foreign.runtime "Invalid value NaN (not a number)")
  | .infinite | .minusInfinite =>
    some (Foreign.runtime "timestamp out of range for platform time_t")
  | .minusZero => none
  | .finite r =>
    if !counts r then some (Foreign.runtime "timestamp out of range for platform time_t")
    else if r < 0 then some (Foreign.runtime "sleep length must be non-negative")
    else none

end Clock

/-- How often an operation is attempted, and how long a pause may be. Less than one attempt still
means one. -/
structure RetryPolicy where
  attempts : Int
  waitMax : Seconds

namespace RetryPolicy

/-- The pause after the `k`-th attempt, from `k = 1` on: a tenth of a second doubled each time, up
to the limit. From where the doubled number exceeds every stored one it is the limit itself, also
where that is below zero. -/
def pause (p : RetryPolicy) (k : Nat) : Seconds :=
  if 1024 ≤ k - 1 then p.waitMax
  else (Seconds.min (.ofRat (mkRat ((Nat.pow 2 (k - 1) : Nat) : Int) 10)) p.waitMax).nonneg

/-- Attempts after the first one. -/
def further (p : RetryPolicy) : Nat := (max 1 p.attempts - 1).toNat

end RetryPolicy

namespace Failure

/-- The failure is worth another attempt: the store was locked. The library that retries would also
obey a request of its own for another attempt; nothing here makes one, and no failure stands for
it. -/
def isLocked : Failure → Bool
  | .error e => e.isLocked
  | .foreign _ => false

end Failure

namespace Activity

variable {σ α : Type}

/-- Lets a pause pass, or fails with what the clock says against it. -/
def wait (clock : Clock) (pause : Seconds) : Activity σ Unit :=
  match clock pause with
  | none => note (.slept pause)
  | some f => fail f

/-- The activity as attempt number `k` with `left` more attempts allowed. -/
def retryFrom (clock : Clock) (p : RetryPolicy) (a : Activity σ α) : Nat → Nat → Activity σ α
  | _, 0 => a
  | k, left + 1 => do
    match ← a.attempt with
    | .ok value => pure value
    | .error f =>
      if f.isLocked then
        note (.announced (p.pause k) f)
        wait clock (p.pause k)
        retryFrom clock p a (k + 1) left
      else fail f

/-- The activity under a retry policy, or once if there is none, with pauses on this clock. -/
def retryingOn (clock : Clock) (policy : Option RetryPolicy) (a : Activity σ α) : Activity σ α :=
  match policy with
  | none => a
  | some p => retryFrom clock p a 1 p.further

/-- The activity under a retry policy, where every pause is taken. The policy of a configuration has
no pause below zero, so a run loses nothing by it on a clock that takes all others. -/
def retrying (policy : Option RetryPolicy) (a : Activity σ α) : Activity σ α :=
  retryingOn .obliging policy a

end Activity

end RefSweep
