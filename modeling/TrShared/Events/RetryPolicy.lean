import Mathlib.Algebra.Order.Ring.Int
import TrShared.Python.Json

/-!
# TrShared.Events.RetryPolicy

`tr_shared/events/retry_policy.py`: the retry policy shared by the outbox drainer and the stream
consumer.
-/

namespace TrShared
namespace Events

open Python

structure RetryPolicy where
  maxRetries : Int := 3
  backoffBase : Int := 2
  maxBackoff : Int := 30
  deriving DecidableEq, Repr

/-- Seconds to wait after failed attempt number `attempt`. -/
def RetryPolicy.delayFor (p : RetryPolicy) (attempt : Nat) : Int :=
  min (p.backoffBase ^ attempt) p.maxBackoff

theorem RetryPolicy.delayFor_le (p : RetryPolicy) (attempt : Nat) :
    p.delayFor attempt ≤ p.maxBackoff := Int.min_le_right _ _

/-! ## Moments -/

/-- `datetime.min` and `datetime.max` in UTC. -/
def datetimeMin : Int := -62135596800000000
def datetimeMax : Int := 253402300799999999

/-- `now + timedelta(seconds=delay)`; `none` is the `OverflowError` of a moment that is not a
`datetime`. -/
def later (now delay : Int) : Option Int :=
  if datetimeMin ≤ now + seconds delay ∧ now + seconds delay ≤ datetimeMax then
    some (now + seconds delay)
  else none

theorem later_some {now delay at_ : Int} (h : later now delay = some at_) :
    at_ = now + seconds delay := by
  simp only [later] at h
  split at h
  · cases h; rfl
  · cases h

theorem later_ne_none {now delay : Int} :
    later now delay ≠ none ↔
      datetimeMin ≤ now + seconds delay ∧ now + seconds delay ≤ datetimeMax := by
  simp only [later]
  split <;> simp_all

/-- A retry is at most `max_backoff` seconds away. -/
theorem RetryPolicy.later_le {p : RetryPolicy} {attempt : Nat} {now at_ : Int}
    (h : later now (p.delayFor attempt) = some at_) : at_ ≤ now + seconds p.maxBackoff := by
  have hle := p.delayFor_le attempt
  rw [later_some h]
  simp only [seconds]
  omega

end Events
end TrShared
