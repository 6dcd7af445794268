import ContentIndex.Number.Double
import ContentIndex.Resilience.Pause

/-
  Repeating an operation that fails. Delays are counted in nanoseconds; each delay is the one before
  it times a factor, computed on seconds as real numbers, rounded to the nanosecond and cut at a
  longest delay. The first delay is not cut. A product that is no duration, because it is negative
  or too large, stops everything.
-/

namespace ContentIndex

open Number (Double divHalfEven)

/-- How often an operation is tried, and how long to wait in between. -/
structure RetryPolicy where
  attempts : UInt64
  initialDelay : Nat
  maxDelay : Nat
  factor : Double
deriving DecidableEq

/-- A number of nanoseconds in seconds. -/
def secondsOfNanos (n : Nat) : Double :=
  (Double.ofNat (n / nanosPerSecond)).addMagnitudes
    ((Double.ofNat (n % nanosPerSecond)).div (Double.ofNat nanosPerSecond))

/-- The whole number of nanoseconds nearest to a number of seconds. A duration is not negative and
has less than 2 ^ 64 seconds; other numbers have none. -/
def nanosOfSeconds? (x : Double) : Option Nat :=
  let (a, b) := x.ratio
  if x.isFinite && (x.isZero || !x.isNegative) && a < 2 ^ 64 * b then
    some (divHalfEven (a * nanosPerSecond) b)
  else none

namespace RetryPolicy

/-- The policy for requests on whole indices. -/
def admin : RetryPolicy :=
  ⟨3, 200 * nanosPerMilli, 2 * nanosPerSecond, .ofNat 2⟩

/-- At least one attempt, with the same delay between all of them. -/
def bulk (attempts : UInt64) (delay : Nat) : RetryPolicy :=
  ⟨max attempts 1, delay, delay, .ofNat 1⟩

/-- The delay that follows another one, if their product is a duration. -/
def nextDelay? (p : RetryPolicy) (delay : Nat) : Option Nat :=
  if p.factor.isFinite then
    (nanosOfSeconds? (p.factor.mul (secondsOfNanos delay))).map (min · p.maxDelay)
  else none

/-- The delay in front of an attempt, if it can be computed; the first attempt has none. -/
def delayFor? (p : RetryPolicy) (attempt : Nat) : Option Nat :=
  if attempt ≤ 1 then some 0
  else Nat.repeat (·.bind p.nextDelay?) (attempt - 2) (some p.initialDelay)

/-- The delay in front of an attempt, under a policy whose delays can be computed. -/
def delayFor (p : RetryPolicy) (attempt : Nat) : Nat :=
  (p.delayFor? attempt).getD 0

end RetryPolicy

section

variable {m : Type → Type} {ε α : Type} [Monad m]

/-- Tries an operation; `left` attempts remain if this one fails. The pause in front of an attempt
depends on its number. -/
def retryFrom (pause : Nat → m Unit) (operation : m (Except ε α)) (attempt : Nat) :
    (left : Nat) → m (Except ε α)
  | 0 => operation
  | left + 1 => do
    match ← operation with
    | .ok a => pure (.ok a)
    | .error _ =>
      pause (attempt + 1)
      retryFrom pause operation (attempt + 1) left

/-- Tries an operation until it succeeds or the attempts are used up. There is at least one. -/
def RetryPolicy.repeated (p : RetryPolicy) (pause : Nat → m Unit) (operation : m (Except ε α)) :
    m (Except ε α) :=
  retryFrom pause operation 1 (p.attempts.toNat - 1)

/-- The pause in front of an attempt, if its delay can be computed. -/
def RetryPolicy.pause (p : RetryPolicy) (wait : Nat → m Unit) (attempt : Nat) : OptionT m Unit := do
  let nanos ← OptionT.mk (pure (p.delayFor? attempt))
  OptionT.lift (wait nanos)

/-- Tries an operation until it succeeds or the attempts are used up, and waits in between. There
is no result if a delay cannot be computed. -/
def retry (wait : Nat → m Unit) (p : RetryPolicy) (operation : m (Except ε α)) :
    OptionT m (Except ε α) :=
  p.repeated (p.pause wait) (OptionT.lift operation)

end
end ContentIndex
