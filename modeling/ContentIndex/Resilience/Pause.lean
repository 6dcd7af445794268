/-
  Pauses. They are asked for in nanoseconds; the clock that keeps them counts whole milliseconds,
  and wakes whoever waits after thirty years at the latest.
-/

namespace ContentIndex

/-- Nanoseconds in a millisecond and in a second. -/
def nanosPerMilli : Nat := 1000000
def nanosPerSecond : Nat := 1000000000

/-- The longest pause in milliseconds: thirty years of 365 days. -/
def longestPause : Nat := 30 * 365 * 86400 * 1000

/-- How many milliseconds a pause takes. -/
def pauseMillis (nanos : Nat) : Nat :=
  min ((nanos + nanosPerMilli - 1) / nanosPerMilli) longestPause

/-! ## Laws -/

theorem pauseMillis_le_longest (nanos : Nat) : pauseMillis nanos ≤ longestPause :=
  Nat.min_le_right _ _

/-- A pause of whole milliseconds takes as many, up to the longest pause. -/
theorem pauseMillis_mul (ms : Nat) : pauseMillis (ms * nanosPerMilli) = min ms longestPause := by
  have h : (ms * nanosPerMilli + nanosPerMilli - 1) / nanosPerMilli = ms := by
    simp only [nanosPerMilli]
    omega
  rw [pauseMillis, h]

end ContentIndex
