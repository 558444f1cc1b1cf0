import Mathlib.Algebra.Order.Ring.Rat
import Mathlib.Tactic.Linarith

/-!
# Nondecreasing clocks

A clock is its last reading together with the gaps to all later ones. Gaps are
nonnegative by construction, so no state can hold a clock that runs backwards;
which gaps they are is left open, so a statement about every clock is a
statement about every way time may pass between two readings.

Reading is a function on the clock, `read`, which gives the clock after the
reading; the time it has read is its `now`. A program that reads the clock
several times in a row threads it through, and gets a time of its own from each
reading. `ofGaps` is the clock of a concrete run, which stands still after the
gaps it is given.
-/

namespace InferenceGateway

namespace Lib

/-- A monotonic clock: the last reading and the gaps to the readings to come. -/
structure Clock where
  now : ℚ
  gap : ℕ → ℚ
  gap_nonneg : ∀ n, 0 ≤ gap n

namespace Clock

/-- Take the next reading. -/
def read (c : Clock) : Clock where
  now := c.now + c.gap 0
  gap n := c.gap (n + 1)
  gap_nonneg n := c.gap_nonneg (n + 1)

theorem now_le_read (c : Clock) : c.now ≤ c.read.now :=
  le_add_of_nonneg_right (c.gap_nonneg 0)

/-- The clock that reads `t`, then advances by the listed whole gaps, then stands. -/
def ofGaps (t : ℚ) (gaps : List ℕ) : Clock where
  now := t
  gap n := ((gaps.getD n 0 : ℕ) : ℚ)
  gap_nonneg _ := Nat.cast_nonneg _

end Clock

end Lib

end InferenceGateway
