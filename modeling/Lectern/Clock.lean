import Lectern.Number.Int64

/-!
# Clocks

A clock is any sequence of readings, of sixty-four bits each. It need not advance, and it may
run backwards; what counts is how many readings have been taken.
-/

namespace Lectern

structure Clock where
  reading : Nat → Int64
  taken : Nat

namespace Clock

/-- The reading that is taken next. -/
def now (c : Clock) : Int := (c.reading c.taken).toInt

theorem isInt64_now (c : Clock) : IsInt64 c.now := isInt64_toInt _

def tick (c : Clock) : Clock := { c with taken := c.taken + 1 }

/-- A clock that shows `start` and advances by `step` with each reading. -/
def steady (start step : Int) : Clock := ⟨fun n => Int64.ofInt (start + step * n), 0⟩

end Clock
end Lectern
