/-!
# Ticks

Time is counted in ticks by a counter of 32 bits that wraps around. A timeout is at most half the range of the
counter (`maxTimeout`), so the sign of a wrapped difference tells whether a deadline lies ahead (`remaining?`).
-/

namespace Rtos
set_option autoImplicit false

/-- A point in time or a length of time. -/
abbrev Ticks := UInt32

/-- The longest timeout: the largest difference that still counts as "ahead". -/
def maxTimeout : Ticks := 0x7fffffff

/-- The number of ticks from `now` to `deadline`, if the deadline lies ahead. -/
def remaining? (now deadline : Ticks) : Option Ticks :=
  let left := deadline - now
  if 0 < left.toInt32 then some left else none

end Rtos
