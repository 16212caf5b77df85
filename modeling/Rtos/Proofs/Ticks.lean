import Mathlib.Algebra.Group.Nat.Defs
import Rtos.Ticks

/-!
# The tick counter

The counter wraps around, so it tells a point in time only up to a multiple of its range. As long as a deadline is less
than half the range ahead, or passed at most half the range ago, that is enough to tell how far ahead it lies, if it
does.

* `ahead_iff`: the sign of the wrapped difference, as two bounds on its size.
* `remaining?_of_lt`, `remaining?_of_le`: what remains before a deadline, and after it.
-/

namespace Rtos
set_option autoImplicit false

theorem toNat_maxTimeout : maxTimeout.toNat = 2 ^ 31 - 1 := rfl

theorem toNat_remaining (n deadline : Nat) :
    (UInt32.ofNat deadline - UInt32.ofNat n).toNat = (2 ^ 32 - n % 2 ^ 32 + deadline % 2 ^ 32) % 2 ^ 32 := by
  rw [UInt32.toNat_sub, UInt32.toNat_ofNat', UInt32.toNat_ofNat']

/-- The sign of a difference is told by its size. -/
theorem ahead_iff (left : Ticks) : 0 < left.toInt32 ↔ 0 < left ∧ left ≤ maxTimeout := by
  have range := left.toNat_lt
  have signed : left.toInt32.toInt = (left.toNat : Int).bmod (2 ^ 32) := by
    rw [← Int32.toInt_toBitVec, UInt32.toBitVec_toInt32, BitVec.toInt_eq_toNat_bmod, UInt32.toNat_toBitVec]
  rw [Int32.lt_iff_toInt_lt, Int32.toInt_zero, signed, UInt32.lt_iff_toNat_lt, UInt32.le_iff_toNat_le,
    UInt32.toNat_zero, toNat_maxTimeout, Int.bmod_def]
  omega

/-- A deadline that lies ahead, and not too far. -/
theorem remaining?_of_lt {n deadline : Nat} (ahead : n < deadline) (near : deadline ≤ n + maxTimeout.toNat) :
    remaining? (.ofNat n) (.ofNat deadline) = some (.ofNat (deadline - n)) := by
  rw [toNat_maxTimeout] at near
  rw [UInt32.ofNat_sub (Nat.le_of_lt ahead)]
  refine if_pos ((ahead_iff _).mpr ⟨?_, ?_⟩)
  · rw [UInt32.lt_iff_toNat_lt, toNat_remaining, UInt32.toNat_zero]
    omega
  · rw [UInt32.le_iff_toNat_le, toNat_remaining, toNat_maxTimeout]
    omega

/-- A deadline that has passed, but not too long ago. -/
theorem remaining?_of_le {n deadline : Nat} (past : deadline ≤ n) (near : n ≤ deadline + 2 ^ 31) :
    remaining? (.ofNat n) (.ofNat deadline) = none := by
  refine if_neg fun h => ?_
  obtain ⟨positive, small⟩ := (ahead_iff _).mp h
  have positive := UInt32.lt_iff_toNat_lt.mp positive
  have small := UInt32.le_iff_toNat_le.mp small
  rw [toNat_remaining, UInt32.toNat_zero] at positive
  rw [toNat_remaining, toNat_maxTimeout] at small
  omega

/-- After a tick, a deadline still lies ahead unless that was the last one. -/
theorem remaining?_tick {now deadline left : Ticks} (h : remaining? now deadline = some left)
    (later : deadline ≠ now + 1) :
    remaining? (now + 1) deadline = some (left - 1) := by
  obtain ⟨sign, he⟩ := Option.ite_none_right_eq_some.mp h
  cases he
  obtain ⟨ahead, near⟩ := (ahead_iff _).mp sign
  have next : deadline - (now + 1) = deadline - now - 1 := by grind
  have some_left : 1 ≤ (deadline - now).toNat := UInt32.lt_iff_toNat_lt.mp ahead
  have more_left : (deadline - now).toNat ≠ 1 :=
    fun last => later (by grind [UInt32.toNat_inj.mp (last.trans UInt32.toNat_one.symm)])
  have less : (deadline - now - 1).toNat = (deadline - now).toNat - 1 :=
    UInt32.toNat_sub_of_le _ _ (UInt32.le_iff_toNat_le.mpr some_left)
  rw [UInt32.le_iff_toNat_le] at near
  rw [remaining?, next]
  refine if_pos ((ahead_iff _).mpr ⟨?_, ?_⟩)
  · rw [UInt32.lt_iff_toNat_lt, less, UInt32.toNat_zero]
    omega
  · rw [UInt32.le_iff_toNat_le, less]
    omega

/-- A timer that is set for the remaining ticks fires at the deadline. -/
theorem add_of_remaining? {now deadline left : Ticks} (h : remaining? now deadline = some left) :
    now + left = deadline := by
  obtain ⟨_, h⟩ := Option.ite_none_right_eq_some.mp h
  cases h
  rw [UInt32.add_comm, UInt32.sub_add_cancel]

/-- A deadline is never reached before its time. -/
theorem ofNat_eq_iff {n deadline : Nat} (ahead : n ≤ deadline) (near : deadline ≤ n + maxTimeout.toNat) :
    UInt32.ofNat deadline = UInt32.ofNat n ↔ deadline = n := by
  rw [toNat_maxTimeout] at near
  rw [← UInt32.toNat_inj, UInt32.toNat_ofNat', UInt32.toNat_ofNat']
  omega

theorem ofNat_add_toNat (n : Nat) (ticks : Ticks) : UInt32.ofNat n + ticks = .ofNat (n + ticks.toNat) := by
  rw [UInt32.ofNat_add, UInt32.ofNat_toNat]

theorem ofNat_succ (n : Nat) : UInt32.ofNat (n + 1) = .ofNat n + 1 := (ofNat_add_toNat n 1).symm

/-- Only after a whole turn does the counter show the same again. -/
theorem add_ne (now : Ticks) {ticks : Ticks} (h : ticks ≠ 0) :
    now + ticks ≠ now := fun he => h (UInt32.left_eq_add.mp he.symm)

theorem tick_ne (now : Ticks) : now + 1 ≠ now := add_ne now (by decide)

theorem ne_zero_of_remaining? {now deadline left : Ticks} (h : remaining? now deadline = some left) : left ≠ 0 := by
  obtain ⟨sign, he⟩ := Option.ite_none_right_eq_some.mp h
  cases he
  exact UInt32.pos_iff_ne_zero.mp ((ahead_iff _).mp sign).1

theorem toNat_max (a b : Ticks) : (max a b).toNat = max a.toNat b.toNat := by
  show (if a ≤ b then b else a).toNat = _
  split <;> next h =>
    rw [UInt32.le_iff_toNat_le] at h
    omega

end Rtos
