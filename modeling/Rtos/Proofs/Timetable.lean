import Rtos.Proofs.Kernel.Firing

/-!
# Timetables

* `Timetable`: the ticks at which a timer is to fire, in time that does not wrap around.
* `Timetable.next?`: the first of them after a given tick.
* `Call.timetable?`: the timetable that an operation gives to a timer.
* `TimerState.timetable`: the timetable that a timer keeps to, as far as its state tells.
* `Shows`: at a given tick, the state of a timer tells what its timetable says about all ticks to come. Operations and
  ticks keep that (`Shows.retimed`, `Shows.ticked`), so the timer fires when it is to (`Shows.due_iff`).
-/

namespace Rtos
set_option autoImplicit false

variable {c : Config}

/-- The ticks at which a timer is to fire: none, or a first one and then one at the end of every period, if there is a
period. -/
inductive Timetable
  | never
  | starting (first period : Nat)
  deriving DecidableEq

namespace Timetable

variable {τ τ' : Timetable} {n tick first period : Nat}

def Includes : Timetable → Nat → Prop
  | never, _ => False
  | starting first period, tick => ∃ i, tick = first + i * period

/-- From now on, fire at the end of every period. -/
def periodic (now period : Nat) : Timetable := if period = 0 then never else starting (now + period) period

/-- Fire once, after the given number of ticks; at the next tick if that is zero. -/
def once (now timeout : Nat) : Timetable := starting (now + max timeout 1) 0

theorem includes_starting_iff : (starting first period).Includes tick ↔ first ≤ tick ∧ period ∣ tick - first := by
  constructor
  · rintro ⟨i, rfl⟩
    refine ⟨Nat.le_add_right first _, ?_⟩
    rw [Nat.add_sub_cancel_left]
    exact Nat.dvd_mul_left period i
  · rintro ⟨later, i, hi⟩
    refine ⟨i, ?_⟩
    rw [Nat.mul_comm, ← hi]
    omega

instance (τ : Timetable) : DecidablePred τ.Includes := fun _ =>
  match τ with
  | never => isFalse id
  | starting _ _ => decidable_of_iff _ includes_starting_iff.symm

theorem includes_periodic_iff : (periodic n period).Includes tick ↔ period ≠ 0 ∧ ∃ i, tick = n + (i + 1) * period := by
  unfold periodic
  split
  · next none => exact ⟨False.elim, fun h => h.1 none⟩
  · next some =>
    have same : ∀ i, n + period + i * period = n + (i + 1) * period := fun i => by
      rw [Nat.succ_mul]
      omega
    simp only [Includes, same]
    exact ⟨fun h => ⟨some, h⟩, And.right⟩

theorem includes_once_iff {timeout : Nat} : (once n timeout).Includes tick ↔ tick = n + max timeout 1 := by
  simp only [once, Includes, Nat.mul_zero, Nat.add_zero, exists_const]

/-! ## What comes next -/

/-- The first tick after the given one at which the timer is to fire. -/
def next? (n : Nat) : Timetable → Option Nat
  | never => none
  | starting first period =>
    if n < first then some first
    else if period = 0 then none
    else some (first + ((n - first) / period + 1) * period)

theorem next?_eq_some_iff :
    τ.next? n = some tick ↔ (n < tick ∧ τ.Includes tick) ∧ ∀ i, n < i → τ.Includes i → tick ≤ i := by
  -- The first tick is determined by being the first, so it is enough to know that `next?` is.
  have unique : ∀ {j}, (n < j ∧ τ.Includes j) ∧ (∀ i, n < i → τ.Includes i → j ≤ i) →
      (some j = some tick ↔ (n < tick ∧ τ.Includes tick) ∧ ∀ i, n < i → τ.Includes i → tick ≤ i) := by
    intro j hj
    refine ⟨fun he => Option.some.inj he ▸ hj, fun ht => congrArg some (Nat.le_antisymm ?_ ?_)⟩
    · exact hj.2 tick ht.1.1 ht.1.2
    · exact ht.2 j hj.1.1 hj.1.2
  cases τ with
  | never => exact ⟨nofun, fun h => h.1.2.elim⟩
  | starting first period =>
    rw [next?]
    split
    · next ahead =>
      refine unique ⟨⟨ahead, 0, by omega⟩, ?_⟩
      rintro i _ ⟨j, rfl⟩
      exact Nat.le_add_right first _
    · next past =>
      split
      · next once =>
        refine ⟨nofun, fun h => ?_⟩
        obtain ⟨⟨later, i, rfl⟩, _⟩ := h
        rw [once, Nat.mul_zero] at later
        omega
      · next some =>
        have step := Nat.lt_mul_div_succ (n - first) (Nat.pos_of_ne_zero some)
        rw [Nat.mul_comm] at step
        refine unique ⟨⟨by omega, _, rfl⟩, ?_⟩
        rintro i later ⟨j, rfl⟩
        have enough : (n - first) / period < j := by
          refine Nat.div_lt_of_lt_mul ?_
          rw [Nat.mul_comm]
          omega
        exact Nat.add_le_add_left (Nat.mul_le_mul_right period enough) first

theorem next?_congr (h : ∀ i, n < i → (τ.Includes i ↔ τ'.Includes i)) : τ.next? n = τ'.next? n := by
  refine Option.ext fun tick => ?_
  simp only [next?_eq_some_iff]
  refine and_congr (and_congr_right fun later => h tick later) (forall_congr' fun i => ?_)
  exact imp_congr_right fun later => imp_congr (h i later) Iff.rfl

/-- Keep the next tick, and then take up a new period. -/
def reloaded (τ : Timetable) (n period : Nat) : Timetable :=
  match τ.next? n with
  | some next => starting next period
  | none => never

/-- The number of ticks that are left until the next one of the timetable; zero if there is none. -/
def left (n : Nat) (τ : Timetable) : Nat :=
  match τ.next? n with
  | some next => next - n
  | none => 0

theorem left_eq_zero_iff : τ.left n = 0 ↔ τ.next? n = none := by
  unfold left
  cases hn : τ.next? n with
  | none => exact ⟨fun _ => rfl, fun _ => rfl⟩
  | some next =>
    have later := (next?_eq_some_iff.mp hn).1.1
    refine ⟨fun zero => ?_, nofun⟩
    dsimp only at zero
    omega

end Timetable

/-- The timetable that a timer gets from an operation: the tick it is at and the period of the timer are given, and the
timetable it keeps to so far. Other operations, and those on other timers, leave it at that. -/
def Call.timetable? (timer n reload : Nat) (τ : Timetable) : Call → Option Timetable
  | .enableTimer other => if other = timer then some (.periodic n reload) else none
  | .disableTimer other => if other = timer then some .never else none
  | .oneShot other timeout => if other = timer then some (.once n timeout.toNat) else none
  | .setReload other period => if other = timer then some (τ.reloaded n period.toNat) else none
  | _ => none

/-! ## The timetable a timer keeps to -/

namespace TimerState

variable {s : TimerState c} {n : Nat}

/-- The timetable a timer keeps to, as far as its state tells at the given tick. -/
def timetable (n : Nat) (s : TimerState c) : Timetable :=
  if s.enabled then .starting (n + (s.expiry - .ofNat n).toNat) s.reload.toNat else .never

theorem timetable_on (h : s.enabled = true) :
    s.timetable n = .starting (n + (s.expiry - .ofNat n).toNat) s.reload.toNat := if_pos h

theorem timetable_off (h : s.enabled = false) : s.timetable n = .never := if_neg (Bool.eq_false_iff.mp h)

theorem Ahead.positive (h : s.Ahead (.ofNat n)) (on : s.enabled = true) : 0 < (s.expiry - .ofNat n).toNat := by
  refine Nat.pos_of_ne_zero fun zero => h on ?_
  have same : s.expiry - .ofNat n = 0 := UInt32.toNat_inj.mp zero
  rw [← UInt32.sub_add_cancel s.expiry (.ofNat n), same, UInt32.zero_add]

theorem next?_timetable (h : s.Ahead (.ofNat n)) :
    (s.timetable n).next? n = if s.enabled then some (n + (s.expiry - .ofNat n).toNat) else none := by
  cases on : s.enabled with
  | false => rw [timetable_off on]; rfl
  | true =>
    have positive := h.positive on
    rw [timetable_on on, Timetable.next?, if_pos (by omega)]
    rfl

end TimerState

/-- At the given tick, the state of the timer tells what the timetable says about all ticks to come. -/
def Shows (n : Nat) (τ : Timetable) (s : TimerState c) : Prop :=
  ∀ i, n < i → (τ.Includes i ↔ (s.timetable n).Includes i)

namespace Shows

variable {n : Nat} {τ : Timetable} {s s' : TimerState c}

theorem of_eq (h : τ = s.timetable n) : Shows n τ s := fun _ _ => by rw [h]

theorem next? (h : Shows n τ s) (ahead : s.Ahead (.ofNat n)) :
    τ.next? n = if s.enabled then some (n + (s.expiry - .ofNat n).toNat) else none :=
  (Timetable.next?_congr h).trans (TimerState.next?_timetable ahead)

theorem enabled_iff (h : Shows n τ s) (ahead : s.Ahead (.ofNat n)) : s.enabled = (τ.next? n).isSome := by
  rw [h.next? ahead]
  cases s.enabled <;> rfl

/-- The timer tells how many ticks are left until it is to fire next. -/
theorem left (h : Shows n τ s) (ahead : s.Ahead (.ofNat n)) :
    (if s.enabled then s.expiry - .ofNat n else 0).toNat = τ.left n := by
  rw [Timetable.left, h.next? ahead]
  cases s.enabled with
  | false => rfl
  | true => exact (Nat.add_sub_cancel_left ..).symm

/-- A timer that lies ahead is due at the next tick just if it is to fire then. -/
theorem due_iff (h : Shows n τ s) (ahead : s.Ahead (.ofNat n)) :
    τ.Includes (n + 1) ↔ s.enabled = true ∧ s.expiry = .ofNat n + 1 := by
  rw [h (n + 1) (Nat.lt_succ_self n)]
  cases on : s.enabled with
  | false =>
    rw [TimerState.timetable_off on]
    exact ⟨False.elim, nofun⟩
  | true =>
    have positive := ahead.positive on
    rw [TimerState.timetable_on on]
    constructor
    · rintro ⟨i, hi⟩
      have one : s.expiry - .ofNat n = 1 := UInt32.toNat_inj.mp (by rw [UInt32.toNat_one]; omega)
      refine ⟨rfl, ?_⟩
      rw [← UInt32.sub_add_cancel s.expiry (.ofNat n), one, UInt32.add_comm]
    · rintro ⟨_, due⟩
      have one : s.expiry - .ofNat n = 1 := by rw [due, UInt32.add_comm, UInt32.add_sub_cancel]
      exact ⟨0, by rw [one, UInt32.toNat_one, Nat.zero_mul, Nat.add_zero]⟩

/-- The tick passes, and the timer with it. -/
theorem ticked (h : Shows n τ s) (ahead : s.Ahead (.ofNat n)) : Shows (n + 1) τ (s.ticked (.ofNat n + 1)) := by
  intro i later
  rw [h i (by omega), TimerState.ticked]
  split
  · next due =>
    have one : s.expiry - .ofNat n = 1 := by rw [due.2, UInt32.add_comm, UInt32.add_sub_cancel]
    rw [TimerState.timetable_on due.1, one, UInt32.toNat_one]
    split
    · next last =>
      rw [TimerState.timetable_off (by rfl), last]
      refine ⟨?_, False.elim⟩
      rintro ⟨j, rfl⟩
      rw [UInt32.toNat_zero, Nat.mul_zero] at later
      omega
    · next more =>
      rw [TimerState.timetable_on (by exact due.1)]
      dsimp only
      rw [← ofNat_succ, UInt32.add_comm, UInt32.add_sub_cancel]
      constructor
      · rintro ⟨j, rfl⟩
        cases j with
        | zero => omega
        | succ j => exact ⟨j, by rw [Nat.succ_mul]; omega⟩
      · rintro ⟨j, rfl⟩
        exact ⟨j + 1, by rw [Nat.succ_mul]; omega⟩
  · next idle =>
    cases on : s.enabled with
    | false => rw [TimerState.timetable_off on, TimerState.timetable_off on]
    | true =>
      have positive := ahead.positive on
      have less : s.expiry - .ofNat (n + 1) = s.expiry - .ofNat n - 1 := by rw [ofNat_succ]; grind
      have left : (s.expiry - .ofNat n - 1).toNat = (s.expiry - .ofNat n).toNat - 1 :=
        UInt32.toNat_sub_of_le _ _ (UInt32.le_iff_toNat_le.mpr positive)
      have same : n + 1 + (s.expiry - .ofNat (n + 1)).toNat = n + (s.expiry - .ofNat n).toNat := by
        rw [less, left]
        omega
      rw [TimerState.timetable_on on, TimerState.timetable_on on, same]

/-- Operations set the timer to the timetable they give to it. -/
theorem retimed (h : Shows n τ s) (ahead : s.Ahead (.ofNat n)) (call : Call) (id : c.TimerId) :
    Shows n ((call.timetable? id n s.reload.toNat τ).getD τ) (call.retimed (.ofNat n) id s) := by
  have back : ∀ ticks : Ticks, .ofNat n + ticks - .ofNat n = ticks := fun ticks => by
    rw [UInt32.add_comm, UInt32.add_sub_cancel]
  cases call with
  | enableTimer timer =>
    simp only [Call.timetable?, Call.retimed, Call.change?]
    split
    · refine of_eq ?_
      by_cases none : s.reload = 0
      · rw [TimerState.started, if_pos none, TimerState.timetable_off (by rfl), none]
        rfl
      · have some : s.reload.toNat ≠ 0 := fun zero => none (UInt32.toNat_inj.mp zero)
        rw [TimerState.started, if_neg none, TimerState.timetable_on (by rfl), back, Option.getD_some,
          Timetable.periodic, if_neg some]
    · exact h
  | disableTimer timer =>
    simp only [Call.timetable?, Call.retimed, Call.change?]
    split
    · exact of_eq (TimerState.timetable_off (by rfl)).symm
    · exact h
  | oneShot timer timeout =>
    simp only [Call.timetable?, Call.retimed, Call.change?]
    split
    · refine of_eq ?_
      rw [TimerState.once, TimerState.timetable_on (by rfl), back, toNat_max]
      rfl
    · exact h
  | setReload timer reload =>
    simp only [Call.timetable?, Call.retimed, Call.change?]
    split
    · refine of_eq ?_
      rw [Option.getD_some, Timetable.reloaded, h.next? ahead]
      cases on : s.enabled with
      | false => exact (TimerState.timetable_off (s := { s with reload := reload, enabled := false }) rfl).symm
      | true => exact (TimerState.timetable_on (s := { s with reload := reload, enabled := true }) rfl).symm
    · exact h
  | setTimerSignal timer task set | setTimerError timer error | takeOverflow timer =>
    simp only [Call.timetable?, Call.retimed, Call.change?]
    split <;> exact h
  | _ => exact h

end Shows

end Rtos
