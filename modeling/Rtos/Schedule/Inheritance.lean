import Rtos.Table

/-!
# Priorities under inheritance

A task that waits for a mutex lends its priority to the holder of the mutex, and through it to the task the holder waits
for in turn. `Inheritance.propagate` computes the priorities that result, for any relation "is blocked by", cycles
included: every task starts at its own priority, and priorities are handed on until nothing changes. Priorities only
ever become more urgent, so their sum bounds the work (`Inheritance.sum_sweep_lt`). Whatever priorities were kept from
before are overwritten first (`Inheritance.recompute`).
-/

namespace Rtos.Inheritance
set_option autoImplicit false

variable {n : Nat}

/-- Hand the priority of `waiter` on to the task that blocks it, if that makes it more urgent. -/
def lend (blocker : Fin n → Option (Fin n)) (priority : Table Nat n) (waiter : Fin n) : Table Nat n :=
  match blocker waiter with
  | none => priority
  | some holder =>
    if priority[waiter] < priority[holder] then priority.set holder priority[waiter] else priority

/-- Let every task lend its priority once, in ascending order. -/
def sweep (blocker : Fin n → Option (Fin n)) (priority : Table Nat n) : Table Nat n :=
  (List.finRange n).foldl (lend blocker) priority

/-- The sum of a list of priorities. -/
def total (priorities : List Nat) : Nat := priorities.foldr (fun priority rest => priority + rest) 0

/-- The sum of all priorities. -/
def sum (priority : Table Nat n) : Nat := total priority.toList

/-! ## Sweeping comes to an end -/

theorem total_set (l : List Nat) (i x y : Nat) (h : l[i]? = some y) : total (l.set i x) + y = total l + x := by
  induction l generalizing i with
  | nil => simp at h
  | cons z l ih =>
    cases i with
    | zero =>
      have hy : z = y := by simpa using h
      simp only [total, List.set_cons_zero, List.foldr_cons]
      omega
    | succ i =>
      have := ih i (by simpa using h)
      simp only [total, List.set_cons_succ, List.foldr_cons] at this ⊢
      omega

theorem lend_eq_or_sum_lt (blocker : Fin n → Option (Fin n)) (priority : Table Nat n) (waiter : Fin n) :
    lend blocker priority waiter = priority ∨ sum (lend blocker priority waiter) < sum priority := by
  unfold lend
  split
  · exact .inl rfl
  · next holder _ =>
    split
    · next h =>
      right
      have hs := total_set priority.toList holder priority[waiter] priority[holder] (priority.getElem?_toList holder)
      simp only [sum, Table.toList_set]
      omega
    · exact .inl rfl

theorem foldl_lend_eq_or_sum_lt (blocker : Fin n → Option (Fin n)) (waiters : List (Fin n)) (priority : Table Nat n) :
    waiters.foldl (lend blocker) priority = priority ∨
      sum (waiters.foldl (lend blocker) priority) < sum priority := by
  induction waiters generalizing priority with
  | nil => exact .inl rfl
  | cons w ws ih =>
    rcases lend_eq_or_sum_lt blocker priority w with h | h
    · rw [List.foldl_cons, h]; exact ih priority
    · rw [List.foldl_cons]
      rcases ih (lend blocker priority w) with h' | h'
      · rw [h']; exact .inr h
      · exact .inr (Nat.lt_trans h' h)

/-- A sweep that changes anything lowers the sum. -/
theorem sum_sweep_lt (blocker : Fin n → Option (Fin n)) (priority : Table Nat n)
    (h : sweep blocker priority ≠ priority) : sum (sweep blocker priority) < sum priority :=
  (foldl_lend_eq_or_sum_lt blocker (List.finRange n) priority).resolve_left h

/-! ## The fixed point -/

/-- Sweep until nothing changes. -/
def settle (blocker : Fin n → Option (Fin n)) (priority : Table Nat n) : Table Nat n :=
  if sweep blocker priority = priority then priority else settle blocker (sweep blocker priority)
termination_by sum priority
decreasing_by exact sum_sweep_lt blocker priority (by assumption)

/-- The priority of every task, given the task that blocks it. -/
def propagate (blocker : Fin n → Option (Fin n)) : Table Nat n :=
  settle blocker (Table.ofFn fun task => task.val)

/-! ## Starting over -/

/-- Put a task back to its own priority. -/
def restore (priority : Table Nat n) (task : Fin n) : Table Nat n := priority.set task task.val

/-- Put every task back to its own priority, in ascending order. -/
def reset (priority : Table Nat n) : Table Nat n := (List.finRange n).foldl restore priority

/-- Overwrite the priorities of before with those that result from the tasks that block each other now. -/
def recompute (blocker : Fin n → Option (Fin n)) (priority : Table Nat n) : Table Nat n :=
  settle blocker (reset priority)

theorem getElem_foldl_restore {tasks : List (Fin n)} {priority : Table Nat n} {t : Fin n}
    (h : t ∈ tasks ∨ priority[t] = t.val) : (tasks.foldl restore priority)[t] = t.val := by
  induction tasks generalizing priority with
  | nil => exact h.resolve_left List.not_mem_nil
  | cons u us ih =>
    refine ih ?_
    by_cases hu : t = u
    · right
      simp [restore, hu]
    · refine h.imp (fun ht => (List.mem_cons.mp ht).resolve_left hu) fun kept => ?_
      rw [restore, Table.getElem_set_of_ne _ _ hu, kept]

/-- Nothing is left of the priorities of before. -/
theorem reset_eq (priority : Table Nat n) : reset priority = Table.ofFn fun task => task.val := by
  ext t
  rw [reset, getElem_foldl_restore (.inl (List.mem_finRange t)), Table.getElem_ofFn]

theorem recompute_eq (blocker : Fin n → Option (Fin n)) (priority : Table Nat n) :
    recompute blocker priority = propagate blocker := by
  rw [recompute, reset_eq, propagate]

end Rtos.Inheritance
