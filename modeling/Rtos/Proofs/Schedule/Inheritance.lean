import Mathlib.Logic.Relation
import Mathlib.Order.Bounds.Defs
import Rtos.Schedule.Inheritance

/-!
# What propagation computes

* `Reaches blocker u t`: the chain of blockers that starts at `u` comes to `t`.
* `propagate_isLeast`: the priority that propagation gives a task is the least number among the tasks whose chain
  reaches it.
* `Reaches.end_unique`: a chain has at most one end, so that tasks which are not blocked share no waiter
  (`propagate_injective_on_ends`).

Two invariants carry the proof. While priorities are handed on, each is the number of a task whose chain reaches its
owner (`Sourced`); and where nothing changes any more, no task is less urgent than one it blocks (`le_of_sweep_eq`).
-/

namespace Rtos.Inheritance
set_option autoImplicit false

variable {n : Nat}

/-- The chain of blockers that starts at `u` comes to `t`. -/
def Reaches (blocker : Fin n → Option (Fin n)) : Fin n → Fin n → Prop :=
  Relation.ReflTransGen fun u h => blocker u = some h

/-! ## Chains -/

theorem Reaches.refl (blocker : Fin n → Option (Fin n)) (t : Fin n) : Reaches blocker t t :=
  Relation.ReflTransGen.refl

theorem Reaches.tail {blocker : Fin n → Option (Fin n)} {u t h : Fin n} (hut : Reaches blocker u t)
    (hth : blocker t = some h) : Reaches blocker u h :=
  Relation.ReflTransGen.tail hut hth

theorem Reaches.eq_of_end {blocker : Fin n → Option (Fin n)} {t u : Fin n} (h : Reaches blocker t u)
    (ht : blocker t = none) : u = t := by
  rcases Relation.ReflTransGen.cases_head h with he | ⟨v, hv, _⟩
  · exact he.symm
  · rw [ht] at hv
    cases hv

/-- A chain has at most one end. -/
theorem Reaches.end_unique {blocker : Fin n → Option (Fin n)} {u s t : Fin n} (hs : Reaches blocker u s)
    (ht : Reaches blocker u t) (hse : blocker s = none) (hte : blocker t = none) : s = t := by
  have unique : Relator.RightUnique fun u h : Fin n => blocker u = some h := by
    intro a b d hb hd
    exact Option.some.inj (hb.symm.trans hd)
  rcases Relation.ReflTransGen.total_of_right_unique unique hs ht with h | h
  · exact (Reaches.eq_of_end h hse).symm
  · exact Reaches.eq_of_end h hte

/-! ## Every priority comes from somewhere -/

/-- Every priority is the number of a task whose chain reaches the owner, and at least as urgent as the owner. -/
structure Sourced (blocker : Fin n → Option (Fin n)) (priority : Table Nat n) : Prop where
  source : ∀ t : Fin n, ∃ u, Reaches blocker u t ∧ priority[t] = u.val
  le_self : ∀ t : Fin n, priority[t] ≤ t.val

theorem Sourced.own (blocker : Fin n → Option (Fin n)) : Sourced blocker (Table.ofFn fun task => task.val) where
  source t := ⟨t, Reaches.refl blocker t, by simp⟩
  le_self t := by simp

theorem Sourced.lend {blocker : Fin n → Option (Fin n)} {priority : Table Nat n} (h : Sourced blocker priority)
    (waiter : Fin n) : Sourced blocker (lend blocker priority waiter) := by
  unfold Inheritance.lend
  split
  · exact h
  · next holder hb =>
    split
    · next hlt =>
      obtain ⟨u, hu, hp⟩ := h.source waiter
      constructor
      · intro t
        by_cases ht : t = holder
        · subst ht
          exact ⟨u, hu.tail hb, by simpa using hp⟩
        · obtain ⟨v, hv, hvp⟩ := h.source t
          refine ⟨v, hv, ?_⟩
          rw [Table.getElem_set_of_ne priority _ ht]
          exact hvp
      · intro t
        by_cases ht : t = holder
        · subst ht
          have := h.le_self t
          rw [Table.getElem_set_self]
          omega
        · rw [Table.getElem_set_of_ne priority _ ht]
          exact h.le_self t
    · exact h

theorem Sourced.foldl_lend {blocker : Fin n → Option (Fin n)} {priority : Table Nat n} (waiters : List (Fin n))
    (h : Sourced blocker priority) : Sourced blocker (waiters.foldl (Inheritance.lend blocker) priority) := by
  induction waiters generalizing priority with
  | nil => exact h
  | cons w ws ih => exact ih (h.lend w)

/-! ## Where nothing changes any more -/

/-- If handing on changes nothing in the end, it changes nothing on the way: every change lowers the sum. -/
theorem lend_eq_of_foldl_eq (blocker : Fin n → Option (Fin n)) (waiters : List (Fin n)) (priority : Table Nat n)
    (h : waiters.foldl (lend blocker) priority = priority) : ∀ w ∈ waiters, lend blocker priority w = priority := by
  induction waiters generalizing priority with
  | nil => simp
  | cons w ws ih =>
    rw [List.foldl_cons] at h
    have hw : lend blocker priority w = priority := by
      rcases lend_eq_or_sum_lt blocker priority w with hw | hw
      · exact hw
      -- A sum that has gone down does not come up again.
      · have hs : sum (ws.foldl (lend blocker) (lend blocker priority w)) = sum priority := by rw [h]
        rcases foldl_lend_eq_or_sum_lt blocker ws (lend blocker priority w) with he | hlt
        · rw [he] at hs
          omega
        · omega
    rw [hw] at h
    intro v hv
    rcases List.mem_cons.mp hv with rfl | hv
    · exact hw
    · exact ih priority h v hv

theorem le_of_lend_eq {blocker : Fin n → Option (Fin n)} {priority : Table Nat n} {u h : Fin n}
    (hb : blocker u = some h) (he : lend blocker priority u = priority) : priority[h] ≤ priority[u] := by
  refine Nat.le_of_not_lt fun hlt => ?_
  have hl : lend blocker priority u = priority.set h priority[u] := by
    unfold lend
    split
    · next hn =>
      rw [hb] at hn
      cases hn
    · next holder hh =>
      rw [hb] at hh
      cases hh
      exact if_pos hlt
  have hg : (lend blocker priority u)[h] = priority[u] := by
    rw [hl]
    simp
  rw [he] at hg
  omega

/-- Where a sweep changes nothing, no task is less urgent than a task whose chain reaches it. -/
theorem le_of_sweep_eq {blocker : Fin n → Option (Fin n)} {priority : Table Nat n}
    (h : sweep blocker priority = priority) {u t : Fin n} (hut : Reaches blocker u t) : priority[t] ≤ priority[u] := by
  induction hut with
  | refl => exact Nat.le_refl _
  | @tail v w _ hvw ih =>
    have he := lend_eq_of_foldl_eq blocker (List.finRange n) priority h v (List.mem_finRange v)
    exact Nat.le_trans (le_of_lend_eq hvw he) ih

/-! ## The result of propagation -/

theorem settle_spec (blocker : Fin n → Option (Fin n)) (priority : Table Nat n) (h : Sourced blocker priority) :
    Sourced blocker (settle blocker priority) ∧
      sweep blocker (settle blocker priority) = settle blocker priority := by
  induction priority using settle.induct blocker with
  | case1 priority hfix =>
    rw [settle, if_pos hfix]
    exact ⟨h, hfix⟩
  | case2 priority hfix ih =>
    rw [settle, if_neg hfix]
    exact ih (h.foldl_lend (List.finRange n))

/-- The priority of a task is the least number among the tasks whose chain of blockers reaches it. -/
theorem propagate_isLeast (blocker : Fin n → Option (Fin n)) (t : Fin n) :
    IsLeast {p | ∃ u, Reaches blocker u t ∧ u.val = p} (propagate blocker)[t] := by
  obtain ⟨hs, hf⟩ := settle_spec blocker _ (Sourced.own blocker)
  constructor
  · obtain ⟨u, hu, hp⟩ := hs.source t
    exact ⟨u, hu, hp.symm⟩
  · rintro p ⟨u, hu, rfl⟩
    exact Nat.le_trans (le_of_sweep_eq hf hu) (hs.le_self u)

/-- Two tasks that are not blocked have different priorities. -/
theorem propagate_injective_on_ends (blocker : Fin n → Option (Fin n)) {s t : Fin n} (hs : blocker s = none)
    (ht : blocker t = none) (h : (propagate blocker)[s] = (propagate blocker)[t]) : s = t := by
  obtain ⟨u, hus, hu⟩ := (propagate_isLeast blocker s).1
  obtain ⟨v, hvt, hv⟩ := (propagate_isLeast blocker t).1
  have huv : u = v := Fin.ext (hu.trans (h.trans hv.symm))
  subst huv
  exact hus.end_unique hvt hs ht

end Rtos.Inheritance
