import Mathlib.Data.Fintype.Card
import Mathlib.Logic.Function.Iterate
import Rtos.Proofs.Schedule.Inheritance

/-!
# How soon the priorities settle

* `finished`: the tasks that have their final priority already.
* `Recomputed`: what computing the priorities anew comes to, whatever they were before and however the tasks block each
  other.
* `recompute_computes_reachability`: it comes to that.

The number of a task is its final priority unless a more urgent task reaches it. So the first task of the chain that
gives `t` its priority is finished from the start, and as long as `t` is not, the chain has a link from a finished task
to one that is not, which the next sweep finishes (`exists_finished_sweep`). Hence every sweep that changes anything
finishes a task more, and the most urgent task is finished before the first.
-/

namespace Rtos.Inheritance
set_option autoImplicit false

variable {n : Nat} {blocker : Fin n → Option (Fin n)} {priority : Table Nat n}

/-! ## One sweep -/

theorem lend_le (blocker : Fin n → Option (Fin n)) (priority : Table Nat n) (waiter t : Fin n) :
    (lend blocker priority waiter)[t] ≤ priority[t] := by
  unfold lend
  split
  · exact Nat.le_refl _
  · next holder _ =>
    split
    · next less =>
      by_cases ht : t = holder
      · rw [ht, Table.getElem_set_self]
        exact Nat.le_of_lt less
      · rw [Table.getElem_set_of_ne priority _ ht]
    · exact Nat.le_refl _

theorem lend_holder_le {waiter holder : Fin n} (hb : blocker waiter = some holder) (priority : Table Nat n) :
    (lend blocker priority waiter)[holder] ≤ priority[waiter] := by
  unfold lend
  rw [hb]
  dsimp only
  split
  · rw [Table.getElem_set_self]
  · omega

theorem foldl_lend_le (blocker : Fin n → Option (Fin n)) (waiters : List (Fin n)) (priority : Table Nat n) (t : Fin n) :
    (waiters.foldl (lend blocker) priority)[t] ≤ priority[t] := by
  induction waiters generalizing priority with
  | nil => exact Nat.le_refl _
  | cons w ws ih => exact Nat.le_trans (ih (lend blocker priority w)) (lend_le blocker priority w t)

theorem foldl_lend_holder_le {waiter holder : Fin n} (hb : blocker waiter = some holder) (waiters : List (Fin n))
    (mem : waiter ∈ waiters) (priority : Table Nat n) :
    (waiters.foldl (lend blocker) priority)[holder] ≤ priority[waiter] := by
  induction waiters generalizing priority with
  | nil => cases mem
  | cons w ws ih =>
    rw [List.foldl_cons]
    rcases List.mem_cons.mp mem with rfl | mem
    · exact Nat.le_trans (foldl_lend_le blocker ws _ holder) (lend_holder_le hb priority)
    · exact Nat.le_trans (ih mem _) (lend_le blocker priority w waiter)

/-- A sweep takes the priority of a task at least one link further, and never back. -/
theorem sweep_holder_le {waiter holder : Fin n} (hb : blocker waiter = some holder) (priority : Table Nat n) :
    (sweep blocker priority)[holder] ≤ priority[waiter] :=
  foldl_lend_holder_le hb _ (List.mem_finRange waiter) priority

/-! ## Tasks that have their final priority -/

/-- The tasks that have the priority propagation gives them. -/
def finished (blocker : Fin n → Option (Fin n)) (priority : Table Nat n) : Finset (Fin n) :=
  Finset.univ.filter fun t => priority[t] = (propagate blocker)[t]

theorem mem_finished {t : Fin n} : t ∈ finished blocker priority ↔ priority[t] = (propagate blocker)[t] := by
  simp [finished]

/-- Whatever reaches a task reaches the task that blocks it. -/
theorem propagate_holder_le {waiter holder : Fin n} (hb : blocker waiter = some holder) :
    (propagate blocker)[holder] ≤ (propagate blocker)[waiter] := by
  obtain ⟨u, reaches, hu⟩ := (propagate_isLeast blocker waiter).1
  rw [← hu]
  exact (propagate_isLeast blocker holder).2 ⟨u, reaches.tail hb, rfl⟩

/-- On the way to the final priorities no task is more urgent than it is in the end. -/
theorem Sourced.propagate_le (h : Sourced blocker priority) (t : Fin n) : (propagate blocker)[t] ≤ priority[t] := by
  obtain ⟨u, reaches, hu⟩ := h.source t
  rw [hu]
  exact (propagate_isLeast blocker t).2 ⟨u, reaches, rfl⟩

theorem Sourced.mem_finished_of_le (h : Sourced blocker priority) {t : Fin n}
    (le : priority[t] ≤ (propagate blocker)[t]) : t ∈ finished blocker priority :=
  mem_finished.mpr (Nat.le_antisymm le (h.propagate_le t))

theorem Sourced.sweep (h : Sourced blocker priority) : Sourced blocker (sweep blocker priority) :=
  h.foldl_lend (List.finRange n)

theorem Sourced.finished_subset (h : Sourced blocker priority) :
    finished blocker priority ⊆ finished blocker (Inheritance.sweep blocker priority) := by
  intro t ht
  refine h.sweep.mem_finished_of_le ?_
  rw [← mem_finished.mp ht]
  exact foldl_lend_le blocker (List.finRange n) priority t

/-- Where a chain leads from the task that gives `t` its priority to `t`, either `t` is finished or the next sweep
finishes a task of the chain. -/
theorem Sourced.exists_finished_sweep (h : Sourced blocker priority) {u t : Fin n} (reaches : Reaches blocker u t)
    (gives : (propagate blocker)[t] = u.val) : t ∈ finished blocker priority ∨
      ∃ v, v ∈ finished blocker (Inheritance.sweep blocker priority) ∧ v ∉ finished blocker priority := by
  induction reaches with
  | refl => exact .inl (h.mem_finished_of_le (gives ▸ h.le_self u))
  | @tail v w reaches link ih =>
    have same : (propagate blocker)[v] = u.val := by
      have above := (propagate_isLeast blocker v).2 ⟨u, reaches, rfl⟩
      have below := propagate_holder_le link
      omega
    rcases ih same with fin | new
    · by_cases hw : w ∈ finished blocker priority
      · exact .inl hw
      · refine .inr ⟨w, h.sweep.mem_finished_of_le ?_, hw⟩
        calc (Inheritance.sweep blocker priority)[w] ≤ priority[v] := sweep_holder_le link priority
          _ = (propagate blocker)[v] := mem_finished.mp fin
          _ = (propagate blocker)[w] := same.trans gives.symm
    · exact .inr new

/-- A sweep that changes anything finishes a task more. -/
theorem Sourced.card_finished_lt (h : Sourced blocker priority)
    (changes : Inheritance.sweep blocker priority ≠ priority) :
    (finished blocker priority).card < (finished blocker (Inheritance.sweep blocker priority)).card := by
  have unfinished : ∃ t, t ∉ finished blocker priority := by
    by_contra! all
    have final : priority = propagate blocker := by
      ext t
      exact mem_finished.mp (all t)
    rw [final] at changes
    exact changes (settle_spec blocker _ (Sourced.own blocker)).2
  obtain ⟨t, ht⟩ := unfinished
  obtain ⟨u, reaches, hu⟩ := (propagate_isLeast blocker t).1
  obtain ⟨v, new, old⟩ := (h.exists_finished_sweep reaches hu.symm).resolve_left ht
  refine Finset.card_lt_card ((Finset.ssubset_iff_of_subset h.finished_subset).mpr ⟨v, new, old⟩)

/-- The most urgent task is finished from the start. -/
theorem card_finished_own_pos (blocker : Fin n → Option (Fin n)) (positive : 0 < n) :
    0 < (finished blocker (Table.ofFn fun task => task.val)).card := by
  refine Finset.card_pos.mpr ⟨⟨0, positive⟩, (Sourced.own blocker).mem_finished_of_le ?_⟩
  rw [Table.getElem_ofFn]
  exact Nat.zero_le _

/-! ## All sweeps -/

/-- Settling takes a number of sweeps each of which changes something, and every one of them finishes a task more. -/
theorem Sourced.exists_rounds (h : Sourced blocker priority) : ∃ rounds,
    settle blocker priority = (Inheritance.sweep blocker)^[rounds] priority ∧
      (∀ r < rounds, (Inheritance.sweep blocker)^[r + 1] priority ≠ (Inheritance.sweep blocker)^[r] priority) ∧
      rounds + (finished blocker priority).card ≤ n := by
  induction priority using settle.induct blocker with
  | case1 priority still =>
    refine ⟨0, by rw [settle, if_pos still]; rfl, fun r hr => absurd hr (Nat.not_lt_zero r), ?_⟩
    rw [Nat.zero_add]
    exact card_finset_fin_le _
  | case2 priority changes ih =>
    obtain ⟨rounds, same, changing, bound⟩ := ih h.sweep
    have grows := h.card_finished_lt changes
    refine ⟨rounds + 1, ?_, ?_, by omega⟩
    · rw [settle, if_neg changes, same, Function.iterate_succ_apply]
    · intro r hr
      cases r with
      | zero => exact changes
      | succ r =>
        rw [Function.iterate_succ_apply, Function.iterate_succ_apply _ r]
        exact changing r (by omega)

/-- What computing the priorities anew comes to. -/
structure Recomputed (blocker : Fin n → Option (Fin n)) (before : Table Nat n) : Prop where
  /-- Once every task is back at its own priority, fewer sweeps change something than there are tasks; after them a
  sweep changes nothing, which ends the work. -/
  ends : ∃ rounds, rounds ≤ n - 1 ∧
    (∀ r < rounds, (sweep blocker)^[r + 1] (reset before) ≠ (sweep blocker)^[r] (reset before)) ∧
    (sweep blocker)^[rounds + 1] (reset before) = (sweep blocker)^[rounds] (reset before) ∧
    recompute blocker before = (sweep blocker)^[rounds] (reset before)
  /-- The priority of a task is the least number among the tasks whose chain of blockers reaches it, itself included. -/
  least : ∀ t : Fin n, IsLeast {p | ∃ u, Reaches blocker u t ∧ u.val = p} (recompute blocker before)[t]

/-- However the tasks block each other and whatever the priorities were before, computing them anew comes to an end and
gives every task the priority of the most urgent task whose chain of blockers reaches it. -/
theorem recompute_computes_reachability (blocker : Fin n → Option (Fin n)) (before : Table Nat n) :
    Recomputed blocker before where
  ends := by
    have own : Sourced blocker (reset before) := by
      rw [reset_eq]
      exact Sourced.own blocker
    obtain ⟨rounds, same, changing, bound⟩ := own.exists_rounds
    refine ⟨rounds, ?_, changing, ?_, same⟩
    · rcases Nat.eq_zero_or_pos n with none | positive
      · omega
      · have most := card_finished_own_pos blocker positive
        rw [← reset_eq before] at most
        omega
    · rw [Function.iterate_succ_apply', ← same]
      exact (settle_spec blocker _ own).2
  least t := by
    rw [recompute_eq]
    exact propagate_isLeast blocker t

end Rtos.Inheritance
