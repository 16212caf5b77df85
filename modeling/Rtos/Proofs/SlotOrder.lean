import Rtos.Proofs.Kernel.Ceiling
import Rtos.Proofs.Transition
import Rtos.Showcase

/-!
# The order of the slots is the order of the ceilings

A task may lock a mutex if the slot of the mutex lies before its own. This makes sense because of the order in which the
slots are laid out.

* `emitted`: the slots in the order in which they are emitted, each with its number; `emitted_eq`: this is `slotLayout`,
  numbered.
* `emitted_lt_iff`: the numbers of two slots compare as their owners do.
* `LaidInOrder`: every task and every mutex has one slot, and a mutex comes before just the tasks that may lock it;
  `laidInOrder`: so it is if every ceiling is a task.
* `expectMayLock_play`: throughout every run, a task is refused just if the ceiling of the mutex is less urgent than the
  task.
* `slots_in_order`: the main result.
-/

namespace Rtos
set_option autoImplicit false

variable {n m : Nat} {ceiling : Fin m → Nat}

/-! ## What is emitted -/

/-- The slots in the order in which they are emitted, each with its number. -/
def emitted (n m : Nat) (ceiling : Fin m → Nat) : List (Nat × SlotOwner n m) :=
  emitSlots ceiling (fun log slot owner => log ++ [(slot, owner)]) []

theorem emitted_eq (n m : Nat) (ceiling : Fin m → Nat) :
    emitted n m ceiling = (slotLayout n m ceiling).zipIdx.map Prod.swap := by
  rw [emitted, emitSlots_eq]
  exact List.foldl_append_eq_append.trans (List.flatMap_pure_eq_map Prod.swap _)

theorem emitted_numbers (n m : Nat) (ceiling : Fin m → Nat) :
    (emitted n m ceiling).map Prod.fst = List.range (slotLayout n m ceiling).length := by
  rw [emitted_eq, List.map_map, List.range_eq_range']
  exact List.zipIdx_map_snd 0 _

theorem emitted_owners (n m : Nat) (ceiling : Fin m → Nat) :
    (emitted n m ceiling).map Prod.snd = slotLayout n m ceiling := by
  rw [emitted_eq, List.map_map]
  exact List.zipIdx_map_fst 0 _

theorem mem_emitted {i : Nat} {a : SlotOwner n m} (h : (i, a) ∈ emitted n m ceiling) :
    a ∈ slotLayout n m ceiling ∧ i = (slotLayout n m ceiling).idxOf a := by
  rw [emitted_eq] at h
  obtain ⟨slot, hs, he⟩ := List.mem_map.mp h
  obtain ⟨rfl, rfl⟩ := Prod.mk.inj he
  obtain ⟨hi, place⟩ := List.getElem?_eq_some_iff.mp (List.mem_zipIdx_iff_getElem?.mp hs)
  refine ⟨place ▸ List.getElem_mem hi, ?_⟩
  rw [← place, (slotLayout_nodup n m ceiling).idxOf_getElem _ hi]

theorem emitted_lt_iff {i j : Nat} {a b : SlotOwner n m} (ha : (i, a) ∈ emitted n m ceiling)
    (hb : (j, b) ∈ emitted n m ceiling) : i < j ↔ a.Precedes ceiling b := by
  obtain ⟨first, rfl⟩ := mem_emitted ha
  obtain ⟨second, rfl⟩ := mem_emitted hb
  exact idxOf_lt_idxOf_iff (slotLayout_pairwise n m ceiling) (fun _ _ => SlotOwner.Precedes.asymm) first second

/-- How the slots of `n` tasks and `m` mutexes are laid out. -/
structure LaidInOrder (n m : Nat) (ceiling : Fin m → Nat) : Prop where
  /-- Whatever is done with the slots is done with one after the other. -/
  calls : ∀ {σ : Type} (emit : σ → Nat → SlotOwner n m → σ) (start : σ),
    emitSlots ceiling emit start = (emitted n m ceiling).foldl (fun a slot => emit a slot.1 slot.2) start
  numbers : (emitted n m ceiling).map Prod.fst = List.range (n + m)
  task : ∀ t, ((emitted n m ceiling).map Prod.snd).count (.task t) = 1
  mutex : ∀ x, ((emitted n m ceiling).map Prod.snd).count (.mutex x) = 1
  taskOrder : ∀ {i j s t}, (i, .task s) ∈ emitted n m ceiling → (j, .task t) ∈ emitted n m ceiling → (i < j ↔ s < t)
  mutexOrder : ∀ {i j x y}, (i, .mutex x) ∈ emitted n m ceiling → (j, .mutex y) ∈ emitted n m ceiling →
    ceiling x = ceiling y → (i < j ↔ x < y)
  /-- A mutex comes before just the tasks that are not more urgent than its ceiling. -/
  ceilings : ∀ {i j x t}, (i, .mutex x) ∈ emitted n m ceiling → (j, .task t) ∈ emitted n m ceiling →
    (i < j ↔ ceiling x ≤ t.val)
  /-- The row of the ceiling policy notes the numbers. -/
  taskSlot : ∀ {i t}, (i, .task t) ∈ emitted n m ceiling → (SlotTable.layOut (n := n) ceiling).taskSlot[t] = i
  mutexSlot : ∀ {i x}, (i, .mutex x) ∈ emitted n m ceiling → (SlotTable.layOut (n := n) ceiling).mutexSlot[x] = i

theorem laidInOrder (named : ∀ x, ceiling x < n) : LaidInOrder n m ceiling where
  calls emit start := by
    rw [emitted_eq, List.foldl_map, emitSlots_eq]
    rfl
  numbers := by rw [emitted_numbers, length_slotLayout named]
  task t := by
    rw [emitted_owners]
    exact List.count_eq_one_of_mem (slotLayout_nodup n m ceiling) (task_mem_slotLayout ceiling t)
  mutex x := by
    rw [emitted_owners]
    exact List.count_eq_one_of_mem (slotLayout_nodup n m ceiling) (mutex_mem_slotLayout ceiling x (named x))
  taskOrder hs ht := emitted_lt_iff hs ht
  mutexOrder hx hy same := by
    rw [emitted_lt_iff hx hy]
    exact ⟨fun before => (before.resolve_left (Nat.not_lt_of_le (Nat.le_of_eq same.symm))).2,
      fun before => .inr ⟨same, before⟩⟩
  ceilings hx ht := emitted_lt_iff hx ht
  taskSlot h := by
    rw [SlotTable.layOut_eq named]
    exact (Table.getElem_ofFn ..).trans (mem_emitted h).2.symm
  mutexSlot h := by
    rw [SlotTable.layOut_eq named]
    exact (Table.getElem_ofFn ..).trans (mem_emitted h).2.symm

/-! ## What is checked -/

theorem Kernel.expectMayLock_eq {c : Config} (k : Kernel c) (x : c.MutexId) (t : c.TaskId) :
    expectMayLock x t k = if k.mayLock x t = true then .ok () k else .error (.fatal .ceilingViolation) k := by
  show (if (!k.mayLock x t) = true then fail .ceilingViolation else pure () : Action c Unit) k = _
  cases k.mayLock x t <;> rfl

namespace Machine
open Kernel

/-- Under the ceiling policy a task is refused just if it is more urgent than the ceiling of the mutex. -/
theorem expectMayLock_play {c : Config} (hp : c.policy = .ceiling) (acts : List Act)
    (hn : ∀ ending, (play c acts).control ≠ .ended ending) (x : c.MutexId) (t : c.TaskId) :
    expectMayLock x t (play c acts).kernel = if t.val < ceilingOf c x
      then .error (.fatal .ceilingViolation) (play c acts).kernel else .ok () (play c acts).kernel := by
  have ceilinged : c.Ceilinged := accepted_play (boot_ceilinged (Unstarted.initial c) rfl hp) hn
  have scheduled := (orderly_play (c := c) acts).1.scheduled hn
  have may : (play c acts).kernel.mayLock x t = true ↔ ceilingOf c x ≤ t.val := by
    rw [scheduled.mayLock_iff hp, ceilinged.mutexSlot_lt_taskSlot]
  rw [expectMayLock_eq]
  by_cases urgent : t.val < ceilingOf c x
  · rw [if_pos urgent, if_neg fun allowed => Nat.not_lt_of_le (may.mp allowed) urgent]
  · rw [if_neg urgent, if_pos (may.mpr (Nat.le_of_not_lt urgent))]

/-- However many tasks and mutexes there are, and whatever tasks are the ceilings: the slots are laid out in the order
of the ceilings. So under the ceiling policy, throughout every run, a task is refused a mutex just if it is more urgent
than the ceiling of the mutex. -/
theorem slots_in_order (n m : Nat) (ceiling : Fin m → Nat) (named : ∀ x, ceiling x < n) : LaidInOrder n m ceiling ∧
    ∀ (c : Config), c.policy = .ceiling → ∀ acts, (∀ ending, (play c acts).control ≠ .ended ending) →
      ∀ (x : c.MutexId) (t : c.TaskId), expectMayLock x t (play c acts).kernel = if t.val < ceilingOf c x
        then .error (.fatal .ceilingViolation) (play c acts).kernel else .ok () (play c acts).kernel :=
  ⟨laidInOrder named, fun _ hp acts hn x t => expectMayLock_play hp acts hn x t⟩

/-- The most urgent task is running. -/
def startUrgent : List Act := [.step, .step, .step, .step]

/-- The first mutex is for the task in the middle, the second one for the most urgent task. -/
theorem slots_in_order_startUrgent :
    (∀ x : Fin 2, 1 - x.val < 2) ∧
      emitted 2 2 (fun x => 1 - x.val) = [(0, .mutex 1), (1, .task 0), (2, .mutex 0), (3, .task 1)] ∧
      LaidInOrder 2 2 (fun x => 1 - x.val) ∧
      (play (Showcase.full .ceiling).scenario.config startUrgent).control = .application none ∧
      expectMayLock ⟨0, by decide⟩ ⟨0, by decide⟩ (play (Showcase.full .ceiling).scenario.config startUrgent).kernel =
        .error (.fatal .ceilingViolation) (play (Showcase.full .ceiling).scenario.config startUrgent).kernel := by
  have here : (play (Showcase.full .ceiling).scenario.config startUrgent).control = .application none := by
    decide +kernel
  obtain ⟨order, checks⟩ := slots_in_order 2 2 (fun x => 1 - x.val) (by decide)
  have refused :=
    checks (Showcase.full .ceiling).scenario.config rfl startUrgent (fun ending he => by cases here.symm.trans he)
    ⟨0, by decide⟩ ⟨0, by decide⟩
  rw [if_pos (by decide +kernel)] at refused
  exact ⟨by decide, by decide, order, here, refused⟩

end Machine

end Rtos
