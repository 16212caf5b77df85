import Rtos.Proofs.Kernel.Schedule

/-!
# The order of the slots

* `SlotOwner.Precedes`: which of two owners stands before the other, given the ceilings of the mutexes.
* `slotLayout_pairwise`: the layout is in this order.
* `Config.taskSlot_lt_taskSlot` and its siblings: so the slots of two owners compare as the owners do. A mutex has a
  slot only if its ceiling is an existing task (`Config.Ceilinged`).
-/

namespace Rtos
set_option autoImplicit false

variable {n m : Nat}

/-- One owner stands before another: tasks in the order of their numbers, and before each task the mutexes whose ceiling
it is, in the order of theirs. -/
def SlotOwner.Precedes (ceiling : Fin m → Nat) : SlotOwner n m → SlotOwner n m → Prop
  | .task s, .task t => s < t
  | .task s, .mutex y => s.val < ceiling y
  | .mutex x, .task t => ceiling x ≤ t.val
  | .mutex x, .mutex y => ceiling x < ceiling y ∨ (ceiling x = ceiling y ∧ x < y)

theorem SlotOwner.Precedes.asymm {ceiling : Fin m → Nat} {a b : SlotOwner n m} (h : a.Precedes ceiling b) :
    ¬ b.Precedes ceiling a := by
  intro h'
  cases a <;> cases b <;> simp only [SlotOwner.Precedes] at h h' <;> omega

/-- The slots of one task: the mutexes whose ceiling it is, and the task itself. -/
theorem slotLayout_group_pairwise (ceiling : Fin m → Nat) (t : Fin n) :
    (((List.finRange m).filter fun x => ceiling x == t.val).map SlotOwner.mutex ++ [SlotOwner.task t]).Pairwise
      (SlotOwner.Precedes ceiling) := by
  refine List.pairwise_append.mpr ⟨?_, List.pairwise_singleton _ _, ?_⟩
  · refine List.pairwise_map.mpr (((List.pairwise_lt_finRange m).filter _).imp_of_mem ?_)
    intro x y hx hy hxy
    have hx : ceiling x = t.val := by simpa using (List.mem_filter.mp hx).2
    have hy : ceiling y = t.val := by simpa using (List.mem_filter.mp hy).2
    exact .inr ⟨hx.trans hy.symm, hxy⟩
  · intro a ha b hb
    obtain ⟨x, hx, rfl⟩ := List.mem_map.mp ha
    obtain rfl := List.mem_singleton.mp hb
    have hx : ceiling x = t.val := by simpa using (List.mem_filter.mp hx).2
    exact Nat.le_of_eq hx

theorem slotLayout_pairwise (n m : Nat) (ceiling : Fin m → Nat) :
    (slotLayout n m ceiling).Pairwise (SlotOwner.Precedes ceiling) := by
  refine List.pairwise_flatMap.mpr ⟨fun t _ => slotLayout_group_pairwise ceiling t, ?_⟩
  refine (List.pairwise_lt_finRange n).imp ?_
  intro s t hst a ha b hb
  have own : ∀ (u : Fin n) (o : SlotOwner n m),
      o ∈ ((List.finRange m).filter fun x => ceiling x == u.val).map SlotOwner.mutex ++ [.task u] →
        (∃ x, o = .mutex x ∧ ceiling x = u.val) ∨ o = .task u := by
    intro u o ho
    rcases List.mem_append.mp ho with ho | ho
    · obtain ⟨x, hx, rfl⟩ := List.mem_map.mp ho
      exact .inl ⟨x, rfl, by simpa using (List.mem_filter.mp hx).2⟩
    · exact .inr (List.mem_singleton.mp ho)
  rcases own s a ha with ⟨x, rfl, hx⟩ | rfl <;> rcases own t b hb with ⟨y, rfl, hy⟩ | rfl <;>
    simp only [SlotOwner.Precedes] <;> omega

/-- In a list that is ordered by an asymmetric relation, the places of two members compare as the members do. -/
theorem idxOf_lt_idxOf_iff {α : Type} [BEq α] [LawfulBEq α] {R : α → α → Prop} {l : List α} (h : l.Pairwise R)
    (asymm : ∀ a b, R a b → ¬ R b a) {a b : α} (ha : a ∈ l) (hb : b ∈ l) : l.idxOf a < l.idxOf b ↔ R a b := by
  have place : ∀ {o}, o ∈ l → ∃ hi : l.idxOf o < l.length, l[l.idxOf o] = o := fun ho =>
    ⟨List.idxOf_lt_length_of_mem ho, List.getElem_idxOf _⟩
  have before : ∀ {a b}, a ∈ l → b ∈ l → l.idxOf a < l.idxOf b → R a b := by
    intro a b ha hb hlt
    obtain ⟨hia, hea⟩ := place ha
    obtain ⟨hib, heb⟩ := place hb
    have hr := List.pairwise_iff_getElem.mp h _ _ hia hib hlt
    rwa [hea, heb] at hr
  refine ⟨before ha hb, fun hr => Nat.lt_of_not_le fun hle => ?_⟩
  rcases Nat.lt_or_eq_of_le hle with hlt | heq
  · exact asymm a b hr (before hb ha hlt)
  · obtain ⟨hia, hea⟩ := place ha
    obtain ⟨hib, heb⟩ := place hb
    have hab : b = a := by
      rw [← hea, ← heb]
      simp only [heq]
    exact asymm a b hr (hab ▸ hr)

/-! ## The row of a configuration -/

namespace Config

variable {c : Config}

/-- Every mutex has a ceiling that is an existing task. -/
def Ceilinged (c : Config) : Prop := ∀ x, Kernel.ceilingOf c x < c.tasks.size

theorem idxOf_slots_lt_iff {a b : SlotOwner c.tasks.size c.mutexes.size} (ha : a ∈ Kernel.slots c)
    (hb : b ∈ Kernel.slots c) :
    (Kernel.slots c).idxOf a < (Kernel.slots c).idxOf b ↔ a.Precedes (Kernel.ceilingOf c) b :=
  idxOf_lt_idxOf_iff (slotLayout_pairwise _ _ _) (fun _ _ => SlotOwner.Precedes.asymm) ha hb

theorem taskSlot_row (t : c.TaskId) : c.row.taskSlot[t] = (Kernel.slots c).idxOf (.task t) := by
  simp [Config.row, SlotTable.ofLayout]

theorem mutexSlot_row (x : c.MutexId) : c.row.mutexSlot[x] = (Kernel.slots c).idxOf (.mutex x) := by
  simp [Config.row, SlotTable.ofLayout]

theorem taskSlot_lt_taskSlot (s t : c.TaskId) : c.row.taskSlot[s] < c.row.taskSlot[t] ↔ s < t := by
  rw [taskSlot_row, taskSlot_row, idxOf_slots_lt_iff (task_mem_slotLayout _ s) (task_mem_slotLayout _ t)]
  exact Iff.rfl

theorem Ceilinged.taskSlot_lt_mutexSlot (h : c.Ceilinged) (t : c.TaskId) (x : c.MutexId) :
    c.row.taskSlot[t] < c.row.mutexSlot[x] ↔ t.val < Kernel.ceilingOf c x := by
  rw [taskSlot_row, mutexSlot_row, idxOf_slots_lt_iff (task_mem_slotLayout _ t) (mutex_mem_slotLayout _ x (h x))]
  exact Iff.rfl

theorem Ceilinged.mutexSlot_lt_taskSlot (h : c.Ceilinged) (x : c.MutexId) (t : c.TaskId) :
    c.row.mutexSlot[x] < c.row.taskSlot[t] ↔ Kernel.ceilingOf c x ≤ t.val := by
  rw [taskSlot_row, mutexSlot_row, idxOf_slots_lt_iff (mutex_mem_slotLayout _ x (h x)) (task_mem_slotLayout _ t)]
  exact Iff.rfl

theorem Ceilinged.mutexSlot_lt_mutexSlot (h : c.Ceilinged) (x y : c.MutexId) :
    c.row.mutexSlot[x] < c.row.mutexSlot[y] ↔
      Kernel.ceilingOf c x < Kernel.ceilingOf c y ∨ (Kernel.ceilingOf c x = Kernel.ceilingOf c y ∧ x < y) := by
  rw [mutexSlot_row, mutexSlot_row,
    idxOf_slots_lt_iff (mutex_mem_slotLayout _ x (h x)) (mutex_mem_slotLayout _ y (h y))]
  exact Iff.rfl

end Config

end Rtos
