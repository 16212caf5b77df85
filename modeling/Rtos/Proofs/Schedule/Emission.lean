import Rtos.Proofs.Schedule.Slots

/-!
# Laying out the slots

The slots are emitted by two nested loops that share a counter.

* `emitSlots_eq`: whatever is done with the slots, this comes to one pass over `slotLayout`, where every owner stands at
  the place that is the number of its slot.
* `slotLayout_perm`: if every mutex has a ceiling, the layout holds every task and every mutex once.
* `SlotTable.Places`: the slots of a list of owners have been placed; `Places.place` and `Places.foldl` are about one
  more slot and about any number of them.
* `SlotTable.layOut_eq`: so the row is laid out as `slotLayout` says.
-/

namespace Rtos
set_option autoImplicit false

variable {n m : Nat} {σ : Type}

/-! ## Emission -/

/-- Owners that are emitted one after the other get the numbers from the counter on. -/
theorem foldl_emitNext (emit : σ → Nat → SlotOwner n m → σ) (owners : List (SlotOwner n m)) (s : Nat × σ) :
    owners.foldl (emitNext emit) s =
      (s.1 + owners.length, (owners.zipIdx s.1).foldl (fun a slot => emit a slot.2 slot.1) s.2) := by
  induction owners generalizing s with
  | nil => rfl
  | cons owner owners ih =>
    rw [List.foldl_cons, ih, List.zipIdx_cons, List.foldl_cons, List.length_cons, emitNext]
    exact Prod.ext (Nat.add_right_comm s.1 1 owners.length) rfl

theorem emitSlots_eq (ceiling : Fin m → Nat) (emit : σ → Nat → SlotOwner n m → σ) (start : σ) :
    emitSlots ceiling emit start = (slotLayout n m ceiling).zipIdx.foldl (fun a slot => emit a slot.2 slot.1)
      start := by
  have group : ∀ (s : Nat × σ) (task : Fin n), emitGroup ceiling emit s task =
      (((List.finRange m).filter fun mutex => ceiling mutex == task.val).map SlotOwner.mutex ++
        [SlotOwner.task task]).foldl
        (emitNext emit) s := by
    intro s task
    rw [List.foldl_append, List.foldl_map]
    rfl
  have loops : (List.finRange n).foldl (emitGroup ceiling emit) (0, start) =
      (slotLayout n m ceiling).foldl (emitNext emit) (0, start) := by
    rw [slotLayout, List.foldl_flatMap]
    exact congrArg (fun f => (List.finRange n).foldl f (0, start)) (funext fun s => funext fun task => group s task)
  rw [emitSlots, loops, foldl_emitNext]

/-! ## Who has a slot -/

theorem slotLayout_perm {ceiling : Fin m → Nat} (h : ∀ x, ceiling x < n) :
    (slotLayout n m ceiling).Perm ((List.finRange n).map .task ++ (List.finRange m).map .mutex) := by
  refine (List.perm_ext_iff_of_nodup (slotLayout_nodup n m ceiling) ?_).mpr fun owner => ?_
  · refine List.Nodup.append ((List.nodup_finRange n).map ?_) ((List.nodup_finRange m).map ?_) ?_
    · rintro s t ⟨⟩
      rfl
    · rintro x y ⟨⟩
      rfl
    · simp [List.disjoint_left]
  · cases owner with
    | task t => simp [task_mem_slotLayout]
    | mutex x => simp [mutex_mem_slotLayout ceiling x (h x)]

theorem length_slotLayout {ceiling : Fin m → Nat} (h : ∀ x, ceiling x < n) :
    (slotLayout n m ceiling).length = n + m := by
  rw [(slotLayout_perm h).length_eq, List.length_append, List.length_map, List.length_map, List.length_finRange,
    List.length_finRange]

/-! ## Placement -/

namespace SlotTable

/-- The row has a slot for each of some owners, in this order, none of them locked, and every owner knows its place. -/
structure Places (s : SlotTable n m) (layout : List (SlotOwner n m)) : Prop where
  owners : s.owners = layout.toArray
  lockedBy : s.lockedBy = Array.replicate layout.length none
  task : ∀ t, .task t ∈ layout → s.taskSlot[t] = layout.idxOf (.task t)
  mutex : ∀ x, .mutex x ∈ layout → s.mutexSlot[x] = layout.idxOf (.mutex x)

variable {s : SlotTable n m} {layout : List (SlotOwner n m)} {owner : SlotOwner n m}

theorem idxOf_new (new : owner ∉ layout) : (layout ++ [owner]).idxOf owner = layout.length := by
  rw [List.idxOf_append_of_notMem new, List.idxOf_cons_self]
  rfl

theorem idxOf_old {other : SlotOwner n m} (h : other ∈ layout ++ [owner]) (ne : other ≠ owner) :
    other ∈ layout ∧ (layout ++ [owner]).idxOf other = layout.idxOf other := by
  have before : other ∈ layout := (List.mem_append.mp h).resolve_right fun hm => ne (List.mem_singleton.mp hm)
  exact ⟨before, List.idxOf_append_of_mem before⟩

/-- The owners placed before stay where they are, and the new one comes right after them. -/
theorem Places.place (h : s.Places layout) (new : owner ∉ layout) :
    (s.place layout.length owner).Places (layout ++ [owner]) := by
  have owners : s.owners.push owner = (layout ++ [owner]).toArray := by rw [h.owners, List.push_toArray]
  have lockedBy : s.lockedBy.push none = Array.replicate (layout ++ [owner]).length none := by
    rw [h.lockedBy, List.length_append, List.length_singleton, Array.replicate_succ]
  cases owner with
  | task t =>
    refine ⟨owners, lockedBy, fun u hu => ?_, fun x hx => ?_⟩
    · by_cases he : u = t
      · rw [he, idxOf_new new]
        exact Table.getElem_set_self ..
      · obtain ⟨before, same⟩ := idxOf_old hu fun hn => he (SlotOwner.task.inj hn)
        rw [same]
        exact (Table.getElem_set_of_ne _ _ he).trans (h.task u before)
    · obtain ⟨before, same⟩ := idxOf_old hx nofun
      exact (h.mutex x before).trans same.symm
  | mutex x =>
    refine ⟨owners, lockedBy, fun u hu => ?_, fun y hy => ?_⟩
    · obtain ⟨before, same⟩ := idxOf_old hu nofun
      exact (h.task u before).trans same.symm
    · by_cases he : y = x
      · rw [he, idxOf_new new]
        exact Table.getElem_set_self ..
      · obtain ⟨before, same⟩ := idxOf_old hy fun hn => he (SlotOwner.mutex.inj hn)
        rw [same]
        exact (Table.getElem_set_of_ne _ _ he).trans (h.mutex y before)

/-- The induction is over the owners that are left: those placed before are the places of the row so far. -/
theorem Places.foldl (h : s.Places layout) (rest : List (SlotOwner n m)) (nodup : (layout ++ rest).Nodup) :
    ((rest.zipIdx layout.length).foldl (fun s slot => s.place slot.2 slot.1) s).Places (layout ++ rest) := by
  induction rest generalizing s layout with
  | nil =>
    rw [List.append_nil]
    exact h
  | cons owner rest ih =>
    have new : owner ∉ layout := fun hm => (List.nodup_append.mp nodup).2.2 owner hm owner List.mem_cons_self rfl
    have placed := ih (h.place new) (by rwa [List.append_assoc])
    rwa [List.append_assoc, List.length_append] at placed

theorem places_ofLayout (layout : List (SlotOwner n m)) : (ofLayout layout).Places layout where
  owners := rfl
  lockedBy := rfl
  task t _ := Table.getElem_ofFn _ t
  mutex x _ := Table.getElem_ofFn _ x

/-- When every owner has been placed, the order of the owners tells all about the row. -/
theorem Places.eq {s' : SlotTable n m} (h : s.Places layout) (h' : s'.Places layout) (tasks : ∀ t, .task t ∈ layout)
    (mutexes : ∀ x, .mutex x ∈ layout) : s = s' := by
  have taskSlot : s.taskSlot = s'.taskSlot := Table.ext fun t => (h.task t (tasks t)).trans (h'.task t (tasks t)).symm
  have mutexSlot : s.mutexSlot = s'.mutexSlot :=
    Table.ext fun x => (h.mutex x (mutexes x)).trans (h'.mutex x (mutexes x)).symm
  cases s
  cases s'
  cases h.owners.trans h'.owners.symm
  cases h.lockedBy.trans h'.lockedBy.symm
  cases taskSlot
  cases mutexSlot
  rfl

/-- If every mutex has a ceiling, the row is that of the layout. -/
theorem layOut_eq {ceiling : Fin m → Nat} (h : ∀ x, ceiling x < n) :
    layOut ceiling = ofLayout (slotLayout n m ceiling) := by
  have places : (layOut ceiling).Places (slotLayout n m ceiling) := by
    rw [layOut, emitSlots_eq]
    exact (places_ofLayout []).foldl _ (slotLayout_nodup n m ceiling)
  exact places.eq (places_ofLayout _) (task_mem_slotLayout ceiling) fun x => mutex_mem_slotLayout ceiling x (h x)

end SlotTable

end Rtos
