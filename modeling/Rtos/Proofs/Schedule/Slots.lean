import Mathlib.Data.List.Nodup
import Rtos.Schedule.Slots

/-!
# The row of slots

* `slotLayout`: the owners of the slots, in order.
* `SlotTable.Laid`: every task and every mutex has a slot of its own, and every slot is that of its owner. Nothing the
  kernel does to the row changes this.
* `SlotTable.Tracks`: the row says who holds which mutex, and a task locks at most its own slot.
* `SlotTable.spokesman?_task`, `SlotTable.spokesman?_mutex`: for whom a slot speaks.
* `SlotTable.next_eq_ok_iff`: the scan finds the task the first speaking slot speaks for, and it never fails.
-/

namespace Rtos
set_option autoImplicit false

variable {n m : Nat}

/-! ## Layouts -/

/-- The owners of the slots: for each task, most urgent first, the mutexes whose ceiling is that task, and then the task
itself. -/
def slotLayout (n m : Nat) (ceiling : Fin m → Nat) : List (SlotOwner n m) :=
  (List.finRange n).flatMap fun task =>
    ((List.finRange m).filter fun mutex => ceiling mutex == task.val).map .mutex ++ [.task task]

theorem task_mem_slotLayout (ceiling : Fin m → Nat) (t : Fin n) : SlotOwner.task t ∈ slotLayout n m ceiling := by
  refine List.mem_flatMap.mpr ⟨t, List.mem_finRange t, ?_⟩
  simp

theorem mutex_mem_slotLayout (ceiling : Fin m → Nat) (x : Fin m) (h : ceiling x < n) :
    SlotOwner.mutex x ∈ slotLayout n m ceiling := by
  refine List.mem_flatMap.mpr ⟨⟨ceiling x, h⟩, List.mem_finRange _, ?_⟩
  simp

theorem slotLayout_nodup (n m : Nat) (ceiling : Fin m → Nat) : (slotLayout n m ceiling).Nodup := by
  refine List.nodup_flatMap.mpr ⟨?_, ?_⟩
  · intro t _
    refine List.Nodup.append ?_ (List.nodup_singleton _) ?_
    · refine List.Nodup.map ?_ ((List.nodup_finRange m).filter _)
      intro a b hab
      cases hab
      rfl
    · simp [List.disjoint_singleton]
  · refine (List.nodup_finRange n).imp_of_mem ?_
    intro s t _ _ hst o hs ht
    rcases List.mem_append.mp hs with hs | hs <;> rcases List.mem_append.mp ht with ht | ht
    · obtain ⟨x, hx, rfl⟩ := List.mem_map.mp hs
      obtain ⟨y, hy, hyx⟩ := List.mem_map.mp ht
      cases hyx
      have h1 : ceiling x = s.val := by simpa using (List.mem_filter.mp hx).2
      have h2 : ceiling x = t.val := by simpa using (List.mem_filter.mp hy).2
      exact hst (Fin.ext (h1.symm.trans h2))
    · obtain ⟨x, _, rfl⟩ := List.mem_map.mp hs
      simp at ht
    · obtain ⟨y, _, rfl⟩ := List.mem_map.mp ht
      simp at hs
    · simp only [List.mem_singleton] at hs ht
      rw [hs] at ht
      cases ht
      exact hst rfl

namespace SlotTable

/-! ## The places of tasks and mutexes -/

/-- Every task and every mutex has a slot of its own, and every slot is that of its owner. -/
structure Laid (s : SlotTable n m) : Prop where
  size : s.lockedBy.size = s.owners.size
  owner_task : ∀ t : Fin n, s.owners[s.taskSlot[t]]? = some (.task t)
  owner_mutex : ∀ x : Fin m, s.owners[s.mutexSlot[x]]? = some (.mutex x)
  slot_task : ∀ slot (t : Fin n), s.owners[slot]? = some (.task t) → slot = s.taskSlot[t]
  slot_mutex : ∀ slot (x : Fin m), s.owners[slot]? = some (.mutex x) → slot = s.mutexSlot[x]

theorem ofLayout_laid (layout : List (SlotOwner n m)) (hn : layout.Nodup) (ht : ∀ t, SlotOwner.task t ∈ layout)
    (hx : ∀ x, SlotOwner.mutex x ∈ layout) : (ofLayout layout).Laid := by
  have place : ∀ o ∈ layout, layout[layout.idxOf o]? = some o := by
    intro o ho
    rw [List.getElem?_eq_getElem (List.idxOf_lt_length_of_mem ho), List.getElem_idxOf]
  have only : ∀ slot o, layout[slot]? = some o → slot = layout.idxOf o := by
    intro slot o ho
    obtain ⟨hl, rfl⟩ := List.getElem?_eq_some_iff.mp ho
    exact (hn.idxOf_getElem slot hl).symm
  constructor
  · simp [ofLayout]
  · intro t
    simpa [ofLayout] using place _ (ht t)
  · intro x
    simpa [ofLayout] using place _ (hx x)
  · intro slot t h
    simpa [ofLayout] using only slot _ (by simpa [ofLayout] using h)
  · intro slot x h
    simpa [ofLayout] using only slot _ (by simpa [ofLayout] using h)

/-- When the row is laid out, no task is runnable yet. -/
theorem isRunnable_ofLayout (layout : List (SlotOwner n m)) (t : Fin n) : (ofLayout layout).isRunnable t = false := by
  have unlocked : (Array.replicate layout.length (none : Option Nat)).getD ((ofLayout layout).taskSlot[t]) none =
      none := by
    rw [Array.getD_eq_getD_getElem?, Array.getElem?_replicate]
    split <;> rfl
  rw [isRunnable, ofLayout]
  simp only [ofLayout] at unlocked
  simp only [unlocked]
  rfl

section Places
variable {s : SlotTable n m}

theorem Laid.taskSlot_lt (h : s.Laid) (t : Fin n) : s.taskSlot[t] < s.lockedBy.size := by
  obtain ⟨hl, _⟩ := Array.getElem?_eq_some_iff.mp (h.owner_task t)
  rw [h.size]
  exact hl

theorem Laid.mutexSlot_lt (h : s.Laid) (x : Fin m) : s.mutexSlot[x] < s.lockedBy.size := by
  obtain ⟨hl, _⟩ := Array.getElem?_eq_some_iff.mp (h.owner_mutex x)
  rw [h.size]
  exact hl

theorem Laid.taskSlot_inj (h : s.Laid) {t u : Fin n} (he : s.taskSlot[t] = s.taskSlot[u]) : t = u := by
  have ht := h.owner_task t
  rw [he, h.owner_task u] at ht
  cases ht
  rfl

theorem Laid.mutexSlot_inj (h : s.Laid) {x y : Fin m} (he : s.mutexSlot[x] = s.mutexSlot[y]) : x = y := by
  have hx := h.owner_mutex x
  rw [he, h.owner_mutex y] at hx
  cases hx
  rfl

theorem Laid.taskSlot_ne_mutexSlot (h : s.Laid) (t : Fin n) (x : Fin m) : s.taskSlot[t] ≠ s.mutexSlot[x] := by
  intro he
  have ht := h.owner_task t
  rw [he, h.owner_mutex x] at ht
  cases ht

theorem Laid.slot_cases (h : s.Laid) {slot : Nat} :
    slot < s.lockedBy.size → (∃ t : Fin n, slot = s.taskSlot[t]) ∨ ∃ x : Fin m, slot = s.mutexSlot[x] := by
  intro hs
  rw [h.size] at hs
  have ho := Array.getElem?_eq_getElem hs
  cases hc : s.owners[slot] with
  | task t =>
    rw [hc] at ho
    exact .inl ⟨t, h.slot_task slot t ho⟩
  | mutex x =>
    rw [hc] at ho
    exact .inr ⟨x, h.slot_mutex slot x ho⟩

end Places

/-! ## Writing to the row -/

/-- The row with one slot written to. -/
def write (s : SlotTable n m) (slot : Nat) (value : Option Nat) : SlotTable n m :=
  { s with lockedBy := s.lockedBy.setIfInBounds slot value }

section Write
variable {s : SlotTable n m}

theorem setRunnable_eq (s : SlotTable n m) (t : Fin n) :
    s.setRunnable t = s.write s.taskSlot[t] (some s.taskSlot[t]) := rfl

theorem setBlocked_eq (s : SlotTable n m) (t : Fin n) : s.setBlocked t = s.write s.taskSlot[t] none := rfl

theorem lock_eq (s : SlotTable n m) (x : Fin m) (t : Fin n) :
    s.lock x t = s.write s.mutexSlot[x] (some s.taskSlot[t]) := rfl

theorem Laid.write (h : s.Laid) (slot : Nat) (value : Option Nat) : (s.write slot value).Laid where
  size := by simpa [SlotTable.write] using h.size
  owner_task := h.owner_task
  owner_mutex := h.owner_mutex
  slot_task := h.slot_task
  slot_mutex := h.slot_mutex

theorem getD_write_self {slot : Nat} (h : slot < s.lockedBy.size) (value : Option Nat) :
    (s.write slot value).lockedBy.getD slot none = value := by
  simp [SlotTable.write, Array.getElem?_setIfInBounds_self_of_lt h]

theorem getD_write_ne {slot other : Nat} (h : slot ≠ other) (value : Option Nat) :
    (s.write slot value).lockedBy.getD other none = s.lockedBy.getD other none := by
  simp [SlotTable.write, Array.getElem?_setIfInBounds_ne h]

end Write

/-! ## Runnable tasks -/

theorem isRunnable_iff (s : SlotTable n m) (t : Fin n) :
    s.isRunnable t = true ↔ s.lockedBy.getD s.taskSlot[t] none = some s.taskSlot[t] := by
  unfold isRunnable
  exact beq_iff_eq

section Runnable
variable {s : SlotTable n m}

theorem Laid.isRunnable_setRunnable (h : s.Laid) (t u : Fin n) :
    (s.setRunnable t).isRunnable u = (decide (u = t) || s.isRunnable u) := by
  rw [Bool.eq_iff_iff, Bool.or_eq_true, isRunnable_iff, isRunnable_iff, setRunnable_eq, decide_eq_true_eq]
  by_cases hu : u = t
  · subst hu
    simp only [true_or, iff_true]
    exact getD_write_self (h.taskSlot_lt u) _
  · have hne : s.taskSlot[t] ≠ s.taskSlot[u] := fun he => hu (h.taskSlot_inj he.symm)
    simp only [hu, false_or]
    exact Iff.of_eq (congrArg (· = some s.taskSlot[u]) (getD_write_ne hne _))

theorem Laid.isRunnable_setBlocked (h : s.Laid) (t u : Fin n) :
    (s.setBlocked t).isRunnable u = (decide (u ≠ t) && s.isRunnable u) := by
  rw [Bool.eq_iff_iff, Bool.and_eq_true, isRunnable_iff, isRunnable_iff, setBlocked_eq, decide_eq_true_eq]
  by_cases hu : u = t
  · subst hu
    simp only [ne_eq, not_true_eq_false, false_and, iff_false]
    intro he
    have hg := getD_write_self (h.taskSlot_lt u) none
    exact nomatch hg.symm.trans he
  · have hne : s.taskSlot[t] ≠ s.taskSlot[u] := fun he => hu (h.taskSlot_inj he.symm)
    simp only [ne_eq, hu, not_false_eq_true, true_and]
    exact Iff.of_eq (congrArg (· = some s.taskSlot[u]) (getD_write_ne hne _))

theorem Laid.isRunnable_write_mutex (h : s.Laid) (x : Fin m) (value : Option Nat) (u : Fin n) :
    (s.write s.mutexSlot[x] value).isRunnable u = s.isRunnable u := by
  rw [Bool.eq_iff_iff, isRunnable_iff, isRunnable_iff]
  exact Iff.of_eq (congrArg (· = some s.taskSlot[u])
    (getD_write_ne (fun he => h.taskSlot_ne_mutexSlot u x he.symm) _))

end Runnable

/-! ## The row follows the mutexes -/

/-- A task locks at most its own slot, and the slot of a mutex is locked by the slot of its holder. -/
structure Tracks (s : SlotTable n m) (holders : Table (Option (Fin n)) m) : Prop where
  task : ∀ t : Fin n, s.lockedBy.getD s.taskSlot[t] none = none ∨
    s.lockedBy.getD s.taskSlot[t] none = some s.taskSlot[t]
  mutex : ∀ x : Fin m, s.lockedBy.getD s.mutexSlot[x] none = holders[x].map fun t => s.taskSlot[t]

theorem ofLayout_tracks (layout : List (SlotOwner n m)) : (ofLayout layout).Tracks (Table.replicate m none) := by
  have free : ∀ slot, (ofLayout layout).lockedBy.getD slot none = none := by
    intro slot
    by_cases h : slot < layout.length
    · simp [ofLayout, h]
    · simp [ofLayout, h]
  constructor
  · intro t
    exact .inl (free _)
  · intro x
    rw [free]
    simp

section Tracks
variable {s : SlotTable n m} {holders : Table (Option (Fin n)) m}

theorem Tracks.write_task (h : s.Tracks holders) (hl : s.Laid) (t : Fin n) (value : Option Nat)
    (hv : value = none ∨ value = some s.taskSlot[t]) : (s.write s.taskSlot[t] value).Tracks holders := by
  constructor
  · intro u
    show (s.write s.taskSlot[t] value).lockedBy.getD s.taskSlot[u] none = none ∨
      (s.write s.taskSlot[t] value).lockedBy.getD s.taskSlot[u] none = some s.taskSlot[u]
    by_cases hu : u = t
    · subst hu
      rw [getD_write_self (hl.taskSlot_lt u)]
      exact hv
    · rw [getD_write_ne (fun he => hu (hl.taskSlot_inj he.symm))]
      exact h.task u
  · intro x
    show (s.write s.taskSlot[t] value).lockedBy.getD s.mutexSlot[x] none = holders[x].map fun t => s.taskSlot[t]
    rw [getD_write_ne (hl.taskSlot_ne_mutexSlot t x)]
    exact h.mutex x

theorem Tracks.setRunnable (h : s.Tracks holders) (hl : s.Laid) (t : Fin n) : (s.setRunnable t).Tracks holders :=
  h.write_task hl t _ (.inr rfl)

theorem Tracks.setBlocked (h : s.Tracks holders) (hl : s.Laid) (t : Fin n) : (s.setBlocked t).Tracks holders :=
  h.write_task hl t _ (.inl rfl)

theorem Tracks.write_mutex (h : s.Tracks holders) (hl : s.Laid) (x : Fin m) (holder : Option (Fin n)) :
    (s.write s.mutexSlot[x] (holder.map fun t => s.taskSlot[t])).Tracks (holders.set x holder) := by
  constructor
  · intro u
    show (s.write s.mutexSlot[x] _).lockedBy.getD s.taskSlot[u] none = none ∨
      (s.write s.mutexSlot[x] _).lockedBy.getD s.taskSlot[u] none = some s.taskSlot[u]
    rw [getD_write_ne (fun he => hl.taskSlot_ne_mutexSlot u x he.symm)]
    exact h.task u
  · intro y
    show (s.write s.mutexSlot[x] _).lockedBy.getD s.mutexSlot[y] none =
      (holders.set x holder)[y].map fun t => s.taskSlot[t]
    by_cases hy : y = x
    · subst hy
      rw [getD_write_self (hl.mutexSlot_lt y)]
      simp
    · rw [getD_write_ne (fun he => hy (hl.mutexSlot_inj he.symm)), h.mutex y, Table.getElem_set_of_ne holders _ hy]

theorem Tracks.lock (h : s.Tracks holders) (hl : s.Laid) (x : Fin m) (t : Fin n) :
    (s.lock x t).Tracks (holders.set x (some t)) := h.write_mutex hl x (some t)

theorem Tracks.unlock (h : s.Tracks holders) (hl : s.Laid) (x : Fin m) :
    (s.unlock x).Tracks (holders.set x none) := h.write_mutex hl x none

/-! ## For whom a slot speaks -/

/-- The slot of a task speaks for the task while it is runnable. -/
theorem Tracks.spokesman?_task (h : s.Tracks holders) (t : Fin n) :
    s.spokesman? s.taskSlot[t] = if s.isRunnable t then some s.taskSlot[t] else none := by
  unfold spokesman?
  rcases h.task t with ht | ht
  · have hr : s.isRunnable t = false := by
      rw [Bool.eq_false_iff, ne_eq, isRunnable_iff, ht]
      exact nofun
    simp only [ht, hr]
    rfl
  · have hr : s.isRunnable t = true := (isRunnable_iff s t).mpr ht
    simp only [ht, hr]
    rfl

/-- The slot of a mutex speaks for the holder while that is runnable. -/
theorem Tracks.spokesman?_mutex (h : s.Tracks holders) (hl : s.Laid) (x : Fin m) :
    s.spokesman? s.mutexSlot[x] =
      match holders[x] with
      | none => none
      | some t => if s.isRunnable t then some s.taskSlot[t] else none := by
  unfold spokesman?
  rw [h.mutex x]
  cases holders[x] with
  | none => rfl
  | some t =>
    have hne : s.taskSlot[t] ≠ s.mutexSlot[x] := hl.taskSlot_ne_mutexSlot t x
    simp only [Option.map_some, hne, false_or, isRunnable_iff]

theorem Tracks.spokesman?_eq_some (h : s.Tracks holders) (hl : s.Laid) {slot speaker : Nat}
    (hs : slot < s.lockedBy.size) (he : s.spokesman? slot = some speaker) :
    ∃ t : Fin n, speaker = s.taskSlot[t] ∧ s.isRunnable t = true := by
  rcases hl.slot_cases hs with ⟨t, rfl⟩ | ⟨x, rfl⟩
  · rw [h.spokesman?_task t] at he
    split at he
    · next hr =>
      cases he
      exact ⟨t, rfl, hr⟩
    · cases he
  · rw [h.spokesman?_mutex hl x] at he
    split at he
    · cases he
    · next t _ =>
      split at he
      · next hr =>
        cases he
        exact ⟨t, rfl, hr⟩
      · cases he

end Tracks

/-! ## The scan -/

/-- The first success of a search through `0, …, size - 1`. -/
theorem findSome?_range_eq_some_iff {α : Type} (f : Nat → Option α) (size : Nat) (a : α) :
    (List.range size).findSome? f = some a ↔ ∃ i < size, f i = some a ∧ ∀ j < i, f j = none := by
  induction size with
  | zero => simp
  | succ size ih =>
    rw [List.range_succ, List.findSome?_append, Option.or_eq_some_iff, ih]
    constructor
    · rintro (⟨i, hi, ha, hj⟩ | ⟨hn, ha⟩)
      · exact ⟨i, by omega, ha, hj⟩
      · refine ⟨size, by omega, by simpa using ha, ?_⟩
        intro j hj
        exact List.findSome?_eq_none_iff.mp hn j (List.mem_range.mpr hj)
    · rintro ⟨i, hi, ha, hj⟩
      by_cases hlt : i < size
      · exact .inl ⟨i, hlt, ha, hj⟩
      · have he : i = size := by omega
        subst he
        refine .inr ⟨List.findSome?_eq_none_iff.mpr ?_, by simpa using ha⟩
        intro j hj'
        exact hj j (List.mem_range.mp hj')

/-- The scan finds `t`: the first slot that speaks for anyone speaks for `t`. -/
def Finds (s : SlotTable n m) (t : Fin n) : Prop :=
  ∃ slot < s.lockedBy.size, s.spokesman? slot = some s.taskSlot[t] ∧ ∀ j < slot, s.spokesman? j = none

section Scan
variable {s : SlotTable n m} {holders : Table (Option (Fin n)) m}

theorem Tracks.next_eq_ok_iff (h : s.Tracks holders) (hl : s.Laid) (t : Fin n) :
    s.next = .ok (some t) ↔ s.Finds t := by
  unfold next Finds
  rw [← findSome?_range_eq_some_iff]
  split
  · next hn =>
    rw [hn]
    exact ⟨nofun, nofun⟩
  · next slot hs =>
    obtain ⟨i, hi, hsi, _⟩ := (findSome?_range_eq_some_iff _ _ _).mp hs
    obtain ⟨u, rfl, _⟩ := h.spokesman?_eq_some hl hi hsi
    rw [hs, hl.owner_task u]
    simp only [Except.ok.injEq, Option.some.injEq]
    exact ⟨fun hut => hut ▸ rfl, fun hut => hl.taskSlot_inj hut⟩

theorem next_eq_ok_none_iff (s : SlotTable n m) :
    s.next = .ok none ↔ ∀ slot < s.lockedBy.size, s.spokesman? slot = none := by
  have silent : (List.range s.lockedBy.size).findSome? s.spokesman? = none ↔
      ∀ slot < s.lockedBy.size, s.spokesman? slot = none := by
    simp [List.findSome?_eq_none_iff]
  rw [← silent, next]
  split
  · next hn => simp [hn]
  · next slot hs =>
    rw [hs]
    split <;> simp

theorem Tracks.next_eq_ok (h : s.Tracks holders) (hl : s.Laid) : ∃ task, s.next = .ok task := by
  unfold next
  split
  · exact ⟨none, rfl⟩
  · next slot hs =>
    obtain ⟨i, hi, hsi, _⟩ := (findSome?_range_eq_some_iff _ _ _).mp hs
    obtain ⟨u, rfl, _⟩ := h.spokesman?_eq_some hl hi hsi
    rw [hl.owner_task u]
    exact ⟨some u, rfl⟩

theorem Finds.isRunnable {t : Fin n} (hf : s.Finds t) (h : s.Tracks holders) (hl : s.Laid) :
    s.isRunnable t = true := by
  obtain ⟨slot, hs, he, _⟩ := hf
  obtain ⟨u, hu, hr⟩ := h.spokesman?_eq_some hl hs he
  have hut : t = u := hl.taskSlot_inj hu
  subst hut
  exact hr

/-- If another runnable task holds a mutex, the scan finds its task before it comes to that mutex: by the slot of the
task, or by that of a mutex it holds. -/
theorem Finds.precedes {t u : Fin n} (hf : s.Finds t) (h : s.Tracks holders) (hl : s.Laid) {x : Fin m}
    (hx : holders[x] = some u) (hr : s.isRunnable u = true) (hut : u ≠ t) :
    s.taskSlot[t] < s.mutexSlot[x] ∨ ∃ y : Fin m, holders[y] = some t ∧ s.mutexSlot[y] < s.mutexSlot[x] := by
  obtain ⟨slot, hs, he, hn⟩ := hf
  have speaks : s.spokesman? s.mutexSlot[x] = some s.taskSlot[u] := by
    rw [h.spokesman?_mutex hl x, hx]
    exact if_pos hr
  have before : slot < s.mutexSlot[x] := by
    rcases Nat.lt_trichotomy slot s.mutexSlot[x] with hlt | heq | hgt
    · exact hlt
    · rw [heq, speaks] at he
      exact absurd (hl.taskSlot_inj (Option.some.inj he)) hut
    · cases (hn _ hgt).symm.trans speaks
  rcases hl.slot_cases hs with ⟨v, rfl⟩ | ⟨y, rfl⟩
  · rw [h.spokesman?_task v] at he
    split at he
    · rw [Option.some.inj he] at before
      exact .inl before
    · cases he
  · rw [h.spokesman?_mutex hl y] at he
    split at he
    · cases he
    · next v hv =>
      split at he
      · have hvt : v = t := hl.taskSlot_inj (Option.some.inj he)
        subst hvt
        exact .inr ⟨y, hv, before⟩
      · cases he

/-- If the task the scan finds takes a free mutex, the scan still finds that task. -/
theorem Finds.lock {t : Fin n} (hf : s.Finds t) (h : s.Tracks holders) (hl : s.Laid) {x : Fin m} :
    (s.lock x t).Finds t := by
  have hr : s.isRunnable t = true := hf.isRunnable h hl
  have hl' : (s.lock x t).Laid := hl.write _ _
  have ht' : (s.lock x t).Tracks (holders.set x (some t)) := h.lock hl x t
  have hself : (s.lock x t).spokesman? s.mutexSlot[x] = some s.taskSlot[t] := by
    have hm := ht'.spokesman?_mutex hl' x
    have hr' : (s.lock x t).isRunnable t = true := by
      rw [lock_eq, hl.isRunnable_write_mutex]
      exact hr
    simp only [Table.getElem_set_self, hr', if_true] at hm
    exact hm
  have hother : ∀ slot, slot < s.lockedBy.size → slot ≠ s.mutexSlot[x] →
      (s.lock x t).spokesman? slot = s.spokesman? slot := by
    intro slot hs hne
    have runs : ∀ u, (s.lock x t).isRunnable u = s.isRunnable u := fun u =>
      hl.isRunnable_write_mutex x _ u
    rcases hl.slot_cases hs with ⟨u, rfl⟩ | ⟨y, rfl⟩
    · have h1 := ht'.spokesman?_task u
      rw [runs u] at h1
      exact h1.trans (h.spokesman?_task u).symm
    · have hxy : y ≠ x := fun he => hne (by rw [he])
      have h1 := ht'.spokesman?_mutex hl' y
      simp only [Table.getElem_set_of_ne holders _ hxy, runs] at h1
      exact h1.trans (h.spokesman?_mutex hl y).symm
  obtain ⟨slot, hs, he, hn⟩ := hf
  have size : (s.lock x t).lockedBy.size = s.lockedBy.size := by simp [SlotTable.lock]
  -- The mutex slot comes first if it lies before the slot found so far.
  by_cases hlt : s.mutexSlot[x] < slot
  · refine ⟨s.mutexSlot[x], by rw [size]; exact hl.mutexSlot_lt x, hself, ?_⟩
    intro j hj
    rw [hother j (by omega) (by omega)]
    exact hn j (by omega)
  · by_cases heq : s.mutexSlot[x] = slot
    · refine ⟨slot, by rw [size]; exact hs, heq ▸ hself, ?_⟩
      intro j hj
      rw [hother j (by omega) (by omega)]
      exact hn j hj
    · refine ⟨slot, by rw [size]; exact hs, ?_, ?_⟩
      · rw [hother slot hs (Ne.symm heq)]
        exact he
      · intro j hj
        rw [hother j (by omega) (by omega)]
        exact hn j hj

end Scan

end SlotTable

end Rtos
