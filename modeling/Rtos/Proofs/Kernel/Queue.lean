import Rtos.Kernel.Queue

/-!
# The rings of the message queues

* `Pool.load_store_self`, `Pool.load_store_apart`: what is read from the buffer pool after something was written.
* `RingsFit`: the rings of the queues lie side by side in the buffer pool, and none has more messages than slots.
* `Kernel.contents`: the stored messages of a queue, oldest first.
* `RingsFit.contents_appended`, `RingsFit.contents_popped`: a message is appended at the end, or removed at the front,
  of the contents of one queue. Those of the others stay as they are.
-/

namespace Rtos
set_option autoImplicit false

variable {c : Config}

/-! ## The buffer pool -/

namespace Pool

theorem size_store (pool : Array UInt8) (start : Nat) (bytes : List UInt8) :
    (store pool start bytes).size = pool.size := by
  induction bytes generalizing pool start with
  | nil => rfl
  | cons b bs ih => rw [store, ih, Array.size_setIfInBounds]

theorem getD_store_apart (pool : Array UInt8) (start : Nat) (bytes : List UInt8) {i : Nat}
    (h : i < start ∨ start + bytes.length ≤ i) : (store pool start bytes).getD i 0 = pool.getD i 0 := by
  induction bytes generalizing pool start with
  | nil => rfl
  | cons b bs ih =>
    rw [List.length_cons] at h
    have hne : start ≠ i := by omega
    rw [store, ih _ _ (by omega)]
    simp only [Array.getD_eq_getD_getElem?, Array.getElem?_setIfInBounds_ne hne]

theorem load_succ (pool : Array UInt8) (start n : Nat) :
    load pool start (n + 1) = pool.getD start 0 :: load pool (start + 1) n := by
  rw [load, load, List.range_succ_eq_map, List.map_cons, List.map_map]
  congr 1
  refine List.map_congr_left fun i _ => ?_
  exact congrArg (pool.getD · 0) (by omega)

theorem load_store_self (pool : Array UInt8) (start : Nat) (bytes : List UInt8) (h : start + bytes.length ≤ pool.size) :
    load (store pool start bytes) start bytes.length = bytes := by
  induction bytes generalizing pool start with
  | nil => rfl
  | cons b bs ih =>
    rw [List.length_cons] at h ⊢
    rw [load_succ, store, ih _ _ (by rw [Array.size_setIfInBounds]; omega), getD_store_apart _ _ _ (.inl (by omega)),
      Array.getD_eq_getD_getElem?, Array.getElem?_setIfInBounds_self_of_lt (by omega)]
    rfl

theorem load_store_apart (pool : Array UInt8) (start : Nat) (bytes : List UInt8) {first n : Nat}
    (h : first + n ≤ start ∨ start + bytes.length ≤ first) :
    load (store pool start bytes) first n = load pool first n := by
  refine List.map_congr_left fun i hi => getD_store_apart _ _ _ ?_
  have hi := List.mem_range.mp hi
  omega

end Pool

/-! ## Rings -/

theorem slot_ne {capacity i j : Nat} (head : Nat) (hij : i < j) (hj : j < i + capacity) :
    (head + i) % capacity ≠ (head + j) % capacity := by
  intro he
  have hz : (head + j - (head + i)) % capacity = 0 := Nat.sub_mod_eq_zero_of_mod_eq he.symm
  rw [Nat.add_sub_add_left, Nat.mod_eq_of_lt (by omega)] at hz
  omega

namespace Kernel

variable {k l : Kernel c} {q q' : c.QueueId}

/-- Where the ring of a queue ends in the buffer pool. -/
def ringStop (k : Kernel c) (q : c.QueueId) : Nat := k.slotStart q (capacity q)

/-- The message in a slot of a queue. -/
def messageAt (k : Kernel c) (q : c.QueueId) (slot : Nat) : List UInt8 :=
  Pool.load k.pool (k.slotStart q slot) (elementSize q)

/-- The stored messages of a queue, oldest first. -/
def contents (k : Kernel c) (q : c.QueueId) : List (List UInt8) :=
  (List.range k.rings[q].count).map fun i => k.messageAt q ((k.rings[q].head + i) % capacity q)

theorem length_contents (k : Kernel c) (q : c.QueueId) : (k.contents q).length = k.rings[q].count := by
  rw [contents, List.length_map, List.length_range]

/-- The rings of the queues lie side by side in the buffer pool, and none has more messages than slots. -/
structure RingsFit (k : Kernel c) : Prop where
  inside : ∀ q, k.ringStop q ≤ k.pool.size
  apart : ∀ q q' : c.QueueId, q ≠ q' → k.ringStop q ≤ k.rings[q'].offset ∨ k.ringStop q' ≤ k.rings[q].offset
  head : ∀ q : c.QueueId, k.rings[q].head < capacity q
  count : ∀ q : c.QueueId, k.rings[q].count ≤ capacity q

theorem contents_congr (hq : l.rings = k.rings) (hp : l.pool = k.pool) (q : c.QueueId) :
    l.contents q = k.contents q := by
  simp only [contents, messageAt, slotStart, hq, hp]

theorem RingsFit.congr (h : k.RingsFit) (hq : l.rings = k.rings) (hp : l.pool = k.pool) : l.RingsFit := by
  constructor <;> simp only [ringStop, slotStart, hq, hp]
  · exact h.inside
  · exact h.apart
  · exact h.head
  · exact h.count

/-! ### Where the slots lie -/

theorem slotStart_lt {i j : Nat} (k : Kernel c) (q : c.QueueId) (h : i < j) :
    k.slotStart q i + elementSize q ≤ k.slotStart q j := by
  have hm : (i + 1) * elementSize q ≤ j * elementSize q := Nat.mul_le_mul_right _ h
  rw [Nat.add_mul, Nat.one_mul] at hm
  unfold slotStart
  omega

theorem slotStart_apart {i j : Nat} (k : Kernel c) (q : c.QueueId) (h : i ≠ j) :
    k.slotStart q i + elementSize q ≤ k.slotStart q j ∨ k.slotStart q j + elementSize q ≤ k.slotStart q i :=
  (Nat.lt_or_gt_of_ne h).imp (k.slotStart_lt q) (k.slotStart_lt q)

/-- Slots of different queues share no byte. -/
theorem RingsFit.slotStart_apart (h : k.RingsFit) (hne : q ≠ q') {i j : Nat} (hi : i < capacity q)
    (hj : j < capacity q') :
    k.slotStart q i + elementSize q ≤ k.slotStart q' j ∨ k.slotStart q' j + elementSize q' ≤ k.slotStart q i := by
  have stop : k.slotStart q i + elementSize q ≤ k.ringStop q := k.slotStart_lt q hi
  have stop' : k.slotStart q' j + elementSize q' ≤ k.ringStop q' := k.slotStart_lt q' hj
  have first : k.rings[q].offset ≤ k.slotStart q i := Nat.le_add_right _ _
  have first' : k.rings[q'].offset ≤ k.slotStart q' j := Nat.le_add_right _ _
  rcases h.apart q q' hne with hle | hle <;> omega

theorem RingsFit.capacity_pos (h : k.RingsFit) (q : c.QueueId) :
    0 < capacity q := Nat.lt_of_le_of_lt (Nat.zero_le _) (h.head q)

/-! ### Storing a message -/

/-- The state after a message was stored in the slot behind the newest one. -/
def appended (k : Kernel c) (q : c.QueueId) (bytes : List UInt8) : Kernel c :=
  (k.copyIn (.own bytes) (k.slotStart q (k.tailSlot q))).pushed q

theorem ring_appended_self (k : Kernel c) (q : c.QueueId) (bytes : List UInt8) :
    (k.appended q bytes).rings[q] = { k.rings[q] with count := k.rings[q].count + 1 } := Table.getElem_set_self ..

theorem ring_appended_ne (k : Kernel c) (bytes : List UInt8) (h : q' ≠ q) :
    (k.appended q bytes).rings[q'] = k.rings[q'] := Table.getElem_set_of_ne k.rings _ h

theorem offset_appended (k : Kernel c) (q : c.QueueId) (bytes : List UInt8) (q' : c.QueueId) :
    (k.appended q bytes).rings[q'].offset = k.rings[q'].offset := by
  by_cases h : q' = q
  · subst h
    rw [ring_appended_self]
  · rw [ring_appended_ne k bytes h]

theorem slotStart_appended (k : Kernel c) (q : c.QueueId) (bytes : List UInt8) (q' : c.QueueId) (slot : Nat) :
    (k.appended q bytes).slotStart q' slot = k.slotStart q' slot := by
  rw [slotStart, offset_appended, ← slotStart]

theorem pool_appended (k : Kernel c) (q : c.QueueId) (bytes : List UInt8) :
    (k.appended q bytes).pool = Pool.store k.pool (k.slotStart q (k.tailSlot q)) bytes := rfl

section Append
variable {bytes : List UInt8} (h : k.RingsFit) (room : k.rings[q].count ≠ capacity q)
    (size : bytes.length = elementSize q)

include h room in
theorem RingsFit.appended : (k.appended q bytes).RingsFit where
  inside q' := by
    rw [ringStop, slotStart_appended, pool_appended, Pool.size_store]
    exact h.inside q'
  apart q₁ q₂ hne := by
    simp only [ringStop, slotStart_appended, offset_appended]
    exact h.apart q₁ q₂ hne
  head q' := by
    by_cases hq : q' = q
    · subst hq
      rw [ring_appended_self]
      exact h.head q'
    · rw [ring_appended_ne k bytes hq]
      exact h.head q'
  count q' := by
    by_cases hq : q' = q
    · subst hq
      rw [ring_appended_self]
      exact Nat.lt_of_le_of_ne (h.count q') room
    · rw [ring_appended_ne k bytes hq]
      exact h.count q'

include size in
/-- A message in a slot that shares no byte with the one that is written stays as it is. -/
theorem messageAt_appended {slot : Nat} (apart : k.slotStart q' slot + elementSize q' ≤ k.slotStart q (k.tailSlot q) ∨
    k.slotStart q (k.tailSlot q) + elementSize q ≤ k.slotStart q' slot) :
    (k.appended q bytes).messageAt q' slot = k.messageAt q' slot := by
  rw [messageAt, slotStart_appended, pool_appended]
  exact Pool.load_store_apart _ _ _ (by rwa [size])

include h size in
theorem RingsFit.messageAt_tail : (k.appended q bytes).messageAt q (k.tailSlot q) = bytes := by
  have inside : k.slotStart q (k.tailSlot q) + elementSize q ≤ k.ringStop q :=
    k.slotStart_lt q (Nat.mod_lt _ (h.capacity_pos q))
  rw [messageAt, slotStart_appended, pool_appended, ← size]
  exact Pool.load_store_self _ _ _ (by rw [size]; exact Nat.le_trans inside (h.inside q))

include h room size in
/-- A message that is stored becomes the newest one. -/
theorem RingsFit.contents_appended : (k.appended q bytes).contents q = k.contents q ++ [bytes] := by
  have older : ∀ i ∈ List.range k.rings[q].count,
      (k.appended q bytes).messageAt q ((k.rings[q].head + i) % capacity q) =
      k.messageAt q ((k.rings[q].head + i) % capacity q) := by
    intro i hi
    have hi := List.mem_range.mp hi
    refine messageAt_appended size (k.slotStart_apart q (slot_ne _ hi ?_))
    have := h.count q
    omega
  rw [contents, ring_appended_self, List.range_succ, List.map_append, List.map_congr_left older, List.map_singleton]
  exact congrArg (k.contents q ++ [·]) (h.messageAt_tail size)

include h size in
theorem RingsFit.contents_appended_ne (hne : q' ≠ q) : (k.appended q bytes).contents q' = k.contents q' := by
  rw [contents, ring_appended_ne k bytes hne]
  refine List.map_congr_left fun i _ => messageAt_appended size ?_
  exact h.slotStart_apart hne (Nat.mod_lt _ (h.capacity_pos q')) (Nat.mod_lt _ (h.capacity_pos q))

end Append

/-! ### Removing a message -/

theorem ring_popped_self (k : Kernel c) (q : c.QueueId) : (k.popped q).rings[q] =
    { k.rings[q] with head := (k.rings[q].head + 1) % capacity q, count := k.rings[q].count - 1 } :=
  Table.getElem_set_self ..

theorem ring_popped_ne (k : Kernel c) (h : q' ≠ q) : (k.popped q).rings[q'] = k.rings[q'] :=
  Table.getElem_set_of_ne k.rings _ h

theorem offset_popped (k : Kernel c) (q q' : c.QueueId) : (k.popped q).rings[q'].offset = k.rings[q'].offset := by
  by_cases h : q' = q
  · subst h
    rw [ring_popped_self]
  · rw [ring_popped_ne k h]

theorem slotStart_popped (k : Kernel c) (q q' : c.QueueId) (slot : Nat) :
    (k.popped q).slotStart q' slot = k.slotStart q' slot := by
  rw [slotStart, offset_popped, ← slotStart]

theorem messageAt_popped (k : Kernel c) (q q' : c.QueueId) (slot : Nat) :
    (k.popped q).messageAt q' slot = k.messageAt q' slot := by
  rw [messageAt, slotStart_popped]
  rfl

theorem RingsFit.popped (h : k.RingsFit) (q : c.QueueId) : (k.popped q).RingsFit where
  inside q' := by
    rw [ringStop, slotStart_popped]
    exact h.inside q'
  apart q₁ q₂ hne := by
    simp only [ringStop, slotStart_popped, offset_popped]
    exact h.apart q₁ q₂ hne
  head q' := by
    by_cases hq : q' = q
    · subst hq
      rw [ring_popped_self]
      exact Nat.mod_lt _ (h.capacity_pos q')
    · rw [ring_popped_ne k hq]
      exact h.head q'
  count q' := by
    by_cases hq : q' = q
    · subst hq
      rw [ring_popped_self]
      exact Nat.le_trans (Nat.sub_le _ _) (h.count q')
    · rw [ring_popped_ne k hq]
      exact h.count q'

/-- The message that is removed was the oldest one. -/
theorem RingsFit.contents_popped (h : k.RingsFit) (some : k.rings[q].count ≠ 0) :
    k.contents q = k.messageAt q k.rings[q].head :: (k.popped q).contents q := by
  obtain ⟨n, hn⟩ := Nat.exists_eq_succ_of_ne_zero some
  have first : (k.rings[q].head + 0) % capacity q = k.rings[q].head := Nat.mod_eq_of_lt (h.head q)
  rw [contents, contents, ring_popped_self, hn, List.range_succ_eq_map, List.map_cons, List.map_map, first]
  congr 1
  refine List.map_congr_left fun i _ => ?_
  rw [Function.comp, messageAt_popped, Nat.mod_add_mod]
  exact congrArg (k.messageAt q) (congrArg (· % capacity q) (by omega))

theorem contents_popped_ne (k : Kernel c) (hne : q' ≠ q) : (k.popped q).contents q' = k.contents q' := by
  rw [contents, ring_popped_ne k hne]
  exact List.map_congr_left fun i _ => messageAt_popped k q q' _

end Kernel

end Rtos
