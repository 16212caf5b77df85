import Rtos.Proofs.Sanity
import Rtos.Showcase

/-!
# Messages inside the buffer pool

A message buffer may lie in the buffer pool of the kernel itself, and anywhere in it: in the ring of another queue, in
another slot of the same ring, or across several slots.

* `Buffer.Covers`, `Kernel.SlotCovers`: the bytes of the pool a buffer or a slot takes.
* `Pool.move_eq_store`: between ranges that share no byte, copying byte by byte is copying all bytes at once.
* `Kernel.copyIn_eq`: storing such a buffer is storing a copy of its contents.
* `Kernel.Stored`, `Kernel.Fetched`: what a message that is copied into a slot, or out of one, leaves behind.
* `ends_tryPut`, `Ready.ends_put` and their counterparts for receiving: what there is to show of an operation that does
  not wait.
* `Machine.Copying`, `Machine.copying_play`: the main result. The operations that do not wait reject just the buffers
  that share a byte with the slot they are about to use; with all others they copy what they should, and where they
  should.
-/

namespace Rtos
set_option autoImplicit false

variable {c : Config}

/-! ## Ranges of bytes -/

/-- The buffer takes a byte of the buffer pool. -/
def Buffer.Covers (buffer : Buffer) (i : Nat) : Prop :=
  match buffer with
  | .own _ => False
  | .pooled start length => start ≤ i ∧ i < start + length

/-- Half-open ranges that are not empty overlap just if they share a byte. -/
theorem Buffer.overlaps_iff {buffer : Buffer} {start size : Nat} (positive : 0 < size) (nonempty : 0 < buffer.length) :
    buffer.overlaps start size = true ↔ ∃ i, buffer.Covers i ∧ start ≤ i ∧ i < start + size := by
  cases buffer with
  | own bytes => simp [Buffer.overlaps, Buffer.Covers]
  | pooled first length =>
    have nonempty : 0 < length := nonempty
    simp only [Buffer.overlaps, Buffer.Covers, Bool.and_eq_true, decide_eq_true_eq]
    constructor
    · intro h
      exact ⟨max start first, by omega⟩
    · rintro ⟨i, covers, slot⟩
      omega

/-- Copying byte by byte comes to the same as copying all bytes at once where no byte is written that is read later. -/
theorem Pool.move_eq_store (pool : Array UInt8) {source target n : Nat}
    (apart : source + n ≤ target ∨ target + n ≤ source) :
    Pool.move pool source target n = Pool.store pool target (Pool.load pool source n) := by
  induction n generalizing pool source target with
  | zero => rfl
  | succ n ih =>
    have later : Pool.load (pool.setIfInBounds target (pool.getD source 0)) (source + 1) n =
        Pool.load pool (source + 1) n :=
      Pool.load_store_apart pool target [pool.getD source 0] (by rw [List.length_singleton]; omega)
    rw [Pool.move, ih _ (by omega), later, Pool.load_succ, Pool.store]

theorem Pool.length_load (pool : Array UInt8) (start n : Nat) : (Pool.load pool start n).length = n := by
  rw [Pool.load, List.length_map, List.length_range]

theorem Buffer.length_contents (buffer : Buffer) (pool : Array UInt8) :
    (buffer.contents pool).length = buffer.length := by
  cases buffer with
  | own bytes => rfl
  | pooled start length => exact Pool.length_load pool start length

theorem Buffer.apart_of_not_overlaps {first length start size : Nat}
    (apart : (Buffer.pooled first length).overlaps start size = false) :
    first + length ≤ start ∨ start + size ≤ first := by
  simp only [Buffer.overlaps, Bool.and_eq_false_iff, decide_eq_false_iff_not] at apart
  omega

namespace Kernel

variable {k l : Kernel c} {q : c.QueueId} {t : c.TaskId} {buffer buffer' : Buffer}

/-- A slot of a queue takes a byte of the buffer pool. -/
def SlotCovers (k : Kernel c) (q : c.QueueId) (slot i : Nat) : Prop :=
  k.slotStart q slot ≤ i ∧ i < k.slotStart q slot + elementSize q

/-- Storing a buffer that shares no byte with the slot is storing a copy of its contents. -/
theorem copyIn_eq {start : Nat} (apart : buffer.overlaps start buffer.length = false) :
    k.copyIn buffer start = k.copyIn (.own (buffer.contents k.pool)) start := by
  cases buffer with
  | own bytes => rfl
  | pooled first length =>
    have copied : Pool.move k.pool first start length = Pool.store k.pool start (Pool.load k.pool first length) :=
      Pool.move_eq_store k.pool (Buffer.apart_of_not_overlaps apart)
    simp only [copyIn, copied, Buffer.contents]

/-! ## What is left behind -/

/-- A message was copied into the slot behind the newest one: the slot holds the bytes the buffer held before, and no
other byte of the pool has changed. -/
structure Stored (k : Kernel c) (q : c.QueueId) (buffer : Buffer) (l : Kernel c) : Prop where
  slot : l.messageAt q (k.tailSlot q) = buffer.contents k.pool
  others : ∀ i, ¬ k.SlotCovers q (k.tailSlot q) i → l.pool.getD i 0 = k.pool.getD i 0
  size : l.pool.size = k.pool.size
  rings : l.rings = (k.pushed q).rings

/-- The oldest message was copied into a buffer: the buffer, which is where it was, holds the bytes the slot held
before, and no byte of the pool outside of the buffer has changed. -/
structure Fetched (k : Kernel c) (q : c.QueueId) (buffer buffer' : Buffer) (l : Kernel c) : Prop where
  place : (∀ i, buffer'.Covers i ↔ buffer.Covers i) ∧ buffer'.length = buffer.length
  message : buffer'.contents l.pool = k.messageAt q k.rings[q].head
  others : ∀ i, ¬ buffer.Covers i → l.pool.getD i 0 = k.pool.getD i 0
  size : l.pool.size = k.pool.size
  rings : l.rings = (k.popped q).rings

theorem RingsFit.stored (fit : k.RingsFit) (size : buffer.length = elementSize q)
    (apart : buffer.overlaps (k.slotStart q (k.tailSlot q)) (elementSize q) = false)
    (rings : l.rings = (k.pushed q).rings) (pool : l.pool = (k.copyIn buffer (k.slotStart q (k.tailSlot q))).pool) :
    k.Stored q buffer l := by
  rw [← size] at apart
  have length : (buffer.contents k.pool).length = elementSize q := (buffer.length_contents k.pool).trans size
  -- From here on the message is in memory of the caller, as far as the pool can tell.
  have pool : l.pool = (k.appended q (buffer.contents k.pool)).pool := by
    rw [pool, copyIn_eq apart]
    rfl
  have rings : l.rings = (k.appended q (buffer.contents k.pool)).rings := rings
  refine ⟨?_, fun i other => ?_, ?_, rings⟩
  · rw [messageAt, slotStart, rings, pool]
    exact fit.messageAt_tail length
  · rw [pool, pool_appended]
    refine Pool.getD_store_apart _ _ _ ?_
    rw [length]
    unfold SlotCovers at other
    omega
  · rw [pool, pool_appended, Pool.size_store]

theorem fetched (some : 0 < buffer.length) (size : buffer.length = elementSize q)
    (within : ∀ i, buffer.Covers i → i < k.pool.size)
    (apart : buffer.overlaps (k.slotStart q k.rings[q].head) (elementSize q) = false)
    (rings : l.rings = (k.popped q).rings) (pool : l.pool = (k.copyOut buffer (k.slotStart q k.rings[q].head)).1.pool) :
    k.Fetched q buffer (k.copyOut buffer (k.slotStart q k.rings[q].head)).2 l := by
  cases buffer with
  | own bytes =>
    have pool : l.pool = k.pool := pool
    have size : bytes.length = elementSize q := size
    refine ⟨⟨fun i => Iff.rfl, Pool.length_load ..⟩, ?_, fun i _ => by rw [pool], by rw [pool], rings⟩
    rw [messageAt, ← size]
    rfl
  | pooled target length =>
    have size : length = elementSize q := size
    have some : 0 < length := some
    have inside : target + length ≤ k.pool.size := by
      have last := within (target + length - 1) (by simp only [Buffer.Covers]; omega)
      omega
    have copied : l.pool = Pool.store k.pool target (k.messageAt q k.rings[q].head) := by
      rw [pool, messageAt, ← size]
      refine Pool.move_eq_store k.pool ?_
      have := Buffer.apart_of_not_overlaps apart
      omega
    have filled : (k.messageAt q k.rings[q].head).length = length := by
      rw [messageAt, Pool.length_load, size]
    refine ⟨⟨fun i => Iff.rfl, rfl⟩, ?_, fun i other => ?_, ?_, rings⟩
    · show Pool.load l.pool target length = _
      rw [copied, ← filled]
      exact Pool.load_store_self _ _ _ (by rw [filled]; exact inside)
    · rw [copied]
      refine Pool.getD_store_apart _ _ _ ?_
      rw [filled]
      simp only [Buffer.Covers] at other
      omega
    · rw [copied, Pool.size_store]

/-! ## Operations that do not wait -/

theorem pool_wakeWaiters (k : Kernel c) (o : WaitObject c) :
    (k.wakeWaiters o).rings = k.rings ∧ (k.wakeWaiters o).pool = k.pool :=
  (resources_eq_iff.mp (resources_wakeWaiters k o)).2.2

/-- An attempt to put a message is refused, or the message shares a byte with the slot, or it is stored. -/
theorem ends_tryPut {ok : Bool → Kernel c → Prop} {bad : Ending → Kernel c → Prop}
    (refused : k.rings[q].count = capacity q → ok false k)
    (shared : k.rings[q].count ≠ capacity q → buffer.overlaps (k.slotStart q (k.tailSlot q)) (elementSize q) = true →
      bad (.fatal .messageBufferOverlap) k)
    (stored : k.rings[q].count ≠ capacity q → buffer.overlaps (k.slotStart q (k.tailSlot q)) (elementSize q) = false →
      ∀ l, l.rings = (k.pushed q).rings → l.pool = (k.copyIn buffer (k.slotStart q (k.tailSlot q))).pool → ok true l) :
    Ends (tryPut q buffer) k ok bad := by
  rw [tryPut, ends_bind, ends_get, ends_ite]
  refine ⟨refused, fun room => ?_⟩
  rw [ends_bind, expectDisjoint, ends_ite]
  refine ⟨shared room, fun apart => ?_⟩
  replace stored := stored room (Bool.eq_false_iff.mpr apart)
  have still : ((k.copyIn buffer (k.slotStart q (k.tailSlot q))).pushed q).rings = (k.pushed q).rings := by
    cases buffer <;> rfl
  rw [ends_pure, ends_bind, ends_modify, ends_bind, ends_modify, ends_ite]
  refine ⟨fun wakes => ?_, fun _ => stored _ still rfl⟩
  rw [ends_bind, ends_modify]
  obtain ⟨rings, pool⟩ := pool_wakeWaiters ((k.copyIn buffer (k.slotStart q (k.tailSlot q))).pushed q) (.queue q)
  exact stored _ (rings.trans still) pool

theorem ends_tryGet {ok : Bool × Buffer → Kernel c → Prop} {bad : Ending → Kernel c → Prop}
    (refused : k.rings[q].count = 0 → ok (false, buffer) k)
    (shared : k.rings[q].count ≠ 0 → buffer.overlaps (k.slotStart q k.rings[q].head) (elementSize q) = true →
      bad (.fatal .messageBufferOverlap) k)
    (fetched : k.rings[q].count ≠ 0 → buffer.overlaps (k.slotStart q k.rings[q].head) (elementSize q) = false →
      ∀ l, l.rings = (k.popped q).rings → l.pool = (k.copyOut buffer (k.slotStart q k.rings[q].head)).1.pool →
        ok (true, (k.copyOut buffer (k.slotStart q k.rings[q].head)).2) l) :
    Ends (tryGet q buffer) k ok bad := by
  rw [tryGet, ends_bind, ends_get, ends_ite]
  refine ⟨refused, fun some => ?_⟩
  rw [ends_bind, expectDisjoint, ends_ite]
  refine ⟨shared some, fun apart => ?_⟩
  replace fetched := fetched some (Bool.eq_false_iff.mpr apart)
  have still : ((k.copyOut buffer (k.slotStart q k.rings[q].head)).1.popped q).rings = (k.popped q).rings := by
    cases buffer <;> rfl
  rw [ends_pure, ends_bind, ends_set, ends_bind, ends_modify, ends_ite]
  refine ⟨fun wakes => ?_, fun _ => fetched _ still rfl⟩
  rw [ends_bind, ends_modify]
  obtain ⟨rings, pool⟩ := pool_wakeWaiters ((k.copyOut buffer (k.slotStart q k.rings[q].head)).1.popped q) (.queue q)
  exact fetched _ (rings.trans still) pool

theorem copyIn_entered (k : Kernel c) (buffer : Buffer) (start : Nat) :
    (k.entered.copyIn buffer start).pool = (k.copyIn buffer start).pool := by
  cases buffer <;> rfl

theorem copyOut_entered (k : Kernel c) (buffer : Buffer) (start : Nat) :
    (k.entered.copyOut buffer start).1.pool = (k.copyOut buffer start).1.pool ∧
      (k.entered.copyOut buffer start).2 = (k.copyOut buffer start).2 := by
  cases buffer <;> exact ⟨rfl, rfl⟩

/-- A call that does not wait comes down to one attempt. -/
theorem Ready.ends_put (h : k.Ready t) (size : buffer.length = elementSize q) {ok : Progress c → Kernel c → Prop}
    {bad : Ending → Kernel c → Prop} : Ends (perform (.put q buffer .never)) k ok bad ↔
      Ends (tryPut q buffer) k.entered (fun granted => ok (.done (.bool granted))) bad := by
  have known : (queueId q : Action c c.QueueId) = pure q := dif_pos q.isLt
  have fits : (expectMessageSize q buffer : Action c Unit) = pure () := if_neg (not_not_intro size)
  simp only [perform, put, known, fits, pure_bind, expectPatience, ends_bind, h.ends_enter, ask, attemptOnce, attempt,
    ends_pure, reply, if_pos]

theorem Ready.ends_receive (h : k.Ready t) (size : buffer.length = elementSize q) {ok : Progress c → Kernel c → Prop}
    {bad : Ending → Kernel c → Prop} : Ends (perform (.get q buffer .never)) k ok bad ↔
      Ends (tryGet q buffer) k.entered (fun got => ok (.done (.message got.1 got.2))) bad := by
  have known : (queueId q : Action c c.QueueId) = pure q := dif_pos q.isLt
  have fits : (expectMessageSize q buffer : Action c Unit) = pure () := if_neg (not_not_intro size)
  simp only [perform, receive, known, fits, pure_bind, expectPatience, ends_bind, h.ends_enter, ask, attemptOnce,
    attempt, ends_pure, reply]

end Kernel

/-! ## The result -/

namespace Machine
open Kernel

variable {m : Machine c} {q : c.QueueId} {buffer : Buffer}

/-- What becomes of a call that copies a message and does not wait: it is refused, or the run ends because a byte is
shared, or the message is copied. -/
structure Copies (m : Machine c) (call : Call) (refused shares : Prop) (answer : Value)
    (copied : Value → Kernel c → Prop) : Prop where
  rejects : (m.act (.move (.call call))).control = .ended (.fatal .messageBufferOverlap) ↔ ¬ refused ∧ shares
  refuses : refused → (m.act (.move (.call call))).control = .leaving (some answer)
  /-- A call that is refused or rejected leaves the queues and all of their bytes as they were. -/
  untouched : refused ∨ shares → (m.act (.move (.call call))).kernel.pool = m.kernel.pool ∧
    (m.act (.move (.call call))).kernel.rings = m.kernel.rings
  copies : ¬ refused → ¬ shares → ∃ value, (m.act (.move (.call call))).control = .leaving (some value) ∧
    copied value (m.act (.move (.call call))).kernel

theorem copies_of_ends {reply : Option Value} (hc : m.control = .application reply) {call : Call}
    {refused shares : Prop} {answer : Value} {copied : Value → Kernel c → Prop}
    (h : Ends (perform call) m.kernel (fun p l => (refused ∧ p = .done answer ∧ l = m.kernel.entered) ∨
      (¬ refused ∧ ¬ shares ∧ ∃ value, p = .done value ∧ copied value l)) fun ending l => ending =
        .fatal .messageBufferOverlap ∧ l = m.kernel.entered ∧ ¬ refused ∧ shares) :
    m.Copies call refused shares answer copied := by
  have act := act_call hc call
  revert h
  unfold Ends
  intro h
  cases result : perform call m.kernel with
  | ok p l =>
    rw [result] at h
    have moved : m.act (.move (.call call)) = proceed p { m with kernel := l } := by
      rw [act, run, result]
    rcases h with ⟨refused, rfl, rfl⟩ | ⟨granted, apart, value, rfl, copied⟩
    · refine ⟨?_, fun _ => ?_, fun _ => ?_, fun granted => absurd refused granted⟩ <;> rw [moved]
      · exact ⟨nofun, fun h => absurd refused h.1⟩
      · rfl
      · exact ⟨rfl, rfl⟩
    · refine ⟨?_, fun refused => absurd refused granted, fun h => (h.elim granted apart).elim, fun _ _ => ?_⟩ <;>
        rw [moved]
      · exact ⟨nofun, fun h => absurd h.2 apart⟩
      · exact ⟨value, rfl, copied⟩
  | error ending l =>
    rw [result] at h
    obtain ⟨rfl, rfl, granted, shares⟩ := h
    have moved : m.act (.move (.call call)) =
        { m with kernel := m.kernel.entered, control := .ended (.fatal .messageBufferOverlap) } := by
      rw [act, run, result]
    refine ⟨?_, fun refused => absurd refused granted, fun _ => ?_, fun _ apart => absurd shares apart⟩ <;> rw [moved]
    · exact ⟨fun _ => ⟨granted, shares⟩, fun _ => rfl⟩
    · exact ⟨rfl, rfl⟩

/-- What becomes of a message buffer of the right size, wherever it lies, when the running task puts it into a queue or
gets a message into it, without waiting. -/
structure Copying (m : Machine c) (q : c.QueueId) (buffer : Buffer) : Prop where
  /-- Every slot lies in the buffer pool. -/
  slots : ∀ slot i, slot < capacity q → m.kernel.SlotCovers q slot i → i < m.kernel.pool.size
  put : m.Copies (.put q buffer .never) (m.kernel.rings[q].count = capacity q)
    (∃ i, buffer.Covers i ∧ m.kernel.SlotCovers q (m.kernel.tailSlot q) i) (.bool false)
    fun value l => value = .bool true ∧ m.kernel.Stored q buffer l
  get : m.Copies (.get q buffer .never) (m.kernel.rings[q].count = 0)
    (∃ i, buffer.Covers i ∧ m.kernel.SlotCovers q m.kernel.rings[q].head i) (.message false buffer)
    fun value l => ∃ buffer', value = .message true buffer' ∧ m.kernel.Fetched q buffer buffer' l

/-- Whatever the tasks have done before, and wherever the message buffer lies: a call that does not wait rejects it
exactly if the queue has room, or a message, and the buffer shares a byte with the slot; otherwise the message is copied
faithfully. -/
theorem copying_play (c : Config) (acts : List Act) (reply : Option Value)
    (hc : (play c acts).control = .application reply) (q : c.QueueId) (buffer : Buffer)
    (size : buffer.length = elementSize q) (within : ∀ i, buffer.Covers i → i < (play c acts).kernel.pool.size) :
    (play c acts).Copying q buffer := by
  have alive : ∀ ending, (play c acts).control ≠ .ended ending := by
    intro ending ended
    cases hc.symm.trans ended
  have fit := (pooled_play acts alive).fit
  have positive : 0 < elementSize q := ((accepted_of_not_ended alive).queues q).1
  have nonempty : 0 < buffer.length := by omega
  obtain ⟨orderly, _⟩ := orderly_play (c := c) acts
  obtain ⟨t, _, ready, _⟩ : ∃ t, (play c acts).kernel.Executes (play c acts).suspensions t _ ∧
      (play c acts).kernel.Ready t ∧ _ := by
    unfold Orderly at orderly
    rw [hc] at orderly
    exact orderly
  have shares : ∀ slot, buffer.overlaps ((play c acts).kernel.slotStart q slot) (elementSize q) = true ↔
      ∃ i, buffer.Covers i ∧ (play c acts).kernel.SlotCovers q slot i :=
        fun slot => Buffer.overlaps_iff positive nonempty
  have unshared : ∀ slot, buffer.overlaps ((play c acts).kernel.slotStart q slot) (elementSize q) = false →
      ¬ ∃ i, buffer.Covers i ∧ (play c acts).kernel.SlotCovers q slot i := by
    intro slot apart
    rw [← shares, apart]
    exact Bool.false_ne_true
  refine ⟨fun slot i low covers => ?_, copies_of_ends hc ((ready.ends_put size).mpr (ends_tryPut ?_ ?_ ?_)),
    copies_of_ends hc ((ready.ends_receive size).mpr (ends_tryGet ?_ ?_ ?_))⟩
  · have stop := Nat.le_trans (slotStart_lt (play c acts).kernel q low) (fit.inside q)
    exact Nat.lt_of_lt_of_le covers.2 stop
  · exact fun full => .inl ⟨full, rfl, rfl⟩
  · exact fun room overlap => ⟨rfl, rfl, room, (shares _).mp overlap⟩
  · intro room apart l rings pool
    have stored := fit.stored size apart rings (pool.trans (copyIn_entered ..))
    exact .inr ⟨room, unshared _ apart, _, rfl, rfl, stored⟩
  · exact fun none => .inl ⟨none, rfl, rfl⟩
  · exact fun some overlap => ⟨rfl, rfl, some, (shares _).mp overlap⟩
  · intro some apart l rings pool
    obtain ⟨copied, told⟩ := copyOut_entered (play c acts).kernel buffer ((play c acts).kernel.slotStart q
      (play c acts).kernel.rings[q].head)
    have fetched := fetched nonempty size within apart rings (pool.trans copied)
    exact .inr ⟨some, unshared _ apart, _, congrArg (fun message => Progress.done (.message true message)) told, _,
      rfl, fetched⟩

/-- The most urgent task has put two messages, so that the third slot of the queue is the next one to be written and the
first one the next to be read. -/
def putTwice : List Act :=
  [.step, .step, .step, .step, .move (.call (.put 0 (.own [1, 2]) .never)), .step,
    .move (.call (.put 0 (.own [3, 4]) .never)), .step]

/-- The queue of `putTwice`. -/
def firstQueue : (Showcase.full .strict).scenario.config.QueueId := ⟨0, by decide⟩

/-- A buffer across the second and the third slot cannot be put, but the first message can be copied into it. -/
theorem copying_putTwice :
    (play (Showcase.full .strict).scenario.config putTwice).control = .application (some (.bool true)) ∧
      (Buffer.pooled 3 2).length = elementSize firstQueue ∧
      (∀ i, (Buffer.pooled 3 2).Covers i →
        i < (play (Showcase.full .strict).scenario.config putTwice).kernel.pool.size) ∧
      (play (Showcase.full .strict).scenario.config
        (putTwice ++ [.move (.call (.put 0 (.pooled 3 2) .never))])).control =
        .ended (.fatal .messageBufferOverlap) ∧
      ∃ buffer, (play (Showcase.full .strict).scenario.config
          (putTwice ++ [.move (.call (.get 0 (.pooled 3 2) .never))])).control =
            .leaving (some (.message true buffer)) ∧
        buffer.contents (play (Showcase.full .strict).scenario.config
          (putTwice ++ [.move (.call (.get 0 (.pooled 3 2) .never))])).kernel.pool = [1, 2] := by
  have here : (play (Showcase.full .strict).scenario.config putTwice).control = .application (some (.bool true)) := by
    decide +kernel
  have size : (Buffer.pooled 3 2).length = elementSize firstQueue := by decide +kernel
  have within : ∀ i, (Buffer.pooled 3 2).Covers i →
      i < (play (Showcase.full .strict).scenario.config putTwice).kernel.pool.size := by
    intro i covers
    exact Nat.lt_of_lt_of_le covers.2 (by decide +kernel)
  have copying := copying_play (Showcase.full .strict).scenario.config putTwice _ here firstQueue (.pooled 3 2)
    size within
  refine ⟨here, size, within, ?_, ?_⟩
  · rw [play_concat]
    exact copying.put.rejects.mpr ⟨by decide +kernel, 4, ⟨by decide, by decide⟩, by decide +kernel, by decide +kernel⟩
  · obtain ⟨value, control, buffer, rfl, fetched⟩ := copying.get.copies (by decide +kernel) (by
      -- The first slot ends where the buffer begins, or before.
      rintro ⟨i, covers, slot⟩
      exact absurd (Nat.lt_of_le_of_lt covers.1 slot.2) (by decide +kernel))
    rw [play_concat]
    exact ⟨buffer, control, fetched.message.trans (by decide +kernel)⟩

end Machine

end Rtos
