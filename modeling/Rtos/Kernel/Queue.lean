import Rtos.Buffer
import Rtos.Kernel.State

/-!
# Message queues

The rings of all message queues lie back to back in one buffer pool. A message is copied between a slot of the ring and
a buffer, which may itself lie in the pool as long as it shares no byte with the slot. This module holds the steps that
do not wait, `Kernel.tryPut` and `Kernel.tryGet`.
-/

namespace Rtos.Kernel
set_option autoImplicit false

variable {c : Config}

/-! ## Rings -/

def capacity (queue : c.QueueId) : Nat := (c.queueAttr queue).length.toNat

def elementSize (queue : c.QueueId) : Nat := (c.queueAttr queue).elementSize.toNat

/-- Where a slot of a queue begins in the buffer pool. -/
def slotStart (k : Kernel c) (queue : c.QueueId) (slot : Nat) : Nat :=
  k.rings[queue].offset + slot * elementSize queue

/-- The slot after the newest message. -/
def tailSlot (k : Kernel c) (queue : c.QueueId) : Nat :=
  (k.rings[queue].head + k.rings[queue].count) % capacity queue

/-- Count one more message. -/
def pushed (k : Kernel c) (queue : c.QueueId) : Kernel c :=
  let ring := k.rings[queue]
  { k with rings := k.rings.set queue { ring with count := ring.count + 1 } }

/-- Drop the oldest message. -/
def popped (k : Kernel c) (queue : c.QueueId) : Kernel c :=
  let ring := k.rings[queue]
  { k with rings := k.rings.set queue { ring with head := (ring.head + 1) % capacity queue, count := ring.count - 1 } }

/-! ## Operations that do not wait -/

/-- Refuse a buffer that is not as long as the messages of the queue. -/
def expectMessageSize (queue : c.QueueId) (buffer : Buffer) : Action c Unit := do
  if buffer.length ≠ elementSize queue then fail .messageSizeMismatch

/-- Refuse a buffer that shares a byte with the slot it is to be copied from or to. -/
def expectDisjoint (buffer : Buffer) (start size : Nat) : Action c Unit := do
  if buffer.overlaps start size then fail .messageBufferOverlap

/-- Copy a message into the slot that begins at `start`. -/
def copyIn (k : Kernel c) (buffer : Buffer) (start : Nat) : Kernel c :=
  match buffer with
  | .own bytes => { k with pool := Pool.store k.pool start bytes }
  | .pooled source length => { k with pool := Pool.move k.pool source start length }

/-- Copy a message out of the slot that begins at `start`, and give the buffer as it is then. -/
def copyOut (k : Kernel c) (buffer : Buffer) (start : Nat) : Kernel c × Buffer :=
  match buffer with
  | .own bytes => (k, .own (Pool.load k.pool start bytes.length))
  | .pooled target length => ({ k with pool := Pool.move k.pool start target length }, buffer)

/-- Append a message unless the queue is full. Only an empty queue can have tasks that wait for a message. -/
def tryPut (queue : c.QueueId) (buffer : Buffer) : Action c Bool := do
  let k ← get
  if k.rings[queue].count = capacity queue then return false
  let start := k.slotStart queue (k.tailSlot queue)
  expectDisjoint buffer start (elementSize queue)
  modify (·.copyIn buffer start)
  modify (·.pushed queue)
  if k.rings[queue].count = 0 then modify (·.wakeWaiters (.queue queue))
  return true

/-- Remove the oldest message into a buffer unless the queue is empty, and give the buffer as it is then. Only a full
queue can have tasks that wait for room. -/
def tryGet (queue : c.QueueId) (buffer : Buffer) : Action c (Bool × Buffer) := do
  let k ← get
  if k.rings[queue].count = 0 then return (false, buffer)
  let start := k.slotStart queue k.rings[queue].head
  expectDisjoint buffer start (elementSize queue)
  let (k, buffer) := k.copyOut buffer start
  set k
  modify (·.popped queue)
  if k.rings[queue].count = capacity queue then modify (·.wakeWaiters (.queue queue))
  return (true, buffer)

end Rtos.Kernel
