import Rtos.Kernel.Timer

/-!
# Starting the kernel

`Kernel.boot` checks the configuration, lays out what has to be laid out, makes the tasks that start with the kernel
runnable, and starts the timers that do. The objects are looked at kind by kind in a fixed order: events, semaphores,
queues, the slots of the ceiling policy, tasks, timers.
-/

namespace Rtos
set_option autoImplicit false

/-! ## Sizes of 64 bits -/

namespace Size

/-- The product of two sizes, if it fits. -/
def mul? (a b : UInt64) : Option UInt64 := if a.toNat * b.toNat < UInt64.size then some (a * b) else none

def add? (a b : UInt64) : Option UInt64 := if a.toNat + b.toNat < UInt64.size then some (a + b) else none

end Size

/-- The number of interrupt events a system may have at most. -/
def maxEvents : Nat := 32

namespace Kernel

variable {c : Config}

/-! ## Checks -/

/-- Refuse too many events, and an event for a task that does not exist. -/
def checkEvents : Action c Unit := do
  if c.events.size > maxEvents then fail .invalidConfig
  if c.events.any fun event => c.tasks.size ≤ event.task then fail .invalidConfig

/-- Whether the maximum of a semaphore, if it has one, is positive and not below its initial value. -/
def semaphoreFits (attr : SemaphoreAttr) : Bool :=
  match attr.max with
  | some max => max ≠ 0 && attr.initial ≤ max
  | none => true

/-- Refuse a semaphore with a bad maximum. -/
def checkSemaphores : Action c Unit := do
  if c.semaphores.any fun attr => !semaphoreFits attr then fail .invalidConfig

/-! ## Layout -/

/-- The end of the ring of a queue that starts at `offset`, if the ring fits into the pool. -/
def ringEnd? (c : Config) (attr : QueueAttr) (offset : UInt64) : Option UInt64 := do
  let length ← Size.mul? attr.elementSize attr.length
  let stop ← Size.add? offset length
  if stop ≤ c.queueBytes then some stop else none

/-- Lay out the ring of a queue from `offset` on, and give the end of the ring. -/
def layOutQueue (offset : UInt64) (queue : c.QueueId) : Action c UInt64 := do
  let attr := c.queueAttr queue
  if attr.elementSize = 0 ∨ attr.length = 0 then fail .invalidConfig
  modify fun k => { k with rings := k.rings.set queue { k.rings[queue] with offset := offset.toNat } }
  match ringEnd? c attr offset with
  | some stop => return stop
  | none => fail .invalidConfig

/-- Lay out the rings of all queues, one after the other. -/
def layOutQueues : Action c Unit := do
  let _ ← (List.finRange c.queues.size).foldlM layOutQueue 0

/-- Whether a mutex has a ceiling that is an existing task. -/
def hasCeiling (c : Config) (attr : MutexAttr) : Bool :=
  match attr.ceiling with
  | some task => task < c.tasks.size
  | none => false

/-- The ceiling of a mutex, or a number beyond all tasks if it has none. -/
def ceilingOf (c : Config) (mutex : c.MutexId) : Nat := (c.mutexAttr mutex).ceiling.getD c.tasks.size

/-- Prepare the schedule. The ceiling policy needs a slot for every task and mutex, and a ceiling for every mutex. -/
def prepareSchedule : Action c Unit := do
  match (← get).schedule with
  | .strict _ => pure ()
  | .ceiling _ =>
    if c.slotEntries ≠ c.tasks.size + c.mutexes.size then fail .invalidConfig
    if c.mutexes.any fun attr => !hasCeiling c attr then fail .invalidConfig
    modify fun k => { k with schedule := .ceiling (SlotTable.layOut (ceilingOf c)) }
  | .inheritance runnable priorities _ =>
    modify fun k => { k with schedule := .inheritance runnable priorities true }

/-! ## Tasks and timers -/

/-- Make the entry of a task known, and the task runnable if it starts with the kernel. -/
def prepareTask (task : c.TaskId) : Action c Unit := do
  let k ← get
  if k.processor.context = .outside then throw .assertionFailed
  set { k with processor := { k.processor with ready := k.processor.ready.set task true } }
  if (c.taskAttr task).autostart then modify (·.makeRunnable task)

/-- Refuse a timer that signals a task that does not exist, and start a timer that starts with the kernel. -/
def prepareTimer (timer : Nat) : Action c Unit := do
  let timer ← timerId timer
  if h : timer < c.timers.size then
    let attr := c.timers[timer]
    match attr.action with
    | .signal task _ => if c.tasks.size ≤ task then fail .invalidConfig
    | _ => pure ()
    if attr.enabled then modify (·.startTimer timer)

/-- Refuse a timer pool without room for the timeout timers, and prepare the timers of the application. -/
def prepareTimers : Action c Unit := do
  if c.timerCount < c.tasks.size then fail .invalidConfig
  (List.range c.userTimers).forM prepareTimer

/-! ## All of it -/

/-- Start the kernel, up to the point where the dispatcher chooses the first task. -/
def boot : Action c Unit := do
  checkEvents
  checkSemaphores
  layOutQueues
  prepareSchedule
  (List.finRange c.tasks.size).forM prepareTask
  prepareTimers

end Kernel

end Rtos
