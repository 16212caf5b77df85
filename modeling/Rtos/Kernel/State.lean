import Rtos.Config
import Rtos.Processor
import Rtos.Schedule.Inheritance
import Rtos.Schedule.Slots

/-!
# The state of the kernel

* `TaskState`, `SemaphoreState`, `Ring`, `TimerState`: the state of one object of each kind. Of a mutex only the holder
  is kept.
* `Schedule`: what the scheduling policy keeps.
* `Kernel`: the state of a whole system, its processor included; `Kernel.initial` is the state before the kernel starts.
* `Kernel.Action`: a critical section of the kernel, which ends with a value or ends the run. Either way the state it
  leaves behind is kept.
-/

namespace Rtos
set_option autoImplicit false

/-! ## Objects -/

/-- The object a waiting task is waiting for. -/
inductive WaitObject (c : Config)
  | mutex (mutex : c.MutexId)
  | semaphore (semaphore : c.SemaphoreId)
  | queue (queue : c.QueueId)
  deriving DecidableEq

/-- The state of a task, apart from what the scheduling policy keeps. -/
structure TaskState (c : Config) where
  signals : SignalSet := 0
  /-- The object the task is waiting for. -/
  wait : Option (WaitObject c) := none
  /-- Whether the timeout timer of the task has fired since it was last armed. -/
  timedOut : Bool := false
  deriving DecidableEq

structure SemaphoreState where
  value : UInt32
  /-- The largest value, once there is one. -/
  max : Option UInt32
  deriving DecidableEq

/-- The part of the buffer pool a message queue uses, and which part of that holds messages. -/
structure Ring where
  /-- Where the ring starts in the buffer pool. -/
  offset : Nat := 0
  /-- The slot of the oldest message. -/
  head : Nat := 0
  /-- The number of stored messages. -/
  count : Nat := 0
  deriving DecidableEq

/-- What happens when a timer fires. -/
inductive TimerEffect (c : Config)
  | user (action : TimerAction)
  /-- The timed wait of the task ends. -/
  | timeout (task : c.TaskId)
  deriving DecidableEq

structure TimerState (c : Config) where
  enabled : Bool := false
  /-- The tick at which the timer fires next. -/
  expiry : Ticks := 0
  /-- The period from the next firing on; zero disables the timer then. -/
  reload : Ticks := 0
  /-- Whether the timer fired while one of its signals was still pending. -/
  overflow : Bool := false
  effect : TimerEffect c
  deriving DecidableEq

/-! ## Schedules -/

/-- What the scheduling policy keeps: which tasks are runnable, and whatever else it needs to choose among them. -/
inductive Schedule (c : Config)
  | strict (runnable : Table Bool c.tasks.size)
  | ceiling (slots : SlotTable c.tasks.size c.mutexes.size)
  /-- The priorities are kept until something they depend on changes, which makes them stale. -/
  | inheritance (runnable : Table Bool c.tasks.size) (priorities : Table Nat c.tasks.size) (stale : Bool)
  deriving DecidableEq

namespace Schedule

variable {c : Config}

/-- The schedule in which no task is runnable, before the slots are laid out. -/
def initial (c : Config) : Schedule c :=
  match c.policy with
  | .strict => .strict (Table.replicate _ false)
  | .ceiling => .ceiling (SlotTable.ofLayout [])
  | .inheritance => .inheritance (Table.replicate _ false) (Table.replicate _ 0) true

def isRunnable (s : Schedule c) (task : c.TaskId) : Bool :=
  match s with
  | .strict runnable => runnable[task]
  | .ceiling slots => slots.isRunnable task
  | .inheritance runnable _ _ => runnable[task]

def setRunnable (s : Schedule c) (task : c.TaskId) : Schedule c :=
  match s with
  | .strict runnable => .strict (runnable.set task true)
  | .ceiling slots => .ceiling (slots.setRunnable task)
  | .inheritance runnable priorities _ => .inheritance (runnable.set task true) priorities true

def setBlocked (s : Schedule c) (task : c.TaskId) : Schedule c :=
  match s with
  | .strict runnable => .strict (runnable.set task false)
  | .ceiling slots => .ceiling (slots.setBlocked task)
  | .inheritance runnable priorities _ => .inheritance (runnable.set task false) priorities true

def mutexLocked (s : Schedule c) (mutex : c.MutexId) (task : c.TaskId) : Schedule c :=
  match s with
  | .strict runnable => .strict runnable
  | .ceiling slots => .ceiling (slots.lock mutex task)
  | .inheritance runnable priorities _ => .inheritance runnable priorities true

def mutexUnlocked (s : Schedule c) (mutex : c.MutexId) : Schedule c :=
  match s with
  | .strict runnable => .strict runnable
  | .ceiling slots => .ceiling (slots.unlock mutex)
  | .inheritance runnable priorities _ => .inheritance runnable priorities true

/-- Note that a task started or stopped waiting for a mutex. -/
def waitersChanged (s : Schedule c) : Schedule c :=
  match s with
  | .strict runnable => .strict runnable
  | .ceiling slots => .ceiling slots
  | .inheritance runnable priorities _ => .inheritance runnable priorities true

end Schedule

/-! ## The kernel -/

/-- The state of a system. -/
structure Kernel (c : Config) where
  /-- Whether a task switch has to be put off. It is put off until the first task enables preemption. -/
  preemptDisabled : Bool := true
  /-- Whether a task switch was put off or asked for. -/
  preemptPending : Bool := false
  /-- The interrupt events raised but not applied yet. -/
  raised : Table Bool c.events.size := Table.replicate _ false
  /-- The ticks delivered but not accounted for yet. -/
  pendingTicks : Nat := 0
  /-- The task that owns the processor; none until the kernel has started. -/
  running : Option c.TaskId := none
  now : Ticks := 0
  schedule : Schedule c
  tasks : Table (TaskState c) c.tasks.size
  holders : Table (Option c.TaskId) c.mutexes.size
  semaphores : Table SemaphoreState c.semaphores.size
  rings : Table Ring c.queues.size
  /-- The buffer pool of the message queues. -/
  pool : Array UInt8
  timers : Table (TimerState c) c.timerCount
  processor : Processor c.tasks.size
  deriving DecidableEq

namespace Kernel

variable {c : Config}

/-- The state of an entry of the timer pool before the kernel starts. -/
def initialTimer (c : Config) (timer : c.TimerId) : TimerState c :=
  if h : timer < c.timers.size then
    { reload := c.timers[timer].reload, effect := .user c.timers[timer].action }
  else
    have : timer - c.timers.size < c.tasks.size := by
      have := timer.isLt
      have : c.timerCount ≤ c.timers.size + c.tasks.size := Nat.min_le_right _ _
      omega
    { effect := .timeout ⟨timer - c.timers.size, this⟩ }

/-- The state of a system before the kernel starts. -/
def initial (c : Config) : Kernel c where
  schedule := Schedule.initial c
  tasks := Table.replicate _ {}
  holders := Table.replicate _ none
  semaphores := Table.ofFn fun semaphore =>
    { value := (c.semaphoreAttr semaphore).initial, max := (c.semaphoreAttr semaphore).max }
  rings := Table.replicate _ {}
  pool := Array.replicate c.queueBytes.toNat 0
  timers := Table.ofFn (initialTimer c)
  processor := {}

/-! ## Critical sections -/

/-- A step of the kernel that yields a value or ends the run. -/
abbrev Action (c : Config) := EStateM Ending (Kernel c)

def fail {α : Type} (error : FatalError) : Action c α := throw (.fatal error)

/-- Find the number of a task. -/
def taskId (task : Nat) : Action c c.TaskId :=
  if h : task < c.tasks.size then pure ⟨task, h⟩ else fail .badId

def mutexId (mutex : Nat) : Action c c.MutexId :=
  if h : mutex < c.mutexes.size then pure ⟨mutex, h⟩ else fail .badId

def semaphoreId (semaphore : Nat) : Action c c.SemaphoreId :=
  if h : semaphore < c.semaphores.size then pure ⟨semaphore, h⟩ else fail .badId

def queueId (queue : Nat) : Action c c.QueueId :=
  if h : queue < c.queues.size then pure ⟨queue, h⟩ else fail .badId

def eventId (event : Nat) : Action c c.EventId :=
  if h : event < c.events.size then pure ⟨event, h⟩ else fail .badId

/-- Find the place of a timer of the application in the timer pool. -/
def timerId (timer : Nat) : Action c c.TimerId :=
  if h : timer < c.userTimers then
    pure ⟨timer, Nat.lt_of_lt_of_le h (Nat.sub_le _ _)⟩
  else
    fail .badId

/-- Find the place of the timeout timer of a task in the timer pool. -/
def timeoutId (task : c.TaskId) : Action c c.TimerId :=
  if h : c.userTimers + task < c.timerCount then pure ⟨c.userTimers + task, h⟩ else fail .badId

/-- Find the task that owns the processor. -/
def current : Action c c.TaskId := do
  match (← get).running with
  | some task => pure task
  | none => fail .badContext

/-! ## The interrupt mask -/

/-- Hold interrupts off. They must not be held off already. -/
def mask : Action c Unit := do
  let k ← get
  if k.processor.context = .outside ∨ k.processor.masked then throw .assertionFailed
  set { k with processor := { k.processor with masked := true } }

/-- Let interrupts through again. They must be held off. -/
def unmask : Action c Unit := do
  let k ← get
  if k.processor.context = .outside ∨ ¬ k.processor.masked then throw .assertionFailed
  set { k with processor := { k.processor with masked := false } }

/-! ## Preemption -/

/-- Ask for a task switch. It happens when preemption is enabled next time, or when the interrupt handler returns. -/
def requestSwitch (k : Kernel c) : Kernel c := { k with preemptPending := true }

/-- Begin a critical section on behalf of a task, by disabling preemption. Only the program of a task may, and only
while preemption is enabled. -/
def enter : Action c Unit := do
  let k ← get
  if k.processor.context = .outside then throw .assertionFailed
  if k.processor.context ≠ .task then fail .badContext
  if k.preemptDisabled then fail .badContext
  set { k with preemptDisabled := true }

/-! ## Runnability and waiting -/

def makeRunnable (k : Kernel c) (task : c.TaskId) : Kernel c :=
  { k with schedule := k.schedule.setRunnable task }

def modifyTask (k : Kernel c) (task : c.TaskId) (f : TaskState c → TaskState c) : Kernel c :=
  { k with tasks := k.tasks.set task (f k.tasks[task]) }

def setWait (k : Kernel c) (task : c.TaskId) (wait : Option (WaitObject c)) : Kernel c :=
  k.modifyTask task fun t => { t with wait := wait }

def waitersChanged (k : Kernel c) : Kernel c := { k with schedule := k.schedule.waitersChanged }

/-- The tasks that are waiting for an object. -/
def waiters (k : Kernel c) (object : WaitObject c) : List c.TaskId :=
  (List.finRange c.tasks.size).filter fun task => k.tasks[task].wait = some object

/-- Make a task runnable and forget what it was waiting for. -/
def wake (k : Kernel c) (task : c.TaskId) : Kernel c := (k.setWait task none).makeRunnable task

/-- Wake every task that is waiting for an object. If there is any, a task switch may be due. -/
def wakeWaiters (k : Kernel c) (object : WaitObject c) : Kernel c :=
  match k.waiters object with
  | [] => k
  | tasks => (tasks.foldl wake k).requestSwitch

end Kernel

end Rtos
