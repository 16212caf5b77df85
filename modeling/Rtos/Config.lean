import Rtos.Attributes

/-!
# Configurations

* `Declarations`: the objects of a system and its scheduling policy.
* `Config`: declarations together with the lengths of the pools the objects are laid out in; `Declarations.config` gives
  every object exactly the room it needs.
* `Config.TaskId` and its siblings: the numbers of objects that exist.
* `Config.taskAttr` and its siblings: what is declared about an object that exists.
-/

namespace Rtos
set_option autoImplicit false

/-- How the next task is chosen, and with it the protocol of the mutexes. A task with a smaller number is more
urgent. -/
inductive Policy
  /-- The most urgent runnable task runs; mutexes do not matter. -/
  | strict
  /-- The holder of a mutex runs at the ceiling of the mutex. -/
  | ceiling
  /-- The holder of a mutex runs at the priority of the most urgent task it blocks. -/
  | inheritance
  deriving DecidableEq, Repr

/-- The objects of a system. -/
structure Declarations where
  policy : Policy
  tasks : Array TaskAttr := #[]
  mutexes : Array MutexAttr := #[]
  semaphores : Array SemaphoreAttr := #[]
  queues : Array QueueAttr := #[]
  timers : Array TimerAttr := #[]
  events : Array EventAction := #[]
  deriving DecidableEq, Repr

/-- The objects of a system and the lengths of the pools they live in. -/
structure Config extends Declarations where
  /-- The length of the buffer pool of the message queues, in bytes. -/
  queueBytes : UInt64
  /-- The number of entries of the slot pool of the ceiling policy. -/
  slotEntries : Nat
  /-- The number of entries to keep of the timer pool, which holds the timers of the application and then one timeout
  timer per task. -/
  timerEntries : Nat
  deriving DecidableEq, Repr

/-- The configuration in which every object has exactly the room it needs. -/
def Declarations.config (objects : Declarations) : Config where
  toDeclarations := objects
  queueBytes := objects.queues.foldl (fun total attr => total + attr.bufferLength) 0
  slotEntries := objects.tasks.size + objects.mutexes.size
  timerEntries := objects.timers.size + objects.tasks.size

namespace Config

/-! ## Objects that exist -/

/-- The number of a task. -/
abbrev TaskId (c : Config) := Fin c.tasks.size

abbrev MutexId (c : Config) := Fin c.mutexes.size

abbrev SemaphoreId (c : Config) := Fin c.semaphores.size

abbrev QueueId (c : Config) := Fin c.queues.size

abbrev EventId (c : Config) := Fin c.events.size

/-- The number of entries of the timer pool. -/
def timerCount (c : Config) : Nat := min c.timerEntries (c.timers.size + c.tasks.size)

/-- A position in the timer pool. -/
abbrev TimerId (c : Config) := Fin c.timerCount

/-- The number of timers the application can name: those before the last entries of the pool, one per task, which time
the waits of the tasks. -/
def userTimers (c : Config) : Nat := c.timerCount - c.tasks.size

theorem lt_timerCount {c : Config} {timer : Nat} (h : timer < c.userTimers) : timer < c.timerCount :=
  Nat.lt_of_lt_of_le h (Nat.sub_le _ _)

/-! ## What is declared about them -/

/-- The attributes of a task. -/
def taskAttr (c : Config) (task : c.TaskId) : TaskAttr := c.tasks[task]

def mutexAttr (c : Config) (mutex : c.MutexId) : MutexAttr := c.mutexes[mutex]

def semaphoreAttr (c : Config) (semaphore : c.SemaphoreId) : SemaphoreAttr := c.semaphores[semaphore]

def queueAttr (c : Config) (queue : c.QueueId) : QueueAttr := c.queues[queue]

/-- What an interrupt event does. -/
def eventAction (c : Config) (event : c.EventId) : EventAction := c.events[event]

end Config

end Rtos
