import Rtos.Scenario

/-!
# Showcase systems

Two systems with names for their objects: `Showcase.full`, which has objects of every kind and runs under each policy,
and `Showcase.tasksOnly`, which has nothing but tasks. `Config.pools` tells how much room a system takes.
-/

namespace Rtos
set_option autoImplicit false

/-- The lengths of the pools of a system. -/
structure PoolLengths where
  tasks : Nat
  mutexes : Nat
  semaphores : Nat
  queues : Nat
  queueBytes : Nat
  timers : Nat
  slots : Nat
  events : Nat
  deriving DecidableEq, Repr

def Config.pools (c : Config) : PoolLengths where
  tasks := c.tasks.size
  mutexes := c.mutexes.size
  semaphores := c.semaphores.size
  queues := c.queues.size
  queueBytes := c.queueBytes.toNat
  timers := c.timerCount
  slots := c.slotEntries
  events := c.events.size

/-- A scenario with names for the objects of its system. -/
structure Showcase where
  scenario : Scenario
  tasks : List String := []
  mutexes : List String := []
  semaphores : List String := []
  queues : List String := []
  timers : List String := []
  events : List String := []

namespace Showcase

/-- The names of all objects, each with the number it stands for: objects are numbered kind by kind, in declaration
order. -/
def ids (s : Showcase) : List (String × Nat) :=
  [s.tasks, s.mutexes, s.semaphores, s.queues, s.timers, s.events].flatMap List.zipIdx

/-! ## A system with objects of every kind -/

/-- The most urgent task: it answers signals, sleeps, and is ended by the watchdog in the end. -/
def urgent : List Op :=
  [.call (.waitSignals 1), .call .now, .call (.lock 1 .forever), .call (.wait 0 .forever), .call (.unlock 1),
    .call (.get 0 (.own [0, 0]) .forever), .call (.waitSignals 2), .call (.takeOverflow 0), .call (.oneShot 1 3),
    .call (.sleep 2), .call (.disableTimer 1), .call (.sleep 1), .call (.oneShot 1 2), .call .block, .call .block,
    .call .block, .call .block]

/-- The task in the middle: it is started by an event, and its waits run out. -/
def middle : List Op :=
  [.call (.lock 0 .forever), .call (.effectivePriority 1), .call (.wait 1 .forever),
    .call (.put 1 (.own [1, 2, 3, 4, 5]) .forever), .call (.unlock 0), .call (.lock 1 (.upTo 2)),
    .call (.wait 1 (.upTo 2)), .call (.get 1 (.own [0, 0, 0, 0, 0]) (.upTo 1)), .call .block]

/-- The least urgent task: it holds the mutex the others want, and lets time pass. -/
def background : List Op :=
  [.call (.effectivePriority 2), .call (.lock 0 .forever), .call (.effectivePriority 2), .call (.raise 0),
    .call (.effectivePriority 2), .call (.sleep 6), .call (.unlock 0), .call (.effectivePriority 2), .call (.post 0),
    .call (.put 0 (.own [0xaa, 0xbb]) .never), .call (.put 0 (.own [0xcc, 0xdd]) (.upTo 1)),
    .interrupt [.call (.raise 1), .tick], .call (.post 1), .loop 12 [.tick, .call (.tokens 1)]]

/-- The system with objects of every kind, under the given policy. -/
def full (policy : Policy) : Showcase where
  scenario :=
    { config := Declarations.config
        { policy := policy
          tasks := #[{}, { autostart := false }, { stackSize := 8192 }]
          mutexes := #[{ ceiling := some 1 }, { ceiling := some 0 }]
          semaphores := #[{}, { initial := 1, max := some 2 }]
          queues := #[⟨2, 3⟩, ⟨5, 1⟩]
          timers := #[{ reload := 4, enabled := true, action := .signal 0 1 }, { action := .error (.application 77) }]
          events := #[.unblock 1, .signal 0 2] }
      scripts := [urgent, middle, background]
      watched := true
      described := true
      restarted := true }
  tasks := ["HI", "MID", "LO"]
  mutexes := ["M_MID", "M_HI"]
  semaphores := ["SEM", "BOUNDED"]
  queues := ["Q", "Q2"]
  timers := ["PERIODIC", "WATCHDOG"]
  events := ["WAKE", "RX"]

/-- There is a most urgent task. -/
theorem full_tasks_pos : 0 < (full .strict).scenario.config.tasks.size := by decide

/-! ## A system with nothing but tasks -/

/-- The system with nothing but tasks. -/
def tasksOnly : Showcase where
  scenario :=
    { config := Declarations.config { policy := .strict, tasks := #[{}, {}] }
      scripts :=
        [[.call .currentTask, .call (.sleep 3), .call .now, .call (.unblock 1), .call (.yieldTo 1), .halt],
          [.call .currentTask, .call .block, .call (.effectivePriority 1), .call .yield]]
      watched := true }
  tasks := ["FIRST", "SECOND"]

def ofName? : String → Option Showcase
  | "strict" => some (full .strict)
  | "ceiling" => some (full .ceiling)
  | "inherit" => some (full .inheritance)
  | "tasks_only" => some tasksOnly
  | _ => none

end Showcase

end Rtos
