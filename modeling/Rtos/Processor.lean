import Rtos.Table

/-!
# The simulated processor

The processor runs one thread at a time. The boot thread runs first; every task has a thread of its own, which is
spawned when the task is first dispatched.

* `Context`: the kind of code the processor is executing.
* `ThreadGroup`: the threads spawned so far, and which of them runs.
* `Processor`: the context, the interrupt mask, the thread that holds the processor, and the threads of the tasks.
* `Processor.switch`: hand the processor to the thread of a task.
-/

namespace Rtos
set_option autoImplicit false

/-- The kind of code that is being executed. -/
inductive Context
  /-- Code that is not run by the simulated processor at all. -/
  | outside
  /-- The code that starts the kernel. -/
  | boot
  /-- The program of a task, or the kernel on its behalf. -/
  | task
  | interrupt
  deriving DecidableEq, Repr

/-! ## Threads -/

/-- The threads of a processor, at most one of which runs. -/
structure ThreadGroup where
  /-- The number of threads spawned so far. -/
  spawned : Nat := 0
  /-- The number of the thread that runs. -/
  running : Option Nat := none
  /-- Whether the threads have been stopped for good. -/
  shutdown : Bool := false
  deriving DecidableEq

namespace ThreadGroup

/-- Spawn a thread, and number it by the threads before it. -/
def spawn (g : ThreadGroup) : Nat × ThreadGroup := (g.spawned, { g with spawned := g.spawned + 1 })

/-- Let a thread run. -/
def give (g : ThreadGroup) (thread : Nat) : ThreadGroup := { g with running := some thread }

/-- The number of the boot thread, which is the first one spawned. -/
def bootThread : Nat := (spawn {}).1

/-- The threads while the boot thread is the only one. -/
def booted : ThreadGroup := (spawn {}).2.give bootThread

/-- The text for a thread. -/
def describe : Option Nat → String
  | some thread => "Some(WorkerId(" ++ toString thread ++ "))"
  | none => "None"

/-- What a thread is told that asks for something only the thread that runs may ask for. -/
def notRunning (me running : Option Nat) : String :=
  describe me ++ " is not the running worker (" ++ describe running ++ ")"

/-- Let another thread run. Only the thread that runs may ask for that. -/
def pass (g : ThreadGroup) (me : Option Nat) (other : Nat) : Except String ThreadGroup :=
  if me ≠ none ∧ g.running = me then .ok (g.give other) else .error (notRunning me g.running)

/-- Stop all threads for good. -/
def stop (g : ThreadGroup) : ThreadGroup := { g with shutdown := true, running := none }

/-- Whether a thread that waits for the processor may go on. Once the threads are stopped, it waits forever. -/
def admits (g : ThreadGroup) (thread : Nat) : Bool := !g.shutdown && g.running == some thread

end ThreadGroup

/-! ## The processor -/

/-- The number of idle ticks in a row after which the system counts as deadlocked. -/
def maxIdleTicks : Nat := 100000

/-- The state of the processor of a system of `n` tasks. -/
structure Processor (n : Nat) where
  context : Context := .outside
  /-- Whether interrupts are held off. -/
  masked : Bool := false
  /-- The number of ticks delivered while idle since the processor was last handed to another thread. -/
  idleTicks : Nat := 0
  /-- The task whose thread holds the processor; `none` for the boot thread. -/
  thread : Option (Fin n) := none
  /-- Whether the entry of a task is known, so that its thread can be spawned. -/
  ready : Table Bool n := Table.replicate n false
  /-- The number of the thread of a task that was dispatched at least once. -/
  workers : Table (Option Nat) n := Table.replicate n none
  group : ThreadGroup := .booted
  deriving DecidableEq

namespace Processor

variable {n : Nat}

/-- The number of the thread whose code is executed. -/
def worker (p : Processor n) : Option Nat :=
  match p.thread with
  | none => some ThreadGroup.bootThread
  | some task => p.workers[task]

/-- What happens if a task is dispatched whose entry is not known. -/
def uninitialized : String := "a task was dispatched before initialization"

/-- Find the thread of a task, which is spawned unless it exists. The entry of the task has to be known. -/
def spawn (p : Processor n) (task : Fin n) : Except String (Nat × Processor n) :=
  match p.workers[task] with
  | some worker => .ok (worker, p)
  | none =>
    if p.ready[task] then
      let (worker, group) := p.group.spawn
      .ok (worker, { p with workers := p.workers.set task (some worker), group := group })
    else
      .error uninitialized

/-- Hand the processor to the thread of a task, which is spawned on its first turn. Idle time is counted anew. -/
def switch (p : Processor n) (task : Fin n) : Except String (Processor n) := do
  let (worker, q) ← p.spawn task
  let group ← q.group.pass p.worker worker
  return { q with idleTicks := 0, thread := some task, context := .task, group := group }

end Processor

end Rtos
