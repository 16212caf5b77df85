import Rtos.Machine

/-!
# Snapshots

A snapshot is all that the running task can read about the state of its system without changing it.
-/

namespace Rtos
set_option autoImplicit false

/-- What the running task can read about its system. -/
structure Snapshot where
  current : Nat
  priorities : List Nat
  /-- The pending signals of the running task. -/
  signals : SignalSet
  locked : List Bool
  /-- Whether the running task holds each mutex. -/
  mine : List Bool
  tokens : List UInt32
  messages : List Nat
  /-- The ticks until each timer of the application fires. -/
  remaining : List Ticks
  deriving DecidableEq, Repr

def Config.userTimerIds (c : Config) : List c.TimerId :=
  (List.finRange c.timerCount).filter fun timer => timer < c.userTimers

/-- What `task` can read if it is the running task. -/
def Kernel.snapshot {c : Config} (k : Kernel c) (task : c.TaskId) : Snapshot where
  current := task
  priorities := let k := k.refresh; (List.finRange c.tasks.size).map k.priorityOf
  signals := k.tasks[task].signals
  locked := k.holders.toList.map Option.isSome
  mine := k.holders.toList.map fun holder => holder = some task
  tokens := k.semaphores.toList.map (·.value)
  messages := k.rings.toList.map (·.count)
  remaining := c.userTimerIds.map k.ticksToFiring

end Rtos
