import Rtos.Kernel.Priority

/-!
# Mutexes

A mutex is held by at most one task. Releasing it wakes all tasks that wait for it, and the most urgent of them that
gets to run tries first. This module holds the steps that do not wait.
-/

namespace Rtos.Kernel
set_option autoImplicit false

variable {c : Config}

/-- Refuse to lock a mutex against the ceiling policy. -/
def expectMayLock (mutex : c.MutexId) (task : c.TaskId) : Action c Unit := do
  if !(← get).mayLock mutex task then fail .ceilingViolation

/-- Refuse to wait for a mutex that the task itself holds. -/
def expectNotHolder (mutex : c.MutexId) (task : c.TaskId) : Action c Unit := do
  if (← get).holders[mutex] = some task then fail .mutexDeadlock

def takeMutex (k : Kernel c) (mutex : c.MutexId) (task : c.TaskId) : Kernel c :=
  { k with holders := k.holders.set mutex (some task), schedule := k.schedule.mutexLocked mutex task }

def tryLock (mutex : c.MutexId) : Action c Bool := do
  let task ← current
  match (← get).holders[mutex] with
  | some _ => return false
  | none =>
    modify (·.takeMutex mutex task)
    return true

def freeMutex (k : Kernel c) (mutex : c.MutexId) : Kernel c :=
  { k with holders := k.holders.set mutex none, schedule := k.schedule.mutexUnlocked mutex }

def wakeLockers (k : Kernel c) (mutex : c.MutexId) : Kernel c :=
  if k.waiters (.mutex mutex) = [] then k else (k.wakeWaiters (.mutex mutex)).waitersChanged

/-- Release a mutex, which the running task has to hold. The task may have lost a raised priority by it, so a task
switch may be due. -/
def unlock (mutex : c.MutexId) : Action c Unit := do
  let task ← current
  if (← get).holders[mutex] ≠ some task then fail .mutexNotOwner
  modify (·.freeMutex mutex)
  modify (·.wakeLockers mutex)
  modify requestSwitch

end Rtos.Kernel
