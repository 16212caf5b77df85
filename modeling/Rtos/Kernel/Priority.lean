import Rtos.Kernel.State

/-!
# Choosing a task

* `Kernel.blocker`: the task a waiting task is blocked by, which is the relation priorities are inherited along.
* `Kernel.priorityOf`: the priority a task is scheduled at.
* `Kernel.choose`: the task that is to run next.
* `Kernel.mayLock`: what the ceiling policy asks of a task that is about to lock a mutex.

Under the inheritance policy the priorities are kept until something they depend on changes (`Kernel.refresh`).
-/

namespace Rtos.Kernel
set_option autoImplicit false

variable {c : Config}

def isRunnable (k : Kernel c) (task : c.TaskId) : Bool := k.schedule.isRunnable task

/-- The holder of the mutex that a task which is not runnable waits for. -/
def blocker (k : Kernel c) (task : c.TaskId) : Option c.TaskId :=
  if k.isRunnable task then none
  else
    match k.tasks[task].wait with
    | some (.mutex mutex) => k.holders[mutex]
    | _ => none

/-- Compute the inherited priorities anew if they are stale. -/
def refresh (k : Kernel c) : Kernel c :=
  match k.schedule with
  | .inheritance runnable priorities true =>
    { k with schedule := .inheritance runnable (Inheritance.recompute k.blocker priorities) false }
  | _ => k

/-- The most urgent ceiling among the mutexes a task holds, or its own priority if that is more urgent. -/
def ceilingPriority (k : Kernel c) (task : c.TaskId) : Nat :=
  (List.finRange c.mutexes.size).foldl (fun priority mutex =>
    if k.holders[mutex] = some task then
      match (c.mutexAttr mutex).ceiling with
      | some ceiling => min priority ceiling
      | none => priority
    else priority) task

/-- The priority a task is scheduled at, once the inherited priorities are fresh. -/
def priorityOf (k : Kernel c) (task : c.TaskId) : Nat :=
  match k.schedule with
  | .strict _ => task
  | .ceiling _ => k.ceilingPriority task
  | .inheritance _ priorities _ => priorities[task]

/-- The most urgent of two tasks, by priority; the first one if they are equal. -/
def moreUrgent (priorities : Table Nat c.tasks.size) (best : Option c.TaskId) (task : c.TaskId) : Option c.TaskId :=
  match best with
  | none => some task
  | some other => if priorities[task] < priorities[other] then some task else some other

/-- The task that is to run next, once the inherited priorities are fresh. -/
def next (k : Kernel c) : Except FatalError (Option c.TaskId) :=
  match k.schedule with
  | .strict runnable => .ok ((List.finRange c.tasks.size).find? fun task => runnable[task])
  | .ceiling slots => slots.next
  | .inheritance runnable priorities _ =>
    .ok (((List.finRange c.tasks.size).filter fun task => runnable[task]).foldl (moreUrgent priorities) none)

/-- Ask the scheduling policy which task is to run next. -/
def choose : Action c (Option c.TaskId) := do
  modify refresh
  match (← get).next with
  | .ok task => pure task
  | .error error => fail error

/-- Ask for the priority a task is scheduled at. -/
def effectivePriority (task : c.TaskId) : Action c Nat := do
  modify refresh
  return (← get).priorityOf task

/-- Whether the ceiling policy lets a task lock a mutex; the other policies always do. -/
def mayLock (k : Kernel c) (mutex : c.MutexId) (task : c.TaskId) : Bool :=
  match k.schedule with
  | .ceiling slots => slots.mayLock mutex task
  | _ => true

end Rtos.Kernel
