import Rtos.Kernel.Dispatch
import Rtos.Kernel.Wait

/-!
# Performing a call

`Kernel.perform` does the first part of an operation, up to its end or to the point where the processor may change
hands. Some checks come before the critical section is entered: the size of a message, the length of a timeout, and the
number of an event. All others come after it.
-/

namespace Rtos.Kernel
set_option autoImplicit false

variable {c : Config}

def expectPatience : Patience → Action c Unit
  | .upTo timeout => expectTimeout timeout
  | _ => pure ()

/-- Lock a mutex. A task that is ready to wait must not hold the mutex already. -/
def lock (mutex : Nat) (patience : Patience) : Action c (Progress c) := do
  expectPatience patience
  enter
  let task ← current
  let mutex ← mutexId mutex
  if patience ≠ .never then expectNotHolder mutex task
  expectMayLock mutex task
  ask (.lock mutex) patience

def put (queue : Nat) (message : Buffer) (patience : Patience) : Action c (Progress c) := do
  let queue ← queueId queue
  expectMessageSize queue message
  expectPatience patience
  enter
  ask (.put queue message) patience

def receive (queue : Nat) (message : Buffer) (patience : Patience) : Action c (Progress c) := do
  let queue ← queueId queue
  expectMessageSize queue message
  expectPatience patience
  enter
  ask (.get queue message) patience

/-- Let the given task run if it is runnable, or else the most urgent one. -/
def yieldTo (task : Nat) : Action c (Progress c) := do
  enter
  let task ← taskId task
  if (← get).isRunnable task then
    return .handOver task (.returning (some .unit))
  else
    return .dispatch (.returning (some .unit))

/-- Make a task runnable, which may make a task switch due. -/
def unblock (task : Nat) : Action c (Progress c) := do
  enter
  let task ← taskId task
  modify (·.makeRunnable task)
  modify requestSwitch
  return .done .unit

/-- Sleep for a number of ticks; zero ticks only give way to the most urgent task. -/
def sleep (ticks : Ticks) : Action c (Progress c) := do
  expectTimeout ticks
  enter
  if ticks = 0 then return .dispatch (.returning (some .unit))
  armTimeout (← current) ticks
  sleepOn

/-- Begin a critical section if a task switch is due and may happen now. Its end will do the switch. -/
def servicePreemption : Action c Bool := do
  let k ← get
  if !k.preemptDisabled && k.preemptPending then
    enter
    return true
  else
    return false

/-- Raise an interrupt event. An interrupt handler leaves the task switch to its own end. -/
def raise (event : Nat) : Action c (Progress c) := do
  let event ← eventId event
  recordEvent event
  if (← get).processor.context = .interrupt then return .returned .unit
  if ← servicePreemption then return .done .unit else return .returned .unit

/-- Perform a call, as far as it gets without another task. -/
def perform : Call → Action c (Progress c)
  | .currentTask => do
    enter
    return .done (.number (← current))
  | .yield => do
    enter
    return .dispatch (.returning (some .unit))
  | .yieldTo task => yieldTo task
  | .block => do
    enter
    suspend .block
  | .unblock task => unblock task
  | .start task => unblock task
  | .sleep ticks => sleep ticks
  | .effectivePriority task => do
    enter
    let task ← taskId task
    return .done (.number (← effectivePriority task))
  | .waitSignals set => do
    enter
    takeOrWait set
  | .pollSignals set => do
    enter
    return .done (.number (← takeSignals set).toNat)
  | .peekSignals set => do
    enter
    let task ← current
    return .done (.number ((← get).pendingSignals task set).toNat)
  | .sendSignals task set => do
    enter
    let task ← taskId task
    modify (·.sendSignals task set)
    modify requestSwitch
    return .done .unit
  | .lock mutex patience => lock mutex patience
  | .unlock mutex => do
    enter
    unlock (← mutexId mutex)
    return .done .unit
  | .holds mutex => do
    enter
    let task ← current
    let mutex ← mutexId mutex
    return .done (.bool ((← get).holders[mutex] = some task))
  | .isLocked mutex => do
    enter
    let mutex ← mutexId mutex
    return .done (.bool (← get).holders[mutex].isSome)
  | .wait semaphore patience => do
    expectPatience patience
    enter
    ask (.token (← semaphoreId semaphore)) patience
  | .post semaphore => do
    enter
    post (← semaphoreId semaphore)
    return .done .unit
  | .initMax semaphore max => do
    enter
    initMax (← semaphoreId semaphore) max
    return .done .unit
  | .tokens semaphore => do
    enter
    let semaphore ← semaphoreId semaphore
    return .done (.number (← get).semaphores[semaphore].value.toNat)
  | .put queue message patience => put queue message patience
  | .get queue message patience => receive queue message patience
  | .messages queue => do
    enter
    let queue ← queueId queue
    return .done (.number (← get).rings[queue].count)
  | .enableTimer timer => do
    enter
    let timer ← timerId timer
    modify (·.startTimer timer)
    return .done .unit
  | .disableTimer timer => do
    enter
    let timer ← timerId timer
    modify (·.stopTimer timer)
    return .done .unit
  | .oneShot timer timeout => do
    expectTimeout timeout
    enter
    let timer ← timerId timer
    modify (·.startOneShot timer timeout)
    return .done .unit
  | .setReload timer reload => do
    enter
    let timer ← timerId timer
    modify (·.modifyTimer timer fun t => { t with reload := reload })
    return .done .unit
  | .setTimerSignal timer task set => do
    enter
    let _ ← taskId task
    let timer ← timerId timer
    modify (·.modifyTimer timer fun t => { t with effect := .user (.signal task set) })
    return .done .unit
  | .setTimerError timer error => do
    enter
    let timer ← timerId timer
    modify (·.modifyTimer timer fun t => { t with effect := .user (.error error) })
    return .done .unit
  | .takeOverflow timer => do
    enter
    let timer ← timerId timer
    let overflow := (← get).timers[timer].overflow
    modify (·.modifyTimer timer fun t => { t with overflow := false })
    return .done (.bool overflow)
  | .ticksToFiring timer => do
    enter
    let timer ← timerId timer
    return .done (.number ((← get).ticksToFiring timer).toNat)
  | .now => do
    enter
    return .done (.number (← get).now.toNat)
  | .raise event => raise event

end Rtos.Kernel
