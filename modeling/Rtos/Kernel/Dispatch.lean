import Rtos.Kernel.Consistency
import Rtos.Kernel.Priority
import Rtos.Kernel.Timer

/-!
# The dispatcher

Interrupt handlers touch no kernel object: they record events and ticks (`Kernel.raise`, `Kernel.deliverTick`) and ask
for a task switch. The dispatcher applies what was recorded (`Kernel.settle`) before it asks the scheduling policy for
the next task, and lets idle ticks pass while there is none (`Kernel.idle`). `Kernel.switchTo` and
`Kernel.startFirst` hand the processor over. `Kernel.release` ends the critical section of a thread that panics.
-/

namespace Rtos.Kernel
set_option autoImplicit false

variable {c : Config}

/-! ## What interrupts record -/

def recordEvent (event : c.EventId) : Action c Unit := do
  mask
  modify fun k => { k with raised := k.raised.set event true }
  unmask
  modify requestSwitch

def deliverTick : Action c Unit := do
  mask
  modify fun k => { k with pendingTicks := k.pendingTicks + 1 }
  unmask
  modify requestSwitch

/-- Whether an event or a tick is recorded. -/
def hasPending (k : Kernel c) : Bool :=
  (List.finRange c.events.size).any (fun event => k.raised[event]) || k.pendingTicks != 0

/-! ## Applying it -/

/-- The recorded events, in ascending order. -/
def raisedEvents (k : Kernel c) : List c.EventId := (List.finRange c.events.size).filter fun event => k.raised[event]

/-- Take the recorded events and ticks. -/
def takePending : Action c (List c.EventId × Nat) := do
  mask
  let k ← get
  set { k with raised := Table.replicate _ false, pendingTicks := 0 }
  unmask
  return (k.raisedEvents, k.pendingTicks)

/-- Do what is to be done for an event. -/
def applyEvent (event : c.EventId) : Action c Unit := do
  match c.eventAction event with
  | .unblock task =>
    let task ← taskId task
    modify (·.makeRunnable task)
  | .signal task set =>
    let task ← taskId task
    modify (·.sendSignals task set)

/-- Account for a number of ticks. More than one tick means that the dispatcher has fallen behind. -/
def applyTicks : Nat → Action c Unit
  | 0 => pure ()
  | 1 => processTick
  | _ => fail .tickOverflow

/-- Apply the recorded events, and then the recorded tick. -/
def settle : Action c Unit := do
  let (events, ticks) ← takePending
  events.forM applyEvent
  applyTicks ticks

/-! ## Idling -/

/-- Wait for an interrupt, which is always a tick. A system that has been idle for too long is deadlocked. The panic
that reports it leaves the interrupts masked and preemption disabled; `release` is what the unwinding of the stack then
does. -/
def waitForInterrupt : Action c Unit := do
  let k ← get
  if ¬ k.processor.masked then throw .assertionFailed
  let idleTicks := k.processor.idleTicks + 1
  set { k with processor := { k.processor with idleTicks := idleTicks } }
  if idleTicks > maxIdleTicks then
    throw (.panic ("deadlock: no task became runnable after " ++ toString maxIdleTicks ++ " idle ticks"))
  modify fun k => { k with processor := { k.processor with masked := false, context := .interrupt } }
  deliverTick
  modify fun l => { l with processor := { l.processor with masked := true, context := k.processor.context } }

/-- Wait for an interrupt, unless one was recorded in the meantime. -/
def idle : Action c Unit := do
  mask
  if !(← get).hasPending then waitForInterrupt
  unmask

/-! ## Unwinding -/

/-- The end of a critical section that a panic has left: preemption is enabled, as at the end of any critical section,
and if a task switch is due, the dispatcher comes first. Whether it got past its first look at what was recorded is
told. -/
def release : Action c Bool := do
  if (← get).preemptPending then
    modify fun k => { k with preemptDisabled := true, preemptPending := false }
    let _ ← current
    settle
    return true
  else
    modify fun k => { k with preemptDisabled := false }
    return false

/-! ## Handing the processor over -/

/-- Give the processor to the thread of a task. -/
def handOver (task : c.TaskId) : Action c Unit := do
  let k ← get
  match k.processor.switch task with
  | .ok processor => set { k with processor := processor }
  | .error message => throw (.panic message)

/-- Dispatch the first task, which ends the start of the kernel. -/
def startFirst (task : c.TaskId) : Action c Unit := do
  modify fun k => { k with running := some task }
  if (← get).processor.context ≠ .boot then throw .assertionFailed
  handOver task

/-- Switch from the running task to another one. The processor must be held by the thread of the running task. -/
def switchTo (task : c.TaskId) : Action c Unit := do
  let old ← current
  if task ≠ old then
    modify fun k => { k with running := some task }
    check
    let p := (← get).processor
    if p.context ≠ .task then throw .assertionFailed
    if p.workers[old] = none ∨ p.workers[old] ≠ p.worker then throw .assertionFailed
    handOver task

end Rtos.Kernel
