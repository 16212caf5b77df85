import Rtos.Kernel.Signal

/-!
# Timers

The tick counter advances by one per tick. At each tick the enabled timers whose expiry is the new count fire, in the
order of the timer pool (`Kernel.processTick`). After the timers of the application the pool holds one timeout timer
per task, which ends the timed wait of its task (`Kernel.armTimeout`, `Kernel.disarmTimeout`).
-/

namespace Rtos.Kernel
set_option autoImplicit false

variable {c : Config}

def modifyTimer (k : Kernel c) (timer : c.TimerId) (f : TimerState c → TimerState c) : Kernel c :=
  { k with timers := k.timers.set timer (f k.timers[timer]) }

/-! ## Firing -/

/-- End the timed wait of a task. -/
def timeOut (k : Kernel c) (task : c.TaskId) : Kernel c :=
  (k.modifyTask task fun t => { t with timedOut := true }).makeRunnable task

/-- Set the expiry of a timer that is firing to the end of the next period, or disable the timer if it has none. -/
def rearm (k : Kernel c) (timer : c.TimerId) : Kernel c :=
  k.modifyTimer timer
    fun t => if t.reload = 0 then { t with enabled := false } else { t with expiry := k.now + t.reload }

/-- Do what a timer does when it fires. A signal that is still pending makes the timer overflow. -/
def fire (timer : c.TimerId) : Action c Unit := do
  match (← get).timers[timer].effect with
  | .user .none => pure ()
  | .user (.signal task set) =>
    let task ← taskId task
    if (← get).pendingSignals task set ≠ 0 then
      modify (·.modifyTimer timer fun t => { t with overflow := true })
    modify (·.sendSignals task set)
  | .user (.error error) => fail error
  | .timeout task => modify (·.timeOut task)

/-- Whether a timer fires at the current tick. -/
def isDue (k : Kernel c) (timer : c.TimerId) : Bool := k.timers[timer].enabled && k.timers[timer].expiry == k.now

def fireIfDue (timer : c.TimerId) : Action c Unit := do
  if (← get).isDue timer then
    modify (·.rearm timer)
    fire timer

/-- Advance the tick counter and let the timers that are due fire. -/
def processTick : Action c Unit := do
  modify fun k => { k with now := k.now + 1 }
  (List.finRange c.timerCount).forM fireIfDue

/-! ## Timed waits -/

def expectTimeout (timeout : Ticks) : Action c Unit := do
  if timeout > maxTimeout then fail .invalidTimeout

/-- Let the timeout timer of a task fire once, after the given number of ticks. -/
def armTimeout (task : c.TaskId) (ticks : Ticks) : Action c Unit := do
  let timer ← timeoutId task
  modify (·.modifyTask task fun t => { t with timedOut := false })
  modify fun k => k.modifyTimer timer fun t => { t with reload := 0, expiry := k.now + ticks, enabled := true }

def disarmTimeout (task : c.TaskId) : Action c Unit := do
  let timer ← timeoutId task
  modify (·.modifyTimer timer fun t => { t with enabled := false })

/-! ## Operations of the application -/

/-- Start a timer with its period, or disable it if it has none. -/
def startTimer (k : Kernel c) (timer : c.TimerId) : Kernel c :=
  k.modifyTimer timer fun t =>
    if t.reload = 0 then { t with enabled := false } else { t with expiry := k.now + t.reload, enabled := true }

def stopTimer (k : Kernel c) (timer : c.TimerId) : Kernel c :=
  k.modifyTimer timer fun t => { t with enabled := false }

/-- Let a timer fire once, after the given number of ticks; at the next tick if that is zero. -/
def startOneShot (k : Kernel c) (timer : c.TimerId) (timeout : Ticks) : Kernel c :=
  k.modifyTimer timer fun t => { t with reload := 0, expiry := k.now + max timeout 1, enabled := true }

/-- The number of ticks until a timer fires; zero if it is disabled. -/
def ticksToFiring (k : Kernel c) (timer : c.TimerId) : Ticks :=
  if k.timers[timer].enabled then k.timers[timer].expiry - k.now else 0

end Rtos.Kernel
