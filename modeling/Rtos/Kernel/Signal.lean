import Rtos.Kernel.State

/-!
# Signals

Every task has a set of pending signals. Sending adds to it and makes the task runnable; taking removes from it.
-/

namespace Rtos.Kernel
set_option autoImplicit false

variable {c : Config}

def pendingSignals (k : Kernel c) (task : c.TaskId) (set : SignalSet) : SignalSet := k.tasks[task].signals &&& set

def clearSignals (k : Kernel c) (task : c.TaskId) (set : SignalSet) : Kernel c :=
  k.modifyTask task fun t => { t with signals := t.signals &&& ~~~set }

/-- Add signals to a task and make it runnable, whether or not it waits for them. -/
def sendSignals (k : Kernel c) (task : c.TaskId) (set : SignalSet) : Kernel c :=
  (k.modifyTask task fun t => { t with signals := t.signals ||| set }).makeRunnable task

/-- Clear the signals of a set on the running task, and give those that were pending. -/
def takeSignals (set : SignalSet) : Action c SignalSet := do
  let task ← current
  let k ← get
  modify (·.clearSignals task set)
  return k.pendingSignals task set

end Rtos.Kernel
