import Rtos.Error
import Rtos.Ticks

/-!
# The static properties of kernel objects

An object is declared by its attributes, which start from a default and are changed setting by setting
(`TaskAttr.ofSettings` and its siblings). Objects are named by their number in declaration order; attributes may name
an object that does not exist, which is found out when the kernel starts.
-/

namespace Rtos
set_option autoImplicit false

/-- A set of signals, one bit each. -/
abbrev SignalSet := UInt32

/-! ## Tasks -/

/-- The static properties of a task. -/
structure TaskAttr where
  /-- The size of the stack in bytes. -/
  stackSize : Nat := 4096
  /-- Whether the task is runnable from the start. -/
  autostart : Bool := true
  deriving DecidableEq, Repr

/-- One change to the attributes of a task. -/
inductive TaskSetting
  | stackSize (bytes : Nat)
  | autostart (on : Bool)
  deriving DecidableEq, Repr

namespace TaskAttr

/-- The attributes after one more setting. -/
def apply (attr : TaskAttr) : TaskSetting → TaskAttr
  | .stackSize bytes => { attr with stackSize := bytes }
  | .autostart on => { attr with autostart := on }

/-- The attributes after the given settings, in order. -/
def ofSettings (settings : List TaskSetting) : TaskAttr := settings.foldl apply {}

end TaskAttr

/-! ## Mutexes -/

/-- The static properties of a mutex. -/
structure MutexAttr where
  /-- The most urgent task that may lock the mutex; needed by the ceiling policy only. -/
  ceiling : Option Nat := none
  deriving DecidableEq, Repr

inductive MutexSetting
  | ceiling (task : Nat)
  | default
  deriving DecidableEq, Repr

namespace MutexAttr

def apply (attr : MutexAttr) : MutexSetting → MutexAttr
  | .ceiling task => { attr with ceiling := some task }
  | .default => {}

def ofSettings (settings : List MutexSetting) : MutexAttr := settings.foldl apply {}

end MutexAttr

/-! ## Semaphores -/

/-- The static properties of a semaphore. -/
structure SemaphoreAttr where
  /-- The value at the start. -/
  initial : UInt32 := 0
  /-- The largest value, if it is bounded from the start. -/
  max : Option UInt32 := none
  deriving DecidableEq, Repr

inductive SemaphoreSetting
  | initial (value : UInt32)
  | max (value : UInt32)
  | default
  deriving DecidableEq, Repr

namespace SemaphoreAttr

def apply (attr : SemaphoreAttr) : SemaphoreSetting → SemaphoreAttr
  | .initial value => { attr with initial := value }
  | .max value => { attr with max := some value }
  | .default => {}

def ofSettings (settings : List SemaphoreSetting) : SemaphoreAttr := settings.foldl apply {}

end SemaphoreAttr

/-! ## Message queues -/

/-- The static properties of a message queue. -/
structure QueueAttr where
  /-- The size of every message, in bytes. -/
  elementSize : UInt64
  /-- The capacity, in messages. -/
  length : UInt64
  deriving DecidableEq, Repr

/-- The number of bytes a queue takes from the buffer pool. -/
def QueueAttr.bufferLength (attr : QueueAttr) : UInt64 := attr.elementSize * attr.length

/-! ## Timers -/

/-- What a timer of the application does when it fires. -/
inductive TimerAction
  | none
  | signal (task : Nat) (set : SignalSet)
  /-- Raise the error, which makes the timer a watchdog. -/
  | error (error : FatalError)
  deriving DecidableEq, Repr

/-- The static properties of a timer. -/
structure TimerAttr where
  /-- The period; zero makes a timer that fires once. -/
  reload : Ticks := 0
  /-- Whether the timer is started with the kernel. -/
  enabled : Bool := false
  /-- What the timer does when it fires. -/
  action : TimerAction := .none
  deriving DecidableEq, Repr

inductive TimerSetting
  | reload (period : Ticks)
  | enabled (on : Bool)
  | signal (task : Nat) (set : SignalSet)
  | error (error : FatalError)
  | default
  deriving DecidableEq, Repr

namespace TimerAttr

def apply (attr : TimerAttr) : TimerSetting → TimerAttr
  | .reload period => { attr with reload := period }
  | .enabled on => { attr with enabled := on }
  | .signal task set => { attr with action := .signal task set }
  | .error error => { attr with action := .error error }
  | .default => {}

def ofSettings (settings : List TimerSetting) : TimerAttr := settings.foldl apply {}

end TimerAttr

/-! ## Interrupt events -/

/-- What the dispatcher does for an interrupt event that was raised. -/
inductive EventAction
  | unblock (task : Nat)
  | signal (task : Nat) (set : SignalSet)
  deriving DecidableEq, Repr

/-- The task an event concerns. -/
def EventAction.task : EventAction → Nat
  | .unblock task => task
  | .signal task _ => task

end Rtos
