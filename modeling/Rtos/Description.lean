import Rtos.Kernel.State

/-!
# Descriptions of control blocks

The control block of an object is described by a text in the form of a record: the kind, and then the fields that do not
change, with the addresses blotted out. Of what changes, a description tells only which thread backs a task.
-/

namespace Rtos
set_option autoImplicit false

namespace Description

/-! ## Notation for records -/

/-- A blotted-out address. -/
def address : String := "0x*"

/-- A record with the given fields; two dots stand for fields that are not told. -/
def record (kind : String) (fields : List String) : String :=
  kind ++ " \x7b " ++ ", ".intercalate fields ++ " \x7d"

def field (name value : String) : String := name ++ ": " ++ value

/-- The fields that are not told. -/
def more : String := ".."

def applied (kind : String) (arguments : List String) : String := kind ++ "(" ++ ", ".intercalate arguments ++ ")"

def number (n : Nat) : String := toString n

def truth (b : Bool) : String := if b then "true" else "false"

def optional {α : Type} (text : α → String) : Option α → String
  | none => "None"
  | some a => applied "Some" [text a]

def task (n : Nat) : String := applied "TaskId" [number n]

def error : FatalError → String
  | .application payload => applied (FatalError.application payload).name [number payload.toNat]
  | error => error.name

/-! ## Control blocks -/

/-- The thread that backs a task. -/
def threadState (worker : Option Nat) : String :=
  record "TaskState" [field "worker" (optional (fun w => applied "WorkerId" [number w]) worker), more]

def taskBlock (attr : TaskAttr) (worker : Option Nat) : String :=
  record "TaskCb" [field "self" address, field "port_task_state" (threadState worker),
    field "attr" (record "TaskAttr" [field "entry" address, field "stack_size" (number attr.stackSize),
      field "autostart" (truth attr.autostart)]), more]

def mutexBlock (attr : MutexAttr) : String :=
  record "MutexCb" [field "self" address,
    field "attr" (record "MutexAttr" [field "ceiling" (optional task attr.ceiling)]), more]

def semaphoreBlock (attr : SemaphoreAttr) : String :=
  record "SemaphoreCb" [field "self" address,
    field "attr" (record "SemaphoreAttr" [field "initial" (number attr.initial.toNat),
      field "max" (optional (fun max => number max.toNat) attr.max)]), more]

def queueBlock (attr : QueueAttr) : String :=
  record "MessageQueueCb" [field "self" address,
    field "attr" (record "MessageQueueAttr" [field "element_size" (number attr.elementSize.toNat),
      field "queue_length" (number attr.length.toNat)]), more]

def timerAction : TimerAction → String
  | .none => "None"
  | .signal target set => applied "Signal" [task target, number set.toNat]
  | .error e => applied "Error" [error e]

def timerBlock (attr : TimerAttr) : String :=
  record "TimerCb" [field "self" address,
    field "attr" (record "TimerAttr" [field "reload" (number attr.reload.toNat), field "enabled" (truth attr.enabled),
      field "action" (timerAction attr.action)]), more]

def eventAction : EventAction → String
  | .unblock target => applied "Unblock" [task target]
  | .signal target set => applied "Signal" [task target, number set.toNat]

def eventBlock (action : EventAction) : String := record "InterruptEventAttr" [field "action" (eventAction action)]

end Description

/-! ## All objects of a system -/

/-- The descriptions of all objects of a system. -/
structure Descriptions where
  tasks : List String
  mutexes : List String
  semaphores : List String
  queues : List String
  /-- The whole timer pool: a timeout timer has the attributes every timer starts from. -/
  timers : List String
  events : List String
  /-- What is told of the thread of a task that was never dispatched. -/
  defaultThread : String
  deriving DecidableEq, Repr

/-- Describe all objects of a system. -/
def Kernel.describe {c : Config} (k : Kernel c) : Descriptions where
  tasks := (List.finRange c.tasks.size).map fun task =>
    Description.taskBlock (c.taskAttr task) k.processor.workers[task]
  mutexes := c.mutexes.toList.map Description.mutexBlock
  semaphores := c.semaphores.toList.map Description.semaphoreBlock
  queues := c.queues.toList.map Description.queueBlock
  timers := (List.range c.timerCount).map fun timer => Description.timerBlock (c.timers.getD timer {})
  events := c.events.toList.map Description.eventBlock
  defaultThread := Description.threadState none

end Rtos
