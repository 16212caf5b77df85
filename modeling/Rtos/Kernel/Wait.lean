import Rtos.Call
import Rtos.Kernel.Mutex
import Rtos.Kernel.Queue
import Rtos.Kernel.Semaphore
import Rtos.Kernel.Timer

/-!
# Waiting

Waiting is a loop of attempts: a task that is refused records what it waits for, stops being runnable, and tries again
when it runs next, for whatever reason it was made runnable.

* `Request`: something that can be refused for now: a mutex, a token, room for a message, a message.
* `Wait`: the wait a task is in.
* `Suspension`: where the code of a task goes on when the task is given the processor.
* `Progress`: how far an operation got.
* `Kernel.pursue`, `Kernel.resume`: one round of the loop, at its beginning and after a suspension.
-/

namespace Rtos
set_option autoImplicit false

/-- Something a task asks an object for. -/
inductive Request (c : Config)
  | lock (mutex : c.MutexId)
  | token (semaphore : c.SemaphoreId)
  | put (queue : c.QueueId) (message : Buffer)
  | get (queue : c.QueueId) (message : Buffer)
  deriving DecidableEq

/-- The object a request is made to. -/
def Request.object {c : Config} : Request c → WaitObject c
  | .lock mutex => .mutex mutex
  | .token semaphore => .semaphore semaphore
  | .put queue _ => .queue queue
  | .get queue _ => .queue queue

/-- A wait of a task. -/
inductive Wait (c : Config)
  /-- Until the task is made runnable. -/
  | block
  /-- Until the timeout timer of the task fires. -/
  | sleep
  /-- Until a signal of the set is pending. -/
  | signals (set : SignalSet)
  /-- Until a request is granted or, if there is one, the deadline has passed. -/
  | request (request : Request c) (deadline : Option Ticks)
  deriving DecidableEq

/-- Where the code of a task goes on. -/
inductive Suspension (c : Config)
  /-- At its entry: the task has never run. -/
  | entry
  /-- At the end of an operation that returns the given value, or at the end of the entry code. -/
  | returning (reply : Option Value)
  | waiting (wait : Wait c)
  deriving DecidableEq

/-- How far an operation got. -/
inductive Progress (c : Config)
  /-- It is done, and its critical section is to be left. -/
  | done (value : Value)
  /-- It is done, and there is no critical section to leave. -/
  | returned (value : Value)
  /-- The dispatcher has to choose a task; this one goes on at the given place. -/
  | dispatch (suspension : Suspension c)
  /-- The processor goes straight to the given task; this one goes on at the given place. -/
  | handOver (task : c.TaskId) (suspension : Suspension c)
  deriving DecidableEq

namespace Kernel

variable {c : Config}

/-! ## Stopping the running task -/

/-- Make the running task wait, and let the dispatcher choose another one. -/
def suspend (wait : Wait c) : Action c (Progress c) := do
  let task ← current
  modify fun k => { k with schedule := k.schedule.setBlocked task }
  return .dispatch (.waiting wait)

/-! ## Requests -/

/-- Try to have a request granted, and give the buffer as it is then. -/
def attempt : Request c → Action c (Bool × Buffer)
  | .lock mutex => do return (← tryLock mutex, .own [])
  | .token semaphore => do return (← tryWait semaphore, .own [])
  | .put queue message => do return (← tryPut queue message, message)
  | .get queue message => tryGet queue message

/-- The value an operation returns for a request that was granted or given up. Only an operation that can be given up
tells which. -/
def reply (request : Request c) (canFail granted : Bool) (message : Buffer) : Value :=
  match request with
  | .get _ _ => .message granted message
  | _ => if canFail then .bool granted else .unit

/-- Note that the waiters of an object changed, if that is a mutex. -/
def noteWaiters (k : Kernel c) : WaitObject c → Kernel c
  | .mutex _ => k.waitersChanged
  | _ => k

/-- Wait for a request, for the given number of ticks if there is a deadline. -/
def await (request : Request c) (deadline : Option Ticks) (ticks : Option Ticks) : Action c (Progress c) := do
  let task ← current
  modify (·.setWait task (some request.object))
  modify (·.noteWaiters request.object)
  match ticks with
  | some ticks => armTimeout task ticks
  | none => pure ()
  suspend (.request request deadline)

/-- Try to have a request granted, and wait if it is refused and the deadline, if any, lies ahead. -/
def pursue (request : Request c) (deadline : Option Ticks) : Action c (Progress c) := do
  let (granted, message) ← attempt request
  if granted then return .done (reply request deadline.isSome true message)
  match deadline with
  | none => await request none none
  | some deadline =>
    match remaining? (← get).now deadline with
    | none => return .done (reply request true false message)
    | some ticks => await request (some deadline) (some ticks)

def attemptOnce (request : Request c) : Action c (Progress c) := do
  let (granted, message) ← attempt request
  return .done (reply request true granted message)

/-- Make a request with the given patience. -/
def ask (request : Request c) : Patience → Action c (Progress c)
  | .never => attemptOnce request
  | .forever => pursue request none
  | .upTo timeout => do pursue request (some ((← get).now + timeout))

/-! ## Other waits -/

/-- Go on sleeping unless the timeout timer of the running task has fired. -/
def sleepOn : Action c (Progress c) := do
  let task ← current
  if (← get).tasks[task].timedOut then return .done .unit
  suspend .sleep

/-- Take the pending signals of a set, or wait if there are none. -/
def takeOrWait (set : SignalSet) : Action c (Progress c) := do
  let received ← takeSignals set
  if received = 0 then suspend (.signals set) else return .done (.number received.toNat)

/-! ## After a suspension -/

/-- Clean up after a wait for a request: the timeout timer and the record of the wait are not needed any more. -/
def endWait (request : Request c) (deadline : Option Ticks) : Action c Unit := do
  let task ← current
  if deadline.isSome then disarmTimeout task
  modify (·.setWait task none)
  modify (·.noteWaiters request.object)

/-- Go on with a wait after the task was given the processor. -/
def resume : Wait c → Action c (Progress c)
  | .block => return .done .unit
  | .sleep => sleepOn
  | .signals set => takeOrWait set
  | .request request deadline => do
    endWait request deadline
    pursue request deadline

end Kernel

end Rtos
