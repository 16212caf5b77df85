import Rtos.Attributes
import Rtos.Buffer

/-!
# Calls of the application

* `Call`: an operation the application can ask the kernel for. Objects are named by plain numbers, which need not name
  anything.
* `Patience`: how long the caller of an operation is ready to wait.
* `Value`: what an operation returns.
-/

namespace Rtos
set_option autoImplicit false

/-- How long the caller is ready to wait. -/
inductive Patience
  /-- Not at all. -/
  | never
  /-- For as long as it takes. -/
  | forever
  /-- For a number of ticks. -/
  | upTo (timeout : Ticks)
  deriving DecidableEq, Repr

/-- An operation of the kernel. -/
inductive Call
  | currentTask
  /-- Let the most urgent runnable task run. -/
  | yield
  /-- Let the given task run if it is runnable, however urgent it is. -/
  | yieldTo (task : Nat)
  /-- Wait until some other party makes the task runnable. -/
  | block
  | unblock (task : Nat)
  /-- Start a task that was not started with the kernel. -/
  | start (task : Nat)
  /-- Wait for a number of ticks, whatever else happens. -/
  | sleep (ticks : Ticks)
  /-- At which priority is a task scheduled? -/
  | effectivePriority (task : Nat)
  /-- Wait for a signal of the set; take those that are pending. -/
  | waitSignals (set : SignalSet)
  /-- Take the pending signals of the set. -/
  | pollSignals (set : SignalSet)
  /-- Which signals of the set are pending? -/
  | peekSignals (set : SignalSet)
  /-- Send signals to a task and make it runnable. -/
  | sendSignals (task : Nat) (set : SignalSet)
  | lock (mutex : Nat) (patience : Patience)
  | unlock (mutex : Nat)
  /-- Does the running task hold the mutex? -/
  | holds (mutex : Nat)
  | isLocked (mutex : Nat)
  /-- Take a token of a semaphore. -/
  | wait (semaphore : Nat) (patience : Patience)
  /-- Add a token to a semaphore. -/
  | post (semaphore : Nat)
  | initMax (semaphore : Nat) (max : UInt32)
  | tokens (semaphore : Nat)
  /-- Append a message to a queue. -/
  | put (queue : Nat) (message : Buffer) (patience : Patience)
  /-- Remove the oldest message of a queue. -/
  | get (queue : Nat) (message : Buffer) (patience : Patience)
  | messages (queue : Nat)
  /-- Start a timer with its period. -/
  | enableTimer (timer : Nat)
  | disableTimer (timer : Nat)
  /-- Let a timer fire once. -/
  | oneShot (timer : Nat) (timeout : Ticks)
  /-- Set the period of a timer from its next firing on. -/
  | setReload (timer : Nat) (reload : Ticks)
  | setTimerSignal (timer task : Nat) (set : SignalSet)
  | setTimerError (timer : Nat) (error : FatalError)
  /-- Did a timer fire while its signal was pending? The answer is forgotten thereby. -/
  | takeOverflow (timer : Nat)
  /-- How many ticks are left until a timer fires? -/
  | ticksToFiring (timer : Nat)
  | now
  /-- Raise an interrupt event; an interrupt handler may do this too. -/
  | raise (event : Nat)
  deriving DecidableEq, Repr

/-- The result of an operation. -/
inductive Value
  | unit
  | bool (value : Bool)
  | number (value : Nat)
  /-- Whether a message was received, and the buffer it is in. -/
  | message (received : Bool) (buffer : Buffer)
  deriving DecidableEq, Repr

/-- The bytes the application reads from the buffer of a message once the operation has returned. By then a buffer that
lies in the pool may have changed again. -/
def Value.contents (value : Value) (pool : Array UInt8) : List UInt8 :=
  match value with
  | .message _ buffer => buffer.contents pool
  | _ => []

end Rtos
