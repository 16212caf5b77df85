/-!
# Fatal errors and the ways a run ends

* `FatalError`: a condition the kernel cannot continue from, with its number (`code`), its name (`name`) and its
  text (`describe`).
* `Ending`: how a run of the simulated system ends.
-/

namespace Rtos
set_option autoImplicit false

/-! ## Fatal errors -/

/-- A condition the kernel cannot continue from. -/
inductive FatalError
  /-- An object number names no configured object. -/
  | badId
  /-- The operation was called from an interrupt handler, or while preemption is disabled. -/
  | badContext
  /-- The configuration is inconsistent. -/
  | invalidConfig
  /-- A task tried to lock a mutex it already holds. -/
  | mutexDeadlock
  /-- A task tried to unlock a mutex it does not hold. -/
  | mutexNotOwner
  /-- A task tried to lock a mutex whose ceiling is less urgent than the task itself. -/
  | ceilingViolation
  /-- A post would push a semaphore beyond its maximum. -/
  | semaphoreMaxExceeded
  /-- A semaphore maximum of zero or below the current value. -/
  | semaphoreMaxInvalid
  /-- The maximum of the semaphore is already set. -/
  | semaphoreMaxAlreadyInit
  /-- The length of a message buffer is not the element size of the queue. -/
  | messageSizeMismatch
  /-- The two ends of a message copy share a byte. -/
  | messageBufferOverlap
  /-- More than one tick passed between two looks of the dispatcher. -/
  | tickOverflow
  /-- A timeout longer than `maxTimeout`. -/
  | invalidTimeout
  /-- The program of a task ran off its end. -/
  | taskReturned
  /-- A consistency check of the kernel failed. -/
  | invariantViolation
  /-- An error of the application's own, with its payload. -/
  | application (payload : UInt32)
  deriving DecidableEq, Repr

namespace FatalError

/-- The number of an error: the low eight bits tell the kind, and the payload of an application error stands in the
bits from the eighth on. -/
def code : FatalError → Nat
  | badId => 1
  | badContext => 2
  | invalidConfig => 3
  | mutexDeadlock => 4
  | mutexNotOwner => 5
  | ceilingViolation => 6
  | semaphoreMaxExceeded => 7
  | semaphoreMaxInvalid => 8
  | semaphoreMaxAlreadyInit => 9
  | messageSizeMismatch => 10
  | messageBufferOverlap => 11
  | tickOverflow => 12
  | invalidTimeout => 13
  | taskReturned => 14
  | invariantViolation => 15
  | application payload => 0x80 ||| (payload.toNat <<< 8)

/-- The name of the kind of an error. -/
def name : FatalError → String
  | badId => "BadId"
  | badContext => "BadContext"
  | invalidConfig => "InvalidConfig"
  | mutexDeadlock => "MutexDeadlock"
  | mutexNotOwner => "MutexNotOwner"
  | ceilingViolation => "CeilingViolation"
  | semaphoreMaxExceeded => "SemaphoreMaxExceeded"
  | semaphoreMaxInvalid => "SemaphoreMaxInvalid"
  | semaphoreMaxAlreadyInit => "SemaphoreMaxAlreadyInit"
  | messageSizeMismatch => "MessageSizeMismatch"
  | messageBufferOverlap => "MessageBufferOverlap"
  | tickOverflow => "TickOverflow"
  | invalidTimeout => "InvalidTimeout"
  | taskReturned => "TaskReturned"
  | invariantViolation => "InvariantViolation"
  | application _ => "Application"

/-- The errors without a payload. -/
def plain : List FatalError :=
  [badId, badContext, invalidConfig, mutexDeadlock, mutexNotOwner, ceilingViolation, semaphoreMaxExceeded,
    semaphoreMaxInvalid, semaphoreMaxAlreadyInit, messageSizeMismatch, messageBufferOverlap, tickOverflow,
    invalidTimeout, taskReturned, invariantViolation]

/-- The error without a payload that has the given name. -/
def ofName? (name : String) : Option FatalError :=
  plain.find? fun error => error.name == name

/-- The text of an error: its name and number, or the payload of an application error. -/
def describe : FatalError → String
  | application payload => "application error " ++ toString payload.toNat
  | error => error.name ++ " (code " ++ toString error.code ++ ")"

end FatalError

/-! ## Endings -/

/-- How a run ends. -/
inductive Ending
  /-- The application stopped the run. -/
  | complete
  /-- A fatal error was raised. -/
  | fatal (error : FatalError)
  /-- The code under simulation gave up with a message. -/
  | panic (message : String)
  /-- The watcher of the run cut it off after too many operations. -/
  | stepLimit
  deriving DecidableEq, Repr

namespace Ending

/-- An assertion on the use of the processor failed. -/
def assertionFailed : Ending := panic "assertion failed"

/-- The processor was asked to stop before it was started. -/
def notBooted : Ending := panic "the port hasn't booted"

/-- The processor was started a second time. -/
def alreadyBooted : Ending := panic "the port has already booted"

end Ending

end Rtos
