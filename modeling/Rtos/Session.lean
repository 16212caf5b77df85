import Rtos.Machine

/-!
# Sessions

The threads of a machine are threads of a host. Each of them tries to go on whenever the host lets it, but only the one
that the processor is given to does; the others wait. When the run is over, the thread that ended it stops all of them,
and leaves behind what the starter of the session is told.

* `Exit`: what a thread records before it stops the others.
* `Session`: a machine, and what its threads have left behind.
* `Session.shutdown`, `Session.catchPanic`: how a thread stops the others; the first exit and the first panic are kept.
* `Session.unwind`: what a panic does that has left a critical section.
* `Session.turn`: a thread tries to go on.
* `Session.notice?`: what the starter is told in the end.
-/

namespace Rtos
set_option autoImplicit false

/-- What a thread records before it stops the others. -/
inductive Exit
  /-- The application has stopped the run. -/
  | complete
  /-- A fatal error was raised. -/
  | fatal (error : FatalError)
  deriving DecidableEq, Repr

/-- What the starter of a session is told. -/
inductive Notice
  | returned (exit : Exit)
  /-- The panic that a thread ended with is passed on to the starter. -/
  | panicked (message : String)
  /-- Nothing, as the host has given up the whole process: a panic was raised while another one unwound a stack. -/
  | aborted
  deriving DecidableEq, Repr

/-- A machine, and what its threads have left behind for the starter. -/
structure Session (c : Config) where
  machine : Machine c
  /-- The first exit that was recorded. -/
  exit : Option Exit := none
  /-- The first panic that has unwound the stack of a thread. -/
  panic : Option String := none
  /-- Whether the host has given up the process. -/
  aborted : Bool := false
  deriving DecidableEq

namespace Session

variable {c : Config}

open Kernel

/-! ## Stopping -/

/-- Stop all threads for good. -/
def stop (s : Session c) : Session c :=
  let k := s.machine.kernel
  { s with machine.kernel := { k with processor := { k.processor with group := k.processor.group.stop } } }

/-- Record an exit, unless there is one already, and stop all threads. -/
def shutdown (s : Session c) (exit : Exit) : Session c := { s with exit := some (s.exit.getD exit) }.stop

/-- Record the panic that has unwound the whole stack of a thread, unless there is one already, and stop all threads. -/
def catchPanic (s : Session c) (message : String) : Session c := { s with panic := some (s.panic.getD message) }.stop

/-- Do what is left to do for a thread that has ended the run, once its stack is unwound. -/
def finish (s : Session c) : Ending → Session c
  | .complete => s.shutdown .complete
  | .fatal error => s.shutdown (.fatal error)
  | .panic message => s.catchPanic message
  | .stepLimit => s.stop

/-! ## Unwinding -/

/-- Unwind the stack of a thread whose panic has left a critical section, so that the section is released on the way. A
panic in there is one too many. If the dispatcher gets as far as to choose a task, the run goes on with that. -/
def unwind (s : Session c) (message : String) : Session c :=
  match release s.machine.kernel with
  | .ok false k => { s with machine.kernel := k }.finish (.panic message)
  | .ok true k => { s with machine := { s.machine with kernel := k }.goto .choosing }
  | .error (.panic _) k => { s with machine.kernel := k, aborted := true }
  | .error ending k => { s with machine.kernel := k }.finish ending

/-- If the run is over, let the thread that ended it do what is left to do. A thread that has disabled preemption is in
a critical section. -/
def conclude (s : Session c) : Session c :=
  match s.machine.control with
  | .ended (.panic message) => if s.machine.kernel.preemptDisabled then s.unwind message else s.finish (.panic message)
  | .ended ending => s.finish ending
  | _ => s

/-! ## Turns -/

/-- Whether a thread may go on. -/
def admits (s : Session c) (thread : Nat) : Bool := !s.aborted && s.machine.kernel.processor.group.admits thread

/-- Let a thread try to go on with an act of the machine. Unless the processor is given to it, it waits. -/
def turn (s : Session c) (thread : Nat) (a : Act) : Session c :=
  if s.admits thread then { s with machine := s.machine.act a }.conclude else s

/-- The session that starts a configuration. -/
def boot (c : Config) : Session c := { machine := Machine.boot c : Session c }.conclude

/-! ## The notice -/

/-- What the starter is told if all threads are stopped without a reason. -/
def noExit : String := "the simulation ended without an outcome"

/-- What the starter is told once all threads are stopped. A panic takes precedence. -/
def notice? (s : Session c) : Option Notice :=
  if s.aborted then
    some .aborted
  else if s.machine.kernel.processor.group.shutdown then
    match s.panic, s.exit with
    | some message, _ => some (.panicked message)
    | none, some exit => some (.returned exit)
    | none, none => some (.panicked noExit)
  else
    none

end Session

/-- What the starter is told of the end of a run that leaves no critical section. -/
def Ending.notice : Ending → Notice
  | .complete => .returned .complete
  | .fatal error => .returned (.fatal error)
  | .panic message => .panicked message
  | .stepLimit => .panicked Session.noExit

/-- What the starter of a machine is told when its run is over. -/
def Machine.notice? {c : Config} (m : Machine c) : Option Notice := { machine := m : Session c }.conclude.notice?

end Rtos
