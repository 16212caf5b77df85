import Rtos.Kernel.Boot
import Rtos.Kernel.Perform

/-!
# The machine

A machine is a kernel together with the place where its code goes on. It moves in small steps:

* `Control`: what the machine is about to do.
* `Machine.step`: one step of the kernel's own.
* `Move` and `Machine.move`: what the application or an interrupt handler may do when it is their turn.
* `Act` and `Machine.act`: a step or a move.
* `Machine.boot`: the machine that starts a configuration.

Between two moves of the application the kernel leaves the critical section (`Control.leaving`), which may take it
through the dispatcher (`Control.dispatching`, `Control.choosing`) to another task, whose code then goes on where it was
suspended (`Control.resuming`).
-/

namespace Rtos
set_option autoImplicit false

/-- What a machine is about to do. -/
inductive Control
  /-- The dispatcher applies what interrupts have recorded. -/
  | dispatching
  /-- The dispatcher asks the scheduling policy for the next task. -/
  | choosing
  /-- The thread that holds the processor goes on where it was suspended. -/
  | resuming
  /-- The running task leaves its critical section, and then returns to its program with the given value; `none` stands
  for the begin of the program. -/
  | leaving (reply : Option Value)
  /-- The program of the running task makes its next move, knowing what its last one returned. -/
  | application (reply : Option Value)
  /-- An interrupt handler, which interrupts the program of the running task, makes its next move. -/
  | handling
  /-- The run is over. What the thread that ended it still does, such as unwinding its stack, is a matter of the session
  the machine is part of. -/
  | ended (ending : Ending)
  deriving DecidableEq, Repr

/-- A kernel in the middle of a run. -/
structure Machine (c : Config) where
  kernel : Kernel c
  control : Control
  /-- Where each task goes on, unless it is the one that is running. -/
  suspensions : Table (Suspension c) c.tasks.size
  deriving DecidableEq

/-- A move of the application or of an interrupt handler. -/
inductive Move
  | call (call : Call)
  | beginInterrupt
  /-- Let the timer interrupt tick; a handler may. -/
  | tick
  | endInterrupt
  | stop (ending : Ending)
  deriving DecidableEq, Repr

/-- What a machine does next. -/
inductive Act
  | step
  | move (move : Move)
  deriving DecidableEq, Repr

namespace Machine

variable {c : Config}

open Kernel

/-- Run a critical section, and then go on as `next` says. A section that ends the run ends it here. -/
def run {α : Type} (m : Machine c) (action : Action c α) (next : α → Machine c → Machine c) : Machine c :=
  match action m.kernel with
  | .ok a k => next a { m with kernel := k }
  | .error ending k => { m with kernel := k, control := .ended ending }

def goto (m : Machine c) (control : Control) : Machine c := { m with control := control }

/-- Remember where the thread that holds the processor goes on. -/
def remember (m : Machine c) (suspension : Suspension c) : Machine c :=
  match m.kernel.processor.thread with
  | some task => { m with suspensions := m.suspensions.set task suspension }
  | none => m

/-- Return to the program of the task or, in an interrupt handler, to the handler. -/
def answer (m : Machine c) (value : Value) : Machine c :=
  if m.kernel.processor.context = .interrupt then m.goto .handling else m.goto (.application (some value))

/-- Go on with an operation that got as far as the progress tells. -/
def proceed (progress : Progress c) (m : Machine c) : Machine c :=
  match progress with
  | .done value => m.goto (.leaving (some value))
  | .returned value => m.answer value
  | .dispatch suspension => (m.remember suspension).goto .dispatching
  | .handOver task suspension => (m.remember suspension).run (switchTo task) fun _ m => m.goto .resuming

/-! ## Steps of the kernel -/

/-- Leave a critical section: enable preemption, and go through the dispatcher first if a task switch is due. -/
def leave (m : Machine c) (reply : Option Value) : Machine c :=
  if m.kernel.preemptPending then
    let m := { m with kernel := { m.kernel with preemptDisabled := true, preemptPending := false } }
    (m.remember (.returning reply)).goto .dispatching
  else
    { m with kernel := { m.kernel with preemptDisabled := false } }.goto (.application reply)

/-- Give the processor to the task the dispatcher chose, or let idle time pass if there was none to choose. -/
def dispatch (task : Option c.TaskId) (m : Machine c) : Machine c :=
  match task with
  | none => m.run idle fun _ m => m.goto .dispatching
  | some task =>
    match m.kernel.running with
    | none => m.run (startFirst task) fun _ m => m.goto .resuming
    | some _ => m.run (switchTo task) fun _ m => m.goto .resuming

/-- Go on where a thread was suspended. -/
def resumeAt (m : Machine c) : Suspension c → Machine c
  | .entry => m.goto (.leaving none)
  | .returning reply => m.goto (.leaving reply)
  | .waiting wait => m.run (resume wait) proceed

/-- One step of the kernel. Where it is the turn of the application or of an interrupt handler, nothing happens. -/
def step (m : Machine c) : Machine c :=
  match m.control with
  | .dispatching => m.run settle fun _ m => m.goto .choosing
  | .choosing => m.run (do check; choose) dispatch
  | .resuming =>
    match m.kernel.processor.thread with
    | some task => m.resumeAt m.suspensions[task]
    | none => m.goto (.ended .assertionFailed)
  | .leaving reply => m.leave reply
  | .application _ => m
  | .handling => m
  | .ended _ => m

/-! ## Moves of the application -/

/-- Begin an interrupt handler, which only the program of a task can be interrupted by. -/
def beginInterrupt (m : Machine c) : Machine c :=
  let p := m.kernel.processor
  if p.context ≠ .task ∨ p.masked then m.goto (.ended .assertionFailed)
  else
    { m with kernel := { m.kernel with processor := { p with context := .interrupt } } }.goto .handling

/-- End an interrupt handler, and do the task switch it asked for. -/
def endInterrupt (m : Machine c) : Machine c :=
  let m := { m with kernel := { m.kernel with processor := { m.kernel.processor with context := .task } } }
  m.run servicePreemption fun serviced m =>
    if serviced then m.goto (.leaving (some .unit)) else m.goto (.application (some .unit))

/-- Make a move of the application, if it is the turn of the application or of an interrupt handler. -/
def move (m : Machine c) (move : Move) : Machine c :=
  match m.control with
  | .application _ =>
    match move with
    | .call call => m.run (perform call) proceed
    | .beginInterrupt => m.beginInterrupt
    | .tick => m
    | .endInterrupt => m
    | .stop ending => m.goto (.ended ending)
  | .handling =>
    match move with
    | .call call => m.run (perform call) proceed
    | .beginInterrupt => m.beginInterrupt
    | .tick => m.run deliverTick fun _ m => m
    | .endInterrupt => m.endInterrupt
    | .stop ending => m.goto (.ended ending)
  | _ => m

/-! ## Acts -/

def act (m : Machine c) : Act → Machine c
  | .step => m.step
  | .move move => m.move move

/-! ## Starting -/

/-- The machine before the kernel starts, run by the boot thread. -/
def initial (c : Config) : Machine c where
  kernel := { Kernel.initial c with processor := { context := .boot } }
  control := .dispatching
  suspensions := Table.replicate _ .entry

/-- The machine that has started a configuration, or has refused it. -/
def boot (c : Config) : Machine c := (initial c).run Kernel.boot fun _ m => m.goto .dispatching

end Machine

end Rtos
