import Rtos.Snapshot

/-!
# Simulations

A simulation runs a machine whose tasks follow scripts, and records every operation that returns.

* `Op`: an entry of a script. All but a loop count as operations.
* `Script`: how far a task has got in its script.
* `Simulation.step`: one step of the machine, or the next move of the script whose turn it is.
* `Simulation.run`: the run of a simulation to its end.
-/

namespace Rtos
set_option autoImplicit false

/-! ## Scripts -/

/-- An entry of a script. -/
inductive Op
  | call (call : Call)
  | tick
  /-- Run the operations as an interrupt handler. -/
  | interrupt (body : List Op)
  /-- Run the operations a number of times. -/
  | loop (count : Nat) (body : List Op)
  | halt
  | abort (error : FatalError)
  | panic (message : String)
  deriving Repr

/-- How far a task has got in its script. -/
structure Script where
  /-- What is left of the script. -/
  todo : List Op
  /-- What is left of the interrupt handler that is running. -/
  handler : List Op := []
  /-- The number of operations begun. -/
  begun : Nat := 0
  /-- The operation that has not returned yet, with its ordinal. -/
  inProgress : Option (Nat × Op) := none

/-- Enter the loops at the head of a list of operations once. -/
def unroll : List Op → Option (List Op)
  | .loop 0 _ :: rest => some rest
  | .loop (count + 1) body :: rest => some (body ++ .loop count body :: rest)
  | _ => none

/-- An operation that has returned. -/
structure Event where
  task : Nat
  /-- The number of operations the task had begun before. -/
  ordinal : Nat
  op : Op
  result : Value
  /-- The bytes of the message buffer the operation returned, if it did. -/
  bytes : List UInt8
  /-- The time, unless the operation was performed by an interrupt handler. -/
  time : Option Ticks
  /-- The state of the system, if it is being watched. -/
  snapshot : Option Snapshot

/-! ## Simulations -/

/-- The number of operations after which a run is cut off. -/
def maxOps : Nat := 3000

/-- A machine whose tasks follow scripts. -/
structure Simulation (c : Config) where
  machine : Machine c
  scripts : Table Script c.tasks.size
  begun : Nat := 0
  watched : Bool
  trace : Array Event := #[]

namespace Simulation

variable {c : Config}

/-- The simulation that starts a configuration with the given scripts. -/
def boot (c : Config) (scripts : Table (List Op) c.tasks.size) (watched : Bool) : Simulation c where
  machine := Machine.boot c
  scripts := Table.ofFn fun task => { todo := scripts[task] }
  watched := watched

def move (s : Simulation c) (move : Move) : Simulation c := { s with machine := s.machine.move move }

def modifyScript (s : Simulation c) (task : c.TaskId) (f : Script → Script) : Simulation c :=
  { s with scripts := s.scripts.set task (f s.scripts[task]) }

def count (s : Simulation c) (task : c.TaskId) : Simulation c :=
  { s.modifyScript task fun script => { script with begun := script.begun + 1 } with begun := s.begun + 1 }

def isOver (s : Simulation c) : Bool := s.begun > maxOps

/-- Record an operation of an interrupt handler. Such operations return nothing but the unit value. -/
def recordHandled (s : Simulation c) (task : c.TaskId) (ordinal : Nat) (op : Op) : Simulation c :=
  match s.machine.control with
  | .handling => { s with trace := s.trace.push ⟨task, ordinal, op, .unit, [], none, none⟩ }
  | _ => s

/-- Record an operation of the program of a task. -/
def recordReturn (s : Simulation c) (task : c.TaskId) (ordinal : Nat) (op : Op) (value : Value) : Simulation c :=
  let k := s.machine.kernel
  let snapshot := if s.watched then some (k.snapshot task) else none
  { s with trace := s.trace.push ⟨task, ordinal, op, value, value.contents k.pool, some k.now, snapshot⟩ }

/-- Perform an operation of the program of a task. -/
def performOp (s : Simulation c) (task : c.TaskId) : Op → Simulation c
  | .call call => s.move (.call call)
  | .tick => ((s.move .beginInterrupt).move .tick).move .endInterrupt
  | .interrupt body => (s.modifyScript task fun script => { script with handler := body }).move .beginInterrupt
  | .loop _ _ => s
  | .halt => s.move (.stop .complete)
  | .abort error => s.move (.stop (.fatal error))
  | .panic message => s.move (.stop (.panic message))

/-- Perform an operation of an interrupt handler. -/
def performHandled (s : Simulation c) : Op → Simulation c
  | .call call => s.move (.call call)
  | .tick => s.move .tick
  | .interrupt _ => s.move .beginInterrupt
  | .loop _ _ => s
  | .halt => s.move (.stop .complete)
  | .abort error => s.move (.stop (.fatal error))
  | .panic message => s.move (.stop (.panic message))

/-- Begin an operation of the program of a task, of which `rest` remains. -/
def beginOp (s : Simulation c) (task : c.TaskId) (op : Op) (rest : List Op) : Simulation c :=
  let ordinal := s.scripts[task].begun
  let s := (s.modifyScript task fun script => { script with todo := rest, inProgress := some (ordinal, op) }).count task
  if s.isOver then s.move (.stop .stepLimit) else s.performOp task op

/-- Let the program of a task make its next move. First of all, the operation that has just returned is recorded. A
program that has run off its end is a fatal error. -/
def advance (s : Simulation c) (task : c.TaskId) (reply : Option Value) : Simulation c :=
  let script := s.scripts[task]
  match script.inProgress, reply with
  | some (ordinal, op), some value =>
    (s.recordReturn task ordinal op value).modifyScript task fun script => { script with inProgress := none }
  | _, _ =>
    match unroll script.todo with
    | some todo => s.modifyScript task fun script => { script with todo := todo }
    | none =>
      match script.todo with
      | [] => s.move (.stop (.fatal .taskReturned))
      | op :: rest => s.beginOp task op rest

/-- Begin an operation of an interrupt handler, of which `rest` remains. -/
def beginHandled (s : Simulation c) (task : c.TaskId) (op : Op) (rest : List Op) : Simulation c :=
  let ordinal := s.scripts[task].begun
  let s := (s.modifyScript task fun script => { script with handler := rest }).count task
  if s.isOver then s.move (.stop .stepLimit) else (s.performHandled op).recordHandled task ordinal op

/-- Let an interrupt handler make its next move. -/
def advanceHandler (s : Simulation c) (task : c.TaskId) : Simulation c :=
  let script := s.scripts[task]
  match unroll script.handler with
  | some handler => s.modifyScript task fun script => { script with handler := handler }
  | none =>
    match script.handler with
    | [] => s.move .endInterrupt
    | op :: rest => s.beginHandled task op rest

/-- One step of a simulation: of the machine, or of the script whose turn it is. -/
def step (s : Simulation c) : Simulation c :=
  match s.machine.control, s.machine.kernel.processor.thread with
  | .application reply, some task => s.advance task reply
  | .handling, some task => s.advanceHandler task
  | _, _ => { s with machine := s.machine.step }

/-- How a simulation ended, if it has. -/
def ending? (s : Simulation c) : Option Ending :=
  match s.machine.control with
  | .ended ending => some ending
  | _ => none

/-- Take steps until the simulation ends, but at most the given number. -/
def runFor : Nat → Simulation c → Simulation c
  | 0, s => s
  | steps + 1, s => if s.ending?.isSome then s else runFor steps s.step

/-- The number of steps a run is given. Between two operations the longest timeouts may pass tick by tick, and each tick
takes a few steps. -/
def patience : Nat := Nat.pow 2 50

def run (s : Simulation c) : Simulation c := runFor patience s

end Simulation

end Rtos
