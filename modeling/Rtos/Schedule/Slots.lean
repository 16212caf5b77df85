import Rtos.Error
import Rtos.Table

/-!
# The slots of the ceiling policy

Tasks and mutexes share one row of slots, the most urgent first. A mutex stands right before the task that is its
ceiling. A slot says by which slot it is locked: a runnable task locks its own slot, and a locked mutex is locked by the
slot of its holder, so that scanning the row finds the holder at the ceiling of the mutex.

* `emitSlots`: the slots one by one, in order.
* `SlotTable`: the row of slots, with the place of every task and mutex; `SlotTable.layOut`: the row as it is laid out.
* `SlotTable.next`: the task the scan of the row finds first.
-/

namespace Rtos
set_option autoImplicit false

/-- The object a slot stands for, in a system of `n` tasks and `m` mutexes. -/
inductive SlotOwner (n m : Nat)
  | task (task : Fin n)
  | mutex (mutex : Fin m)
  deriving DecidableEq, Repr

/-! ## The layout -/

section Emission
variable {n m : Nat} {σ : Type}

/-- Emit the next slot. The counter numbers the slots of all tasks. -/
def emitNext (emit : σ → Nat → SlotOwner n m → σ) (s : Nat × σ) (owner : SlotOwner n m) : Nat × σ :=
  (s.1 + 1, emit s.2 s.1 owner)

/-- Emit the mutexes whose ceiling is the given task, and then the task itself. -/
def emitGroup (ceiling : Fin m → Nat) (emit : σ → Nat → SlotOwner n m → σ) (s : Nat × σ) (task : Fin n) : Nat × σ :=
  let mutexes := (List.finRange m).filter fun mutex => ceiling mutex == task.val
  emitNext emit (mutexes.foldl (fun s mutex => emitNext emit s (.mutex mutex)) s) (.task task)

/-- Lay out the slots, task by task, the most urgent one first: call `emit` once for every slot, in the order of their
numbers. -/
def emitSlots (ceiling : Fin m → Nat) (emit : σ → Nat → SlotOwner n m → σ) (start : σ) : σ :=
  ((List.finRange n).foldl (emitGroup ceiling emit) (0, start)).2

end Emission

/-! ## The row -/

/-- The row of slots. -/
structure SlotTable (n m : Nat) where
  /-- What each slot stands for. -/
  owners : Array (SlotOwner n m)
  /-- The slot each slot is locked by. -/
  lockedBy : Array (Option Nat)
  taskSlot : Table Nat n
  mutexSlot : Table Nat m
  deriving DecidableEq

namespace SlotTable

variable {n m : Nat}

/-- The row for a layout: no task is runnable and every mutex is free. -/
def ofLayout (layout : List (SlotOwner n m)) : SlotTable n m where
  owners := layout.toArray
  lockedBy := Array.replicate layout.length none
  taskSlot := Table.ofFn fun task => layout.idxOf (.task task)
  mutexSlot := Table.ofFn fun mutex => layout.idxOf (.mutex mutex)

/-- Append a slot, and note its number as the place of its owner. -/
def place (s : SlotTable n m) (slot : Nat) (owner : SlotOwner n m) : SlotTable n m :=
  let s := { s with owners := s.owners.push owner, lockedBy := s.lockedBy.push none }
  match owner with
  | .task task => { s with taskSlot := s.taskSlot.set task slot }
  | .mutex mutex => { s with mutexSlot := s.mutexSlot.set mutex slot }

/-- The row with a slot for every task, and for every mutex whose ceiling is a task. -/
def layOut (ceiling : Fin m → Nat) : SlotTable n m := emitSlots ceiling place (ofLayout [])

/-- A task is runnable if its slot is locked by itself. -/
def isRunnable (s : SlotTable n m) (task : Fin n) : Bool :=
  s.lockedBy.getD s.taskSlot[task] none == some s.taskSlot[task]

def setRunnable (s : SlotTable n m) (task : Fin n) : SlotTable n m :=
  { s with lockedBy := s.lockedBy.setIfInBounds s.taskSlot[task] (some s.taskSlot[task]) }

def setBlocked (s : SlotTable n m) (task : Fin n) : SlotTable n m :=
  { s with lockedBy := s.lockedBy.setIfInBounds s.taskSlot[task] none }

def lock (s : SlotTable n m) (mutex : Fin m) (task : Fin n) : SlotTable n m :=
  { s with lockedBy := s.lockedBy.setIfInBounds s.mutexSlot[mutex] (some s.taskSlot[task]) }

def unlock (s : SlotTable n m) (mutex : Fin m) : SlotTable n m :=
  { s with lockedBy := s.lockedBy.setIfInBounds s.mutexSlot[mutex] none }

/-- A task may lock the mutexes whose slot lies before its own. -/
def mayLock (s : SlotTable n m) (mutex : Fin m) (task : Fin n) : Bool :=
  s.mutexSlot[mutex] < s.taskSlot[task]

/-- The slot of the runnable task that a slot speaks for: itself, or the holder of a locked mutex. A waiting task, a
free mutex and a mutex whose holder is waiting speak for none. -/
def spokesman? (s : SlotTable n m) (slot : Nat) : Option Nat :=
  match s.lockedBy.getD slot none with
  | none => none
  | some holder =>
    if holder = slot ∨ s.lockedBy.getD holder none = some holder then some holder else none

/-- The task found first when the row is scanned from the most urgent slot on. The slot found has to be the slot of a
task. -/
def next (s : SlotTable n m) : Except FatalError (Option (Fin n)) :=
  match (List.range s.lockedBy.size).findSome? s.spokesman? with
  | none => .ok none
  | some slot =>
    match s.owners[slot]? with
    | some (.task task) => .ok (some task)
    | _ => .error .invariantViolation

end SlotTable

end Rtos
