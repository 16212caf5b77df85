import Mathlib.Logic.Function.Iterate
import Rtos.Proofs.Kernel.Failure
import Rtos.Proofs.Run

/-!
# What an application sees of a run

* `Sight`: what the application can tell when it is its turn.
* `Course`: how the programs of the tasks go on and when interrupts come, depending on what has been seen so far.
* `Account`: a machine together with what the application has seen of it, and `Account.follow`: how it goes on.
* `Account.Tells`: what one account comes to show, another one comes to show as well, unless one of them starves.
-/

namespace Rtos
set_option autoImplicit false

variable {c : Config}

/-- What the application can tell when it is its turn. -/
structure Sight (c : Config) where
  /-- The task whose program is at work, or was interrupted. -/
  task : Option c.TaskId
  /-- Whether it is the turn of an interrupt handler. -/
  handling : Bool
  /-- What the last operation of the program has returned. -/
  told : Option Value
  /-- The bytes of the buffer pool, where messages may lie. -/
  pool : Array UInt8
  time : Ticks
  deriving DecidableEq

/-- How the programs of the tasks go on and when interrupts come, depending on what has been seen so far. -/
abbrev Course (c : Config) := List (Sight c) → Move

/-- What the application sees, if it is its turn. What its last operation has returned may be withheld from it. -/
def Machine.sight? (m : Machine c) (withheld : Bool) : Option (Sight c) :=
  let sight (handling : Bool) (told : Option Value) : Sight c :=
    { task := m.kernel.running, handling := handling, told := told, pool := m.kernel.pool, time := m.kernel.now }
  match m.control with
  | .application reply => some (sight false (if withheld then none else reply))
  | .handling => some (sight true none)
  | _ => none

/-- Whether what the move returns is withheld: under the inheritance policy, how urgent a task is at the moment. A move
that cannot be made leaves it at what it was. -/
def Move.withholds (c : Config) (before : Bool) : Move → Bool
  | .call (.effectivePriority _) => c.policy = .inheritance
  | .tick | .endInterrupt => before
  | _ => false

/-- A machine in the middle of a run, and what the application has seen of it. -/
structure Account (c : Config) where
  machine : Machine c
  seen : List (Sight c) := []
  withheld : Bool := false

namespace Account

/-- The kernel makes a step, or the application has a look and makes its next move. -/
def advance (course : Course c) (a : Account c) : Account c :=
  match a.machine.sight? a.withheld with
  | none => { a with machine := a.machine.act .step }
  | some sight =>
    let move := course (a.seen ++ [sight])
    { machine := a.machine.act (.move move), seen := a.seen ++ [sight], withheld := move.withholds c a.withheld }

/-- The account after a number of steps and moves. -/
def follow (course : Course c) (n : Nat) (a : Account c) : Account c := (advance course)^[n] a

/-- How the run has ended, if it has. -/
def ending? (a : Account c) : Option Ending :=
  match a.machine.control with
  | .ended ending => some ending
  | _ => none

/-- The run has ended with the panic that tells of a deadlock. -/
def Starved (a : Account c) : Prop := a.machine.control = .ended Kernel.starved

/-- What the one account comes to show, the other comes to show as well, unless one of the two runs ends with a
deadlock: the same sights in the same order, and the same ending. -/
def Tells (course : Course c) (a b : Account c) : Prop :=
  ∀ n, (a.follow course n).Starved ∨ ∃ n', (b.follow course n').Starved ∨
    ((b.follow course n').seen = (a.follow course n).seen ∧ (b.follow course n').ending? = (a.follow course n).ending?)

variable {course : Course c} {a b : Account c}

theorem follow_succ (course : Course c) (n : Nat) (a : Account c) :
    a.follow course (n + 1) = (a.follow course n).advance course := Function.iterate_succ_apply' ..

theorem follow_advance (course : Course c) (n : Nat) (a : Account c) :
    (a.advance course).follow course n = a.follow course (n + 1) := (Function.iterate_succ_apply ..).symm

theorem follow_add (course : Course c) (i j : Nat) (a : Account c) :
    a.follow course (i + j) = (a.follow course i).follow course j := by
  rw [Nat.add_comm]
  exact Function.iterate_add_apply ..

theorem advance_of_kernel (h : a.machine.sight? a.withheld = none) :
    a.advance course = { a with machine := a.machine.act .step } := by
  rw [advance, h]

theorem advance_of_sight {sight : Sight c} (h : a.machine.sight? a.withheld = some sight) :
    a.advance course = { machine := a.machine.act (.move (course (a.seen ++ [sight]))), seen := a.seen ++ [sight]
                         withheld := (course (a.seen ++ [sight])).withholds c a.withheld } := by
  rw [advance, h]

end Account

end Rtos
