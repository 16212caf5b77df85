import Rtos.Description
import Rtos.Simulation

/-!
# Scenarios

* `Scenario`: a configuration, the scripts of its tasks, and what is to be told about the run.
* `Scenario.play`: the run of a scenario, as an `Outcome`.
* `Scenario.callFromOutside`: how it ends when code that is not run by the processor performs an operation on a system
  that was never started.
-/

namespace Rtos
set_option autoImplicit false

/-- A configuration, the scripts of its tasks, and what is to be told about the run. -/
structure Scenario where
  config : Config
  /-- The script of every task; a task without one has nothing to do. -/
  scripts : List (List Op)
  /-- Whether every event comes with a snapshot. -/
  watched : Bool := false
  /-- Whether the control blocks are described at the end. -/
  described : Bool := false
  /-- Whether the system is started a second time at the end. -/
  restarted : Bool := false

/-- What is to be told about the run of a scenario. -/
structure Outcome where
  ending : Option Ending
  /-- The operations in the order in which they returned. -/
  trace : List Event
  /-- The number of operations each task began. -/
  begun : List Nat
  /-- The descriptions of the control blocks, if they were asked for. -/
  descriptions : Option Descriptions
  /-- How the second start ended, if there was one. -/
  restart : Option Ending

namespace Scenario

/-- The simulation of a scenario at its start. -/
def simulation (s : Scenario) : Simulation s.config :=
  Simulation.boot s.config (Table.ofFn fun task => s.scripts.getD task []) s.watched

/-- Play a scenario to its end. A system that was started once cannot be started again. -/
def play (s : Scenario) : Outcome :=
  let final := s.simulation.run
  { ending := final.ending?
    trace := final.trace.toList
    begun := final.scripts.toList.map (·.begun)
    descriptions := if s.described then some final.machine.kernel.describe else none
    restart := if s.restarted then some .alreadyBooted else none }

/-- Describe the control blocks of a system that was never started. -/
def describe (s : Scenario) : Descriptions := (Kernel.initial s.config).describe

/-- How a fatal error ends code that the processor does not run: there is no run to end yet. -/
def outsideEnding : Ending → Ending
  | .fatal _ => .notBooted
  | .complete => .notBooted
  | ending => ending

/-- How it ends when code that the processor does not run performs an operation before the system was started. Whatever
needs to know the context, or holds interrupts off, asserts that the processor runs it. -/
def callFromOutside (s : Scenario) : Op → Ending
  | .call call =>
    match Kernel.perform call (Kernel.initial s.config) with
    | .ok _ _ => .assertionFailed
    | .error ending _ => outsideEnding ending
  | .tick => .assertionFailed
  | .interrupt _ => .assertionFailed
  | .loop _ _ => .assertionFailed
  | .halt => outsideEnding .complete
  | .abort error => outsideEnding (.fatal error)
  | .panic message => .panic message

end Scenario

end Rtos
