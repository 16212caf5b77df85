import Rtos.Proofs.Transition
import Rtos.Showcase

/-!
# No wake-up is lost

A task that waits for a request, and that nobody has made runnable, waits for a reason: it is on record as a waiter of
the object, and the object cannot grant the request. The record is what the next change of the object will wake it by.

* `Machine.WaitsJustified`: all of this, spelled out for mutexes, semaphores and queues, and nobody else is on record.
* `Machine.waitsJustified_play`: it holds throughout every run.
-/

namespace Rtos
set_option autoImplicit false

variable {c : Config}

namespace Machine
open Kernel

variable {m : Machine c} {detour : Prop}

/-- Whoever waits for an object without being runnable is on record, and the object cannot grant the request. Nobody is
on record but tasks that are suspended in a wait for the object. -/
structure WaitsJustified (m : Machine c) : Prop where
  lock : ∀ (t : c.TaskId) x deadline, m.suspensions[t] = .waiting (.request (.lock x) deadline) →
    m.kernel.isRunnable t = false →
    m.kernel.tasks[t].wait = some (.mutex x) ∧ ∃ holder, holder ≠ t ∧ m.kernel.holders[x] = some holder
  token : ∀ (t : c.TaskId) s deadline, m.suspensions[t] = .waiting (.request (.token s) deadline) →
    m.kernel.isRunnable t = false →
    m.kernel.tasks[t].wait = some (.semaphore s) ∧ m.kernel.semaphores[s].value = 0
  get : ∀ (t : c.TaskId) q message deadline, m.suspensions[t] = .waiting (.request (.get q message) deadline) →
    m.kernel.isRunnable t = false →
    m.kernel.tasks[t].wait = some (.queue q) ∧ m.kernel.rings[q].count = 0
  put : ∀ (t : c.TaskId) q message deadline, m.suspensions[t] = .waiting (.request (.put q message) deadline) →
    m.kernel.isRunnable t = false →
    m.kernel.tasks[t].wait = some (.queue q) ∧ m.kernel.rings[q].count = capacity q
  active : ∀ t : c.TaskId, m.active = some t → m.kernel.isRunnable t = true ∧ m.kernel.tasks[t].wait = none
  recorded : ∀ (t : c.TaskId) o, m.kernel.tasks[t].wait = some o →
    m.active ≠ some t ∧ ∃ r deadline, m.suspensions[t] = .waiting (.request r deadline) ∧ r.object = o

theorem WaitsJustified.of_waits (h : m.kernel.Waits m.suspensions m.active)
    (hi : ∀ t : c.TaskId, m.active = some t → m.kernel.tasks[t].wait = none) : m.WaitsJustified where
  lock t x deadline hs := h.refused t (.lock x) ⟨deadline, hs⟩
  token t s deadline hs := h.refused t (.token s) ⟨deadline, hs⟩
  get t q message deadline hs := h.refused t (.get q message) ⟨deadline, hs⟩
  put t q message deadline hs := h.refused t (.put q message) ⟨deadline, hs⟩
  active t ht := ⟨h.active_runnable t ht, hi t ht⟩
  recorded t o ho := by
    have ht : m.active ≠ some t := by
      intro ht
      cases (hi t ht).symm.trans ho
    obtain ⟨r, ⟨deadline, hs⟩, hr⟩ := h.recorded t o ht ho
    exact ⟨ht, r, deadline, hs, hr⟩

/-- Whatever the tasks do and whenever the interrupts come, as long as the run is not over: no wake-up is lost. -/
theorem waitsJustified_play (c : Config) (acts : List Act) (h : ∀ ending, (play c acts).control ≠ .ended ending) :
    (play c acts).WaitsJustified := by
  have orderly := (orderly_play (c := c) acts).1
  refine .of_waits (orderly.waits h) fun t ht => ?_
  rcases orderly.between_or_executes h with ⟨ha, _⟩ | ⟨u, ha, executes⟩
  · cases ha.symm.trans ht
  · cases ha.symm.trans ht
    exact executes.idle

/-- The least urgent task locks a mutex and unblocks the most urgent one, which then asks for the same mutex. -/
def contend : List Act :=
  [.step, .step, .step, .step, .move (.call .block), .step, .step, .step, .step, .move (.call (.lock 1 .forever)),
    .step, .move (.call (.unblock 0)), .step, .step, .step, .step, .step, .move (.call (.lock 1 .forever)), .step,
    .step, .step, .step]

/-- The task that waits in the end. -/
def contender : (Showcase.full .strict).scenario.config.TaskId := ⟨0, Showcase.full_tasks_pos⟩

/-- The mutex it waits for. -/
def contended : (Showcase.full .strict).scenario.config.MutexId := ⟨1, by decide⟩

theorem waitsJustified_contend :
    (play (Showcase.full .strict).scenario.config contend).control = .application (some .unit) ∧
      (play (Showcase.full .strict).scenario.config contend).WaitsJustified ∧
      ∃ holder, holder ≠ contender ∧
        (play (Showcase.full .strict).scenario.config contend).kernel.holders[contended] = some holder := by
  have here : (play (Showcase.full .strict).scenario.config contend).control = .application (some .unit) := by
    decide +kernel
  have justified := waitsJustified_play (Showcase.full .strict).scenario.config contend fun ending he => by
    cases here.symm.trans he
  have waiting := justified.lock contender contended none (by decide +kernel) (by decide +kernel)
  exact ⟨here, justified, waiting.2⟩

end Machine

end Rtos
