import Rtos.Proofs.Transition
import Rtos.Showcase

/-!
# No task switch is lost

Whenever the program of a task is at work, outside of interrupt handlers, no task switch is due: nothing is recorded
that the dispatcher has not applied yet, and the policy, if asked, would choose that very task. Only a task that yields
to another one can bring about a different choice, and only until the dispatcher is entered again.

* `Kernel.Undisturbed`: a task is running, and no task switch is due.
* `Transition.misplaced`: a run ends with `badContext` only by a call in an interrupt handler, at the request of the
  application, or by a timer that raises this very error.
* `Machine.application_undisturbed`: the main result.
-/

namespace Rtos
set_option autoImplicit false

variable {c : Config}

namespace Kernel

/-- The task is running, and no task switch is due: none is put off or asked for, and nothing is recorded that would
have to be applied first. -/
structure Undisturbed (k : Kernel c) (t : c.TaskId) : Prop where
  running : k.running = some t
  thread : k.processor.thread = some t
  runnable : k.isRunnable t = true
  enabled : k.preemptDisabled = false
  unasked : k.preemptPending = false
  noEvent : ∀ event : c.EventId, k.raised[event] = false
  noTick : k.pendingTicks = 0

end Kernel

namespace Machine
open Kernel

variable {m m' : Machine c} {detour : Prop}

/-! ## Calls in the wrong place -/

def Misplaced (m : Machine c) : Prop := m.control = .ended (.fatal .badContext)

theorem not_misplaced_proceed {k l : Kernel c} {t : c.TaskId} {mutex : Option c.MutexId} {p : Progress c}
    (hg : Goes t k mutex p l) : ¬ (proceed p { m with kernel := l }).Misplaced := by
  cases hg with
  | done value edits takes => exact fun he => by cases he
  | stops edits takes stop waits => exact fun he => by cases he

/-- A run ends with `badContext` only by a call in an interrupt handler, at the request of the application, or by a
timer that raises this very error. -/
theorem Transition.misplaced {a : Act} (h : Transition m detour a m') (hm : ∀ ending, m.control ≠ .ended ending)
    (he : m'.Misplaced) : m.control = .handling ∨ a = .move (.stop (.fatal .badContext)) ∨
      (m.control = .dispatching ∧ ∃ timer : c.TimerId, m.kernel.timers[timer].effect = .user (.error .badContext)) := by
  cases h with
  | rests => exact absurd he (hm _)
  | stops ending scheduled =>
    cases he
    exact .inr (.inl rfl)
  | fails scheduled misplaced => exact (misplaced (Control.ended.inj he)).imp_right .inr
  | wakes control resumes suspended edits takes executes goes => exact absurd he (not_misplaced_proceed goes)
  | calls control executes ready unasked call other result goes disabled => exact absurd he (not_misplaced_proceed goes)
  | strays control executes task halts => exact absurd (Control.ended.inj he) halts.2
  | ticks control executes context enabled => exact .inl control
  | _ => cases he

/-! ## The main result -/

theorem Orderly.undisturbed {reply : Option Value} (h : m.Orderly detour) (hc : m.control = .application reply) :
    ∃ t, m.kernel.Undisturbed t ∧ m.kernel.Executes m.suspensions t detour ∧ m.kernel.Ready t := by
  obtain ⟨noEvent, noTick⟩ := (hasPending_eq_false_iff m.kernel).mp (h.settled hc)
  obtain ⟨t, executes, ready, unasked⟩ := h.application hc
  exact ⟨t, ⟨executes.owned.running, executes.owned.thread, executes.owned.waits.active_runnable t rfl, ready.enabled,
    unasked, noEvent, noTick⟩, executes, ready⟩

theorem exists_yieldTo_of_detoured {acts : List Act} (h : Detoured c acts) :
    ∃ task, .move (.call (.yieldTo task)) ∈ acts := by
  obtain ⟨before, a, after, rfl, ⟨task, rfl, _⟩, _⟩ := h
  exact ⟨task, by simp⟩

/-- Whatever the tasks do and whenever the interrupts come: while the program of a task is at work, the task is running
and no task switch is due, and the policy would choose that very task. It may choose another one only on a detour, which
begins when a task yields to another one and is over when the dispatcher is entered again. No call of the program ends
the run for being made in the wrong place. -/
theorem application_undisturbed (c : Config) (acts : List Act) :
    (∀ reply, (play c acts).control = .application reply → ∃ t, (play c acts).kernel.Undisturbed t ∧
      (choose (play c acts).kernel = .ok (some t) (play c acts).kernel.refresh ∨ Detoured c acts) ∧
      ((∀ task, .move (.call (.yieldTo task)) ∉ acts) →
        choose (play c acts).kernel = .ok (some t) (play c acts).kernel.refresh)) ∧
    ∀ a, (∀ ending, (play c acts).control ≠ .ended ending) →
      (play c (acts ++ [a])).control = .ended (.fatal .badContext) →
      (play c acts).control = .handling ∨ a = .move (.stop (.fatal .badContext)) ∨
        ((play c acts).control = .dispatching ∧
          ∃ timer : c.TimerId, (play c acts).kernel.timers[timer].effect = .user (.error .badContext)) := by
  obtain ⟨orderly, timers⟩ := orderly_play (c := c) acts
  constructor
  · intro reply hc
    obtain ⟨t, undisturbed, executes, _⟩ := orderly.undisturbed hc
    have chosen : choose (play c acts).kernel = .ok (some t) (play c acts).kernel.refresh ∨ Detoured c acts := by
      rcases executes.owned.decided with hp | hd | hd
      · cases undisturbed.unasked.symm.trans hp
      · exact .inr hd
      · exact .inl (choose_eq executes.owned.scheduled hd)
    refine ⟨t, undisturbed, chosen, fun hy => chosen.resolve_right fun hd => ?_⟩
    obtain ⟨task, htask⟩ := exists_yieldTo_of_detoured hd
    exact hy task htask
  · intro a hm he
    rw [play_concat] at he
    exact (orderly.transition timers a).misplaced hm he

/-- The most urgent task sleeps for a tick, and gets the processor back at the end of the interrupt handler that lets
the timer tick. -/
def sleepAndWake : List Act :=
  [.step, .step, .step, .step, .move (.call (.sleep 1)), .step, .step, .step, .step, .move .beginInterrupt, .move .tick,
    .move .endInterrupt, .step, .step, .step, .step, .step]

theorem application_undisturbed_sleepAndWake :
    (play Showcase.tasksOnly.scenario.config sleepAndWake).control = .application (some .unit) ∧
      ∃ t, (play Showcase.tasksOnly.scenario.config sleepAndWake).kernel.Undisturbed t ∧
        choose (play Showcase.tasksOnly.scenario.config sleepAndWake).kernel =
          .ok (some t) (play Showcase.tasksOnly.scenario.config sleepAndWake).kernel.refresh := by
  have here : (play Showcase.tasksOnly.scenario.config sleepAndWake).control = .application (some .unit) := by
    decide +kernel
  obtain ⟨t, undisturbed, _, chosen⟩ :=
    (application_undisturbed Showcase.tasksOnly.scenario.config sleepAndWake).1 (some .unit) here
  exact ⟨here, t, undisturbed, chosen (by simp [sleepAndWake])⟩

end Machine

end Rtos
