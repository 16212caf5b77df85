import Rtos.Proofs.Sanity
import Rtos.Showcase

/-!
# Rejected calls

A call that is rejected leaves the system as it found it: whatever the kernel has computed by then, it has not stored
yet.

* `rejected_of_ended`: where a critical section rejects what it was asked for, or else the run goes on.
* `Machine.rejected_call_changes_nothing`: the main result, for programs and interrupt handlers.
-/

namespace Rtos
set_option autoImplicit false

variable {c : Config}

namespace Machine
open Kernel

variable {m : Machine c}

/-- If a critical section rejects what it was asked for or else lets the run go on, then the end of the run is a
rejection. -/
theorem rejected_of_ended {errors : List FatalError} {action : Action c (Progress c)} {ending : Ending}
    (h : Ends action m.kernel (fun p l => (proceed p { m with kernel := l }).Lives) (Rejected errors m.kernel))
    (ended : (m.run action proceed).control = .ended ending) : (∃ error ∈ errors, ending = .fatal error) ∧
      ∃ disabled, m.run action proceed =
        { m with kernel := { m.kernel with preemptDisabled := disabled }, control := .ended ending } := by
  refine run_of_ends (P := fun m' => m'.control = .ended ending → (∃ error ∈ errors, ending = .fatal error) ∧
    ∃ disabled, m' = { m with kernel := { m.kernel with preemptDisabled := disabled }, control := .ended ending })
    h (fun p l lives he => absurd he (lives.1 ending)) (fun ending' l rejected he => ?_) ended
  obtain rfl : ending' = ending := Control.ended.inj he
  obtain ⟨disabled, rfl⟩ := rejected.unchanged
  exact ⟨rejected.error, disabled, rfl⟩

/-- If a call ends the run, the kernel has rejected it with one of the errors of the call, or because an interrupt
handler must not make it. The whole machine, from the signals to the suspended operations and the processor, is as it
was before the call, except that preemption may have been disabled. -/
theorem rejected_call_changes_nothing (c : Config) (acts : List Act) (call : Call)
    (alive : ∀ ending, (play c acts).control ≠ .ended ending) (ending : Ending)
    (ended : (play c (acts ++ [.move (.call call)])).control = .ended ending) :
    (∃ error, ending = .fatal error ∧ (error ∈ call.errors ∨ error = .badContext ∧ (play c acts).control = .handling)) ∧
      ∃ disabled, play c (acts ++ [.move (.call call)]) = { play c acts with
        kernel := { (play c acts).kernel with preemptDisabled := disabled }
        control := .ended ending } := by
  obtain ⟨orderly, -⟩ := orderly_play (c := c) acts
  have sane := sane_play acts alive
  rw [play_concat] at ended ⊢
  cases hc : (play c acts).control with
  | application reply =>
    rw [act_call hc] at ended ⊢
    obtain ⟨⟨error, listed, he⟩, unchanged⟩ := rejected_of_ended (orderly.answers_program sane hc call) ended
    exact ⟨⟨error, he, .inl listed⟩, unchanged⟩
  | handling =>
    have performs : (play c acts).act (.move (.call call)) = (play c acts).run (perform call) proceed := by
      simp only [act, move, hc]
    rw [performs] at ended ⊢
    obtain ⟨⟨error, listed, he⟩, unchanged⟩ := rejected_of_ended (orderly.answers_handler hc sane.manned call) ended
    exact ⟨⟨error, he, (List.mem_cons.mp listed).symm.imp_right fun misplaced => ⟨misplaced, rfl⟩⟩, unchanged⟩
  | ended before => exact absurd hc (alive before)
  | dispatching | choosing | resuming | leaving reply =>
    -- It is not the turn of the application, so nothing happens.
    have rests : (play c acts).act (.move (.call call)) = play c acts := by simp only [act, move, hc]
    rw [rests] at ended
    exact absurd ended (alive ending)

/-- The most urgent task has put a message. -/
def putOnce : List Act := [.step, .step, .step, .step, .move (.call (.put 0 (.own [1, 2]) .never)), .step]

/-- The message is to be fetched into a buffer that begins in the middle of it: it stays where it is. -/
theorem rejected_call_changes_nothing_putOnce :
    (play (Showcase.full .strict).scenario.config putOnce).control = .application (some (.bool true)) ∧
      (play (Showcase.full .strict).scenario.config
        (putOnce ++ [.move (.call (.get 0 (.pooled 1 2) .forever))])).control =
        .ended (.fatal .messageBufferOverlap) ∧
      ∃ disabled,
        play (Showcase.full .strict).scenario.config (putOnce ++ [.move (.call (.get 0 (.pooled 1 2) .forever))]) =
        { play (Showcase.full .strict).scenario.config putOnce with
          kernel := { (play (Showcase.full .strict).scenario.config putOnce).kernel with preemptDisabled := disabled }
          control := .ended (.fatal .messageBufferOverlap) } := by
  have here : (play (Showcase.full .strict).scenario.config putOnce).control = .application (some (.bool true)) := by
    decide +kernel
  have ended : (play (Showcase.full .strict).scenario.config
      (putOnce ++ [.move (.call (.get 0 (.pooled 1 2) .forever))])).control =
        .ended (.fatal .messageBufferOverlap) := by
    decide +kernel
  have rejected :=
    rejected_call_changes_nothing (Showcase.full .strict).scenario.config putOnce (.get 0 (.pooled 1 2) .forever)
    (fun ending he => by cases here.symm.trans he) _ ended
  exact ⟨here, ended, rejected.2⟩

end Machine

end Rtos
