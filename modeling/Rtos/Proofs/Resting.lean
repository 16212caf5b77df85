import Rtos.Proofs.Clock
import Rtos.Proofs.Kernel.Retry

/-!
# Tasks at rest

* `Transition.hushed`: a task stops being runnable only by an operation of its own, and gets signals only if it is made
  runnable.
* `Machine.Resting`: a task that is not runnable has never run, or is suspended in a wait that is not over.
* `resting_play`: so it is throughout every run.
-/

namespace Rtos
set_option autoImplicit false

variable {c : Config}

namespace Machine
open Kernel

variable {m m' : Machine c} {t u : c.TaskId} {a : Act} {detour : Prop}

theorem hushed_goes {k l : Kernel c} {mutex : Option c.MutexId} {p : Progress c} (h : k.Owned m.suspensions u detour)
    (hu : u ≠ t) (goes : Goes u k mutex p l) : Hushed t k l := by
  cases goes with
  | done value edits takes => exact h.hushed hu edits
  | stops edits takes stop waits => exact (h.hushed hu edits).trans (hushed_stops (h.edits edits).1.scheduled hu stop)

theorem hushed_refresh (k : Kernel c) : Hushed t k k.refresh := by
  obtain ⟨s, hs, hr⟩ := k.refresh_eq
  rw [hs]
  exact .of_eq hr rfl

/-- Whatever is no operation of the task leaves it runnable, and whoever sends it signals makes it so. -/
theorem Transition.hushed (h : Transition m detour a m') (orderly : m.Orderly detour)
    (hn : ∀ ending, m'.control ≠ .ended ending)
    (ho : ∀ op, m.operation? a = some (t, op) → ∃ task, op = .call (.yieldTo task)) : Hushed t m.kernel m'.kernel := by
  cases h with
  | rests => exact .refl t _
  | stops ending scheduled => exact absurd rfl (hn ending)
  | fails scheduled misplaced => exact absurd rfl (hn _)
  | settles control between settled narrows result =>
    replace orderly := orderly.dispatching control
    exact (settle_hushed orderly).of_result result
  | idles control between decision idled =>
    obtain ⟨_, _, _, rfl⟩ := idled
    exact (hushed_refresh m.kernel).trans (.of_eq (fun _ => rfl) rfl)
  | dispatches control between settled decision handed =>
    obtain ⟨p, rfl⟩ := handed.rest
    exact (hushed_refresh m.kernel).trans (.of_eq (fun _ => rfl) rfl)
  | @wakes u wait es k l p control resumes suspended edits takes executes goes result =>
    have hu : u ≠ t := by
      rintro rfl
      obtain ⟨task, he⟩ := ho _ (operation?_wait control resumes.running suspended)
      cases he
    rw [kernel_proceed goes]
    exact (resumes.owned.hushed hu edits).trans (hushed_goes executes.owned hu goes)
  | @calls u reply p l control executes ready unasked call other result goes disabled =>
    have hu : u ≠ t := by
      rintro rfl
      obtain ⟨task, he⟩ := ho _ (operation?_call control ready.running call)
      cases he
      exact other task rfl
    rw [kernel_proceed goes]
    exact hushed_goes executes.owned hu goes
  | yieldsTo control executes ready task runnable handed =>
    obtain ⟨p, rfl⟩ := handed.rest
    exact .of_eq (fun _ => rfl) rfl
  | strays control executes task halts => exact absurd rfl (hn _)
  | returns | leaves | preempts | yields | interrupts | raises | ticks | services | continues =>
    exact .of_eq (fun _ => rfl) rfl

/-! ## Resting -/

/-- If the task is not runnable, it has never run, or it is suspended in a wait that is not over. -/
def Resting (m : Machine c) (t : c.TaskId) : Prop := m.kernel.isRunnable t = false →
  m.suspensions[t] = .entry ∨ ∃ wait, m.suspensions[t] = .waiting wait ∧ m.kernel.Unmet t wait

/-- Where a task stops being runnable, it is suspended in the wait that its operation has got to. -/
theorem parked_proceed {k l : Kernel c} {mutex : Option c.MutexId} {p : Progress c}
    (executes : k.Executes m.suspensions t detour)
    (goes : Goes t k mutex p l) (blocked : (proceed p { m with kernel := l }).kernel.isRunnable t = false) :
    ∃ wait, p = .dispatch (.waiting wait) ∧ (proceed p { m with kernel := l }).suspensions[t] = .waiting wait := by
  have active : k.isRunnable t = true := executes.owned.waits.active_runnable t rfl
  rw [kernel_proceed goes] at blocked
  cases goes with
  | done value edits takes => cases blocked.symm.trans ((executes.owned.rises edits t).1 active)
  | @stops l n es s edits takes stop waits =>
    have runs := (executes.owned.rises edits t).1 active
    have stopped := congrArg Machine.suspensions
      (proceed_dispatch (m := m) (stop.frame.thread (executes.edits edits).owned.thread) s)
    cases stop with
    | yields => cases blocked.symm.trans runs
    | suspends wait other => exact ⟨wait, rfl, by rw [stopped]; exact Table.getElem_set_self ..⟩
    | awaits r deadline refused => exact ⟨.request r deadline, rfl, by rw [stopped]; exact Table.getElem_set_self ..⟩

/-- What is known of how far operations get is known of the wait in which a task stops being runnable. -/
theorem Orderly.parked (h : m.Orderly detour) (ht : c.tasks.size ≤ c.timerCount) {op : Operation c}
    {P : Progress c → Kernel c → Prop} (ho : m.operation? a = some (t, op)) (hy : ∀ task, op ≠ .call (.yieldTo task))
    (hn : ∀ ending, (m.act a).control ≠ .ended ending)
    (call : ∀ call, m.active = some t → m.kernel.Ready t → Ends (perform call) m.kernel P fun _ _ => True)
    (wait : ∀ wait, m.kernel.running = some t → (∀ x, wait.mutex? = some x → m.kernel.holders[x] ≠ some t) →
      Ends (resume wait) m.kernel P fun _ _ => True)
    (blocked : (m.act a).kernel.isRunnable t = false) :
    ∃ wait, (m.act a).suspensions[t] = .waiting wait ∧ P (.dispatch (.waiting wait)) (m.act a).kernel := by
  obtain ⟨running, ⟨made, reply, rfl, rfl, hc⟩ | ⟨w, rfl, rfl, hc, hs⟩⟩ := operation?_cases ho
  · obtain ⟨executes, ready⟩ := h.program hc running
    rw [act_call hc] at hn blocked ⊢
    refine run_of_alive (P := fun m' => m'.kernel.isRunnable t = false → ∃ wait, m'.suspensions[t] = .waiting wait ∧
      P (.dispatch (.waiting wait)) m'.kernel) ((perform_spec ht ready made fun task he => hy task (he ▸ rfl)).and
        (call made (by simp only [active, hc, running]) ready)) hn (fun p l hl blocked => ?_) blocked
    obtain ⟨wait, rfl, suspended⟩ := parked_proceed executes hl.1.1 blocked
    refine ⟨wait, suspended, ?_⟩
    rw [kernel_proceed hl.1.1]
    exact hl.2
  · have resumes := h.resumes hc running
    rw [act_wait hc (resumes.between.thread.trans running) hs] at hn blocked ⊢
    refine run_of_alive (P := fun m' => m'.kernel.isRunnable t = false → ∃ wait, m'.suspensions[t] = .waiting wait ∧
      P (.dispatch (.waiting wait)) m'.kernel) ((resumes.resume_spec ht hs).and (wait w running (resumes.stranger hs)))
        hn
        (fun p l hl blocked => ?_) blocked
    obtain ⟨⟨es, k, edits, _, idle, _, goes⟩, hp⟩ := hl
    obtain ⟨wait, rfl, suspended⟩ := parked_proceed ⟨(resumes.owned.edits edits).1, idle⟩ goes blocked
    refine ⟨wait, suspended, ?_⟩
    rw [kernel_proceed goes]
    exact hp

theorem resting_of_operation (h : m.Orderly detour) (ht : c.tasks.size ≤ c.timerCount) {op : Operation c}
    (ho : m.operation? a = some (t, op)) (hy : ∀ task, op ≠ .call (.yieldTo task)) (timer : m.TimerOfWait t)
    (hn : ∀ ending, (m.act a).control ≠ .ended ending) : (m.act a).Resting t := by
  intro blocked
  obtain ⟨wait, suspended, parks⟩ := h.parked ht ho hy hn (P := Parks t)
    (fun call active ready => perform_parks ht ready (timer.resolve_right fun waits => waits.1 active) call)
    (fun wait running stranger => resume_parks ht running wait stranger) blocked
  exact .inr ⟨wait, suspended, parks wait rfl⟩

theorem Resting.act (resting : m.Resting t) {n : Nat} (timely : m.Timely n t) (h : m.Orderly detour)
    (ht : c.tasks.size ≤ c.timerCount) (a : Act) (hn : ∀ ending, (m.act a).control ≠ .ended ending) :
    (m.act a).Resting t := by
  rcases m.operates_or_yields_self a t with ⟨op, operation, hy⟩ | others
  · exact resting_of_operation h ht operation hy timely.timer hn
  obtain ⟨id, own⟩ := exists_timeoutTimer ht t
  have transition := h.transition (fun _ => ht) a
  have hushed := transition.hushed h hn others
  intro hr
  -- The task was not runnable before either, so it was suspended, and not about to go on.
  have before := hushed.blocked hr
  have away := h.away (not_ended_of_act hn) before
  rw [(transition.apart hn away).suspension]
  refine (resting before).imp_right fun ⟨wait, suspended, unmet⟩ => ⟨wait, suspended, ?_⟩
  exact unmet.passed own ((h.passed ht timely.wired hn own).2 others) hushed hr

theorem resting_play (full : c.timers.size + c.tasks.size ≤ c.timerEntries) (acts : List Act) (t : c.TaskId)
    (hn : ∀ ending, (play c acts).control ≠ .ended ending) : (play c acts).Resting t := by
  induction acts using play_induction with
  | boot =>
    -- No task has run yet.
    have boot : Ends Kernel.boot (initial c).kernel (fun _ _ => True) fun _ _ => True :=
      ends_of_forall (fun _ _ => trivial) fun _ _ => trivial
    exact run_of_alive (P := fun m => m.Resting t) boot hn fun _ l _ _ => .inl (Table.getElem_replicate ..)
  | act acts a ih =>
    obtain ⟨orderly, timers⟩ := orderly_play (c := c) acts
    have before := not_ended_of_act hn
    exact (ih before).act (timely_play full acts t before) orderly (timers before) a hn

end Machine

end Rtos
