import Rtos.Proofs.DeadlockReport
import Rtos.Proofs.Resting

/-!
# Unwinding the report of a deadlock

The report of a deadlock is a panic in the dispatcher, in the middle of the critical section of the task that waits, or
of the start of the kernel. While it unwinds the stack, that section is released, with the interrupts still masked.

* `paused_play`: while the dispatcher is at work, the running task is runnable, or suspended in a wait.
* `due_of_booting`: during the start of the kernel a task switch is due as soon as an idle tick was delivered.
* `Machine.Unwinds`, `unwinds_of_reports`: what comes of the report.
* `told_play`: any other end of a run is what the starter is told.
-/

namespace Rtos
set_option autoImplicit false

variable {c : Config}

namespace Machine
open Kernel

variable {m m' : Machine c} {detour : Prop} {t : c.TaskId} {a : Act} {acts : List Act}

/-! ## The running task -/

/-- While the dispatcher is at work, the running task is runnable, or suspended in a wait. -/
def Paused (m : Machine c) : Prop := (m.control = .dispatching ∨ m.control = .choosing) →
  ∀ t, m.kernel.running = some t → m.kernel.isRunnable t = true ∨ ∃ wait, m.suspensions[t] = .waiting wait

theorem paused_proceed {k l : Kernel c} {mutex : Option c.MutexId} {p : Progress c}
    (executes : k.Executes m.suspensions t detour) (goes : Goes t k mutex p l) :
    (proceed p { m with kernel := l }).Paused := by
  intro _ u running
  rw [kernel_proceed goes, goes.frame.running, executes.owned.running] at running
  obtain rfl := Option.some.inj running
  cases runnable : (proceed p { m with kernel := l }).kernel.isRunnable t with
  | true => exact .inl rfl
  | false =>
    obtain ⟨wait, _, suspended⟩ := parked_proceed executes goes runnable
    exact .inr ⟨wait, suspended⟩

theorem paused_of_executes {k : Kernel c} {suspensions : Table (Suspension c) c.tasks.size}
    (executes : k.Executes suspensions t detour) (hr : m.kernel.running = k.running)
    (runs : m.kernel.isRunnable t = k.isRunnable t) : m.Paused := by
  intro _ u running
  obtain rfl := Option.some.inj ((executes.owned.running.symm.trans hr.symm).trans running)
  exact .inl (runs.trans (executes.owned.waits.active_runnable t rfl))

theorem Transition.paused (h : Transition m detour a m') (orderly : m.Orderly detour) (aimed : c.Aimed)
    (hn : ∀ ending, m'.control ≠ .ended ending) (paused : m.Paused) : m'.Paused := by
  cases h with
  | rests => exact paused
  | stops ending scheduled => exact absurd rfl (hn ending)
  | fails scheduled misplaced => exact absurd rfl (hn _)
  | strays control executes task halts => exact absurd rfl (hn _)
  | @settles l control between settled narrows result =>
    intro _ t running
    have same := ((settle_upset (orderly.dispatching control) aimed).of_result result).1.running
    exact (paused (.inl control) t (same.symm.trans running)).imp_left (narrows.runnable t)
  | idles control between decision idled =>
    obtain ⟨_, _, _, rfl⟩ := idled
    obtain ⟨s, hs, runs⟩ := m.kernel.refresh_eq
    intro _ t running
    rw [hs] at running ⊢
    exact (paused (.inr control) t running).imp_left (runs t).trans
  | wakes control resumes suspended edits takes executes goes result => exact paused_proceed executes goes
  | calls control executes ready unasked call other result goes disabled => exact paused_proceed executes goes
  | preempts control executes context => exact paused_of_executes executes rfl rfl
  | yields control executes ready task => exact paused_of_executes executes rfl rfl
  | dispatches | returns | leaves | yieldsTo | interrupts | raises | services | continues =>
    rintro (he | he) <;> cases he
  | ticks control executes context enabled => exact paused_of_executes executes rfl rfl

theorem thread_boot (c : Config) : (boot c).kernel.processor.thread = none :=
  run_of_ends (P := fun m => m.kernel.processor.thread = none) (boot_judges (.initial c) rfl)
    (fun _ _ hl => hl.2.1.thread)
    fun _ _ hl => hl.2.2.thread

theorem paused_play (acts : List Act) (hn : ∀ ending, (play c acts).control ≠ .ended ending) :
    (play c acts).Paused := by
  induction acts using play_induction with
  | boot =>
    intro _ t running
    have thread := (orderly_play (c := c) []).1.thread hn
    cases (thread_boot c).symm.trans (thread.trans running)
  | act acts a ih =>
    have before := not_ended_of_act hn
    obtain ⟨orderly, timers⟩ := orderly_play (c := c) acts
    exact (orderly.transition timers a).paused orderly (accepted_of_not_ended before).aimed hn (ih before)

/-! ## The start of the kernel -/

/-- During the start of the kernel only the dispatcher is at work. -/
theorem Orderly.dispatcher_of_booting (h : m.Orderly detour) (hn : ∀ ending, m.control ≠ .ended ending)
    (boots : m.kernel.running = none) : m.control = .dispatching ∨ m.control = .choosing := by
  have idle : ∀ t, m.kernel.running ≠ some t := fun t running => by cases boots.symm.trans running
  cases hc : m.control with
  | dispatching => exact .inl rfl
  | choosing => exact .inr rfl
  | resuming =>
    obtain ⟨t, resumes⟩ := h.resuming hc
    exact absurd resumes.running (idle t)
  | leaving reply =>
    obtain ⟨t, running⟩ := h.works (.inr ⟨reply, .inr hc⟩)
    exact absurd running (idle t)
  | application reply =>
    obtain ⟨t, running⟩ := h.works (.inr ⟨reply, .inl hc⟩)
    exact absurd running (idle t)
  | handling =>
    obtain ⟨t, running⟩ := h.works (.inl hc)
    exact absurd running (idle t)
  | ended ending => exact absurd hc (hn ending)

/-- Until the first task is dispatched, a task switch is due as soon as an idle tick was delivered. -/
theorem due_of_booting (acts : List Act) (hn : ∀ ending, (play c acts).control ≠ .ended ending)
    (boots : (play c acts).kernel.running = none) :
    (play c acts).kernel.processor.idleTicks = 0 ∨ (play c acts).kernel.preemptPending = true := by
  induction acts using play_induction with
  | boot =>
    refine .inl ?_
    exact run_of_alive (P := fun m => m.kernel.processor.idleTicks = 0) (boot_accepts rfl rfl) hn fun _ l hl => by
      obtain ⟨ready, hp⟩ := hl.2.1.processor
      exact congrArg Processor.idleTicks hp
  | act acts a ih =>
    have before := not_ended_of_act hn
    have orderly := (orderly_play (c := c) acts).1
    have sane := sane_play acts before
    have nobody : ((play c acts).act a).kernel.processor.thread = none := by
      rw [← play_concat] at hn boots ⊢
      exact ((orderly_play _).1.thread hn).trans boots
    rcases orderly.shifts sane a with same | ⟨t, hands⟩
    · -- Nobody had the processor before either, so the dispatcher was at work.
      have booting := (orderly.thread before).symm.trans ((congrArg Prod.fst same).symm.trans nobody)
      have earlier := ih before booting
      have dispatcher := orderly.dispatcher_of_booting before booting
      cases a with
      | move move =>
        have rests : (play c acts).act (.move move) = play c acts := by
          rcases dispatcher with hc | hc <;> simp only [Machine.act, Machine.move, hc]
        rw [rests]
        exact earlier
      | step =>
        rcases dispatcher with hc | hc
        · cases orderly.settles sane.accepted.aimed hc with
          | overflows many control => exact absurd control (hn _)
          | faults one ending faulty control => exact absurd control (hn _)
          | passes few control now settled processor asked =>
            rw [processor, asked]
            exact earlier
        · cases orderly.chooses sane hc with
          | idles decision control kernel => exact .inr (by rw [kernel]; rfl)
          | dispatches t decision control handed => cases nobody.symm.trans handed.thread
          | starves long control => exact absurd control (hn _)
    · cases nobody.symm.trans hands.thread

/-! ## The result -/

/-- What comes of the report of a deadlock. -/
structure Unwinds (m : Machine c) (a : Act) : Prop where
  /-- The panic leaves a critical section that disables preemption, and the task it belongs to, if any, waits. -/
  leaves : (m.act a).kernel.preemptDisabled = true ∧ ∀ t, m.kernel.running = some t → ∃ wait,
    m.suspensions[t] = .waiting wait
  /-- If no task switch is due, the panic is passed on to the starter. -/
  calm : m.kernel.preemptPending = false → (m.act a).notice? = some starved.notice
  /-- During the start of the kernel, the starter is told of a fatal error that nobody has raised. -/
  boots : m.kernel.running = none → (m.act a).notice? = some (.returned (.fatal .badContext))
  /-- Otherwise the dispatcher is run although interrupts are masked, and its assertion fails. -/
  aborts : ∀ t, m.kernel.running = some t → m.kernel.preemptPending = true →
    (∃ l, release (m.act a).kernel = .error .assertionFailed l) ∧ (m.act a).notice? = some .aborted

theorem wedged_of_reports (reports : (play c acts).Reports a) : (play c acts).Wedged a := by
  obtain ⟨rfl, hc, _⟩ := (reports_iff acts a).mp reports
  exact (orderly_play acts).1.wedged (sane_play acts reports.1) hc reports.2.2

theorem Wedged.reports (h : m.Wedged a) : m.Reports a := by
  refine ⟨fun ending he => ?_, ?_, h.ended⟩
  · cases h.control.symm.trans he
  · rw [h.step]
    exact nofun

theorem unwinds_of_reports (reports : (play c acts).Reports a) : (play c acts).Unwinds a := by
  have wedged := wedged_of_reports reports
  obtain ⟨_, _, nobody, count⟩ := (reports_iff acts a).mp reports
  have between := ((orderly_play (c := c) acts).1.choosing wedged.control).1
  obtain ⟨masked, pending, running⟩ := wedged.leaves
  refine ⟨⟨?_, fun t runs => ?_⟩, wedged.notice?_of_calm between, fun boots => ?_, fun t runs due =>
    ⟨⟨_, release_of_masked (pending.trans due) (running.trans runs) masked⟩,
      wedged.notice?_of_running between due runs⟩⟩
  · rw [wedged.kernel]
    exact between.refresh.disabled
  · refine (paused_play acts reports.1 (.inr wedged.control) t runs).resolve_left fun runnable => ?_
    cases (nobody t).symm.trans runnable
  · refine wedged.notice?_of_booting between ((due_of_booting acts reports.1 boots).resolve_left fun none => ?_) boots
    cases none.symm.trans ((idleTicks_play acts reports.1).1.trans count)

/-- Unless a run ends with the report of a deadlock, its end is what the starter is told. -/
theorem told_play (acts : List Act) (hn : ∀ ending, (play c acts).control ≠ .ended ending) {ending : Ending}
    (ended : ((play c acts).act a).control = .ended ending) (other : ¬ (play c acts).Reports a) :
    ((play c acts).act a).notice? = some ending.notice := by
  refine notice?_of_enabled ended fun message he => ?_
  subst he
  exact (panicked_play hn ended).resolve_right fun wedged => other wedged.reports

end Machine

end Rtos
