import Rtos.Proofs.Kernel.Alike

/-!
# Steady operations

What the tasks have the kernel do, and what the dispatcher does before it chooses, is steady: in two runs that differ in
whether one task is runnable, it goes the same way.

* `steady_resume`: a task goes on in a wait.
* `steady_perform`: a program makes a call. Only to yield to that one task, or to ask how urgent a task is, may go
  differently (`perform_effectivePriority`).
* `steady_settle`: the dispatcher applies what was recorded.
-/

namespace Rtos
set_option autoImplicit false

variable {c : Config}

namespace Kernel

variable {k l : Kernel c} {t u : c.TaskId} {spurious inStep : Prop}

/-! ## Requests -/

theorem steady_tryLock (step : inStep) (x : c.MutexId) : Steady t spurious inStep (tryLock x) := by
  refine (steady_current step).bind fun u => steady_read (fun _ _ _ _ => rfl) fun k => ?_
  split
  · exact steady_pure _
  · exact Steady.bind (steady_modify fun alike => alike.takeMutex x u) fun _ => steady_pure _

theorem steady_tryWait (s : c.SemaphoreId) : Steady t spurious inStep (tryWait s) := by
  refine steady_read (fun _ _ _ _ => rfl) fun k => steady_ite (steady_pure _) ?_
  exact Steady.bind (steady_change fun _ _ _ _ => rfl) fun _ => steady_pure _

theorem steady_expectDisjoint (message : Buffer) (start size : Nat) :
    Steady t spurious inStep (expectDisjoint message start size : Action c Unit) := by
  unfold expectDisjoint
  exact steady_ite (steady_fail _) (steady_pure _)

theorem steady_tryPut (q : c.QueueId) (message : Buffer) : Steady t spurious inStep (tryPut q message) := by
  refine steady_read (fun _ _ _ _ => rfl) fun k => steady_ite (steady_pure _) ?_
  refine (steady_expectDisjoint _ _ _).bind fun _ => Steady.bind (steady_modify fun alike => alike.copyIn message _)
    fun _ => ?_
  refine Steady.bind (steady_change fun _ _ _ _ => rfl) fun _ => ?_
  exact steady_ite (Steady.bind (steady_modify fun alike => alike.wakeWaiters _) fun _ => steady_pure _) (steady_pure _)

theorem steady_tryGet (q : c.QueueId) (message : Buffer) : Steady t spurious inStep (tryGet q message) := by
  intro k l alike
  have rings : l.rings = k.rings := by
    obtain ⟨_, _, _, rfl, _⟩ := alike.rest
    rfl
  have start : l.slotStart q l.rings[q].head = k.slotStart q k.rings[q].head := by rw [slotStart, slotStart, rings]
  unfold tryGet
  refine Pairs.get ?_
  dsimp only
  refine Pairs.ite (by rw [rings]) (fun _ => ⟨rfl, alike⟩) fun _ => ?_
  obtain ⟨buffer, copied⟩ := alike.copyOut message (k.slotStart q k.rings[q].head)
  rw [start, rings_copyOut, rings_copyOut, rings, buffer]
  refine (steady_expectDisjoint message _ _ alike).bind fun _ _ _ _ _ => ?_
  -- The ring is read before the message is copied, so the rest starts from what was copied.
  refine Pairs.bind (R := fun _ k' _ l' => Alike t spurious inStep k' l') copied fun _ _ _ _ taken => ?_
  refine Steady.bind (steady_change fun _ _ _ _ => rfl) (fun _ => ?_) taken
  exact steady_ite (Steady.bind (steady_modify fun alike => alike.wakeWaiters _) fun _ => steady_pure _) (steady_pure _)

theorem steady_attempt (step : inStep) (r : Request c) : Steady t spurious inStep (attempt r) := by
  cases r with
  | lock x => exact (steady_tryLock step x).bind fun _ => steady_pure _
  | token s => exact (steady_tryWait s).bind fun _ => steady_pure _
  | put q message => exact (steady_tryPut q message).bind fun _ => steady_pure _
  | get q message => exact steady_tryGet q message

/-! ## Waiting -/

theorem steady_armTimeout (u : c.TaskId) (ticks : Ticks) : Steady t spurious inStep (armTimeout u ticks) := by
  refine (steady_timeoutId u).bind fun id => Steady.bind ?_ fun _ => ?_
  · exact steady_change fun _ _ _ _ => rfl
  · exact steady_change fun _ _ _ _ => rfl

theorem steady_suspend (step : inStep) (wait : Wait c) : Steady t spurious inStep (suspend wait) :=
  (steady_current step).bind fun u => Steady.bind (steady_modify fun alike => alike.setBlocked u) fun _ => steady_pure _

theorem steady_await (step : inStep) (r : Request c) (deadline ticks : Option Ticks) :
    Steady t spurious inStep (await r deadline ticks) := by
  refine (steady_current step).bind fun u => Steady.bind (steady_change fun _ _ _ _ => rfl) fun _ =>
    Steady.bind (steady_modify fun alike => alike.noteWaiters r.object) fun _ => ?_
  cases ticks with
  | none => exact steady_suspend step _
  | some ticks => exact (steady_armTimeout u ticks).bind fun _ => steady_suspend step _

theorem steady_pursue (step : inStep) (r : Request c) (deadline : Option Ticks) :
    Steady t spurious inStep (pursue r deadline) := by
  refine (steady_attempt step r).bind fun result => steady_ite (steady_pure _) ?_
  cases deadline with
  | none => exact steady_await step r none none
  | some d =>
    refine steady_read (fun _ _ _ _ => rfl) fun k => ?_
    split
    · exact steady_pure _
    · exact steady_await step r _ _

theorem steady_ask (step : inStep) (r : Request c) (patience : Patience) :
    Steady t spurious inStep (ask r patience) := by
  cases patience with
  | never => exact (steady_attempt step r).bind fun _ => steady_pure _
  | forever => exact steady_pursue step r none
  | upTo timeout => exact steady_read (fun _ _ _ _ => rfl) fun k => steady_pursue step r _

theorem steady_sleepOn (step : inStep) : Steady t spurious inStep (sleepOn : Action c (Progress c)) := by
  refine (steady_current step).bind fun u => steady_read (fun _ _ _ _ => rfl) fun k => ?_
  exact steady_ite (steady_pure _) (steady_suspend step _)

theorem steady_takeSignals (step : inStep) (set : SignalSet) :
    Steady t spurious inStep (takeSignals set : Action c SignalSet) := by
  refine (steady_current step).bind fun u => steady_read (fun _ _ _ _ => rfl) fun k => ?_
  exact Steady.bind (steady_change fun _ _ _ _ => rfl) fun _ => steady_pure _

theorem steady_takeOrWait (step : inStep) (set : SignalSet) :
    Steady t spurious inStep (takeOrWait set : Action c (Progress c)) :=
  (steady_takeSignals step set).bind fun _ => steady_ite (steady_suspend step _) (steady_pure _)

theorem steady_endWait (step : inStep) (r : Request c) (deadline : Option Ticks) :
    Steady t spurious inStep (endWait r deadline) := by
  have erase : ∀ u : c.TaskId, Steady t spurious inStep (do
      modify (·.setWait u none)
      modify (·.noteWaiters r.object) : Action c Unit) := fun u =>
    Steady.bind (steady_change fun _ _ _ _ => rfl) fun _ =>
      steady_modify fun alike => alike.noteWaiters r.object
  refine (steady_current step).bind fun u => steady_ite (Steady.bind ?_ fun _ => erase u) (erase u)
  exact (steady_timeoutId u).bind fun id => steady_change fun _ _ _ _ => rfl

/-- A task that goes on in a wait does the same in both runs. -/
theorem steady_resume (step : inStep) (wait : Wait c) : Steady t spurious inStep (resume wait) := by
  cases wait with
  | block => exact steady_pure _
  | sleep => exact steady_sleepOn step
  | signals set => exact steady_takeOrWait step set
  | request r deadline => exact (steady_endWait step r deadline).bind fun _ => steady_pursue step r deadline

/-! ## Calls -/

theorem steady_expectTimeout (timeout : Ticks) : Steady t spurious inStep (expectTimeout timeout : Action c Unit) := by
  unfold expectTimeout
  exact steady_ite (steady_fail _) (steady_pure _)

theorem steady_expectPatience (patience : Patience) :
    Steady t spurious inStep (expectPatience patience : Action c Unit) := by
  cases patience with
  | upTo timeout => exact steady_expectTimeout timeout
  | _ => exact steady_pure _

theorem steady_recordEvent (event : c.EventId) : Steady t spurious inStep (recordEvent event) := by
  refine steady_mask.bind fun _ => Steady.bind ?_ fun _ => steady_unmask.bind fun _ => steady_requestSwitch
  exact steady_change fun _ _ _ _ => rfl

theorem steady_deliverTick : Steady t spurious inStep (deliverTick : Action c Unit) := by
  refine steady_mask.bind fun _ => Steady.bind ?_ fun _ => steady_unmask.bind fun _ => steady_requestSwitch
  exact steady_change fun _ _ _ _ => rfl

theorem steady_servicePreemption : Steady t spurious inStep (servicePreemption : Action c Bool) := by
  unfold servicePreemption
  refine steady_read (fun _ _ _ _ => rfl) fun k => steady_ite ?_ (steady_pure _)
  exact Steady.entered (steady_pure _)

theorem steady_raise (event : Nat) : Steady t spurious inStep (raise event : Action c (Progress c)) := by
  refine (steady_eventId event).bind fun id => (steady_recordEvent id).bind fun _ k l alike => ?_
  refine Pairs.get (Pairs.ite (by rw [alike.processor.1]) (fun _ => ⟨rfl, alike⟩) fun _ => ?_)
  exact steady_servicePreemption.bind (fun _ => steady_ite (steady_pure _) (steady_pure _)) alike

theorem steady_lock (step : inStep) (mutex : Nat) (patience : Patience) :
    Steady t spurious inStep (lock mutex patience : Action c (Progress c)) := by
  have locks : ∀ (u : c.TaskId) (x : c.MutexId), Steady t spurious inStep (do
      expectMayLock x u
      ask (.lock x) patience) := by
    intro u x
    refine Steady.bind (fun k l alike => ?_) fun _ => steady_ask step _ patience
    exact Pairs.get (Pairs.ite (by rw [alike.mayLock]) (fun _ => rfl) fun _ => ⟨rfl, alike⟩)
  refine (steady_expectPatience patience).bind fun _ => Steady.entered ((steady_current step).bind fun u =>
    (steady_mutexId mutex).bind fun x => steady_ite (Steady.bind ?_ fun _ => locks u x) (locks u x))
  exact steady_read (fun _ _ _ _ => rfl) fun _ => steady_ite (steady_fail _) (steady_pure _)

theorem steady_unlock (step : inStep) (x : c.MutexId) : Steady t spurious inStep (unlock x) := by
  refine (steady_current step).bind fun u => steady_read (fun _ _ _ _ => rfl) fun k => ?_
  have frees : Steady t spurious inStep (do
      modify (·.freeMutex x)
      modify (·.wakeLockers x)
      modify requestSwitch : Action c Unit) :=
    Steady.bind (steady_modify fun alike => alike.freeMutex x) fun _ =>
      Steady.bind (steady_modify fun alike => alike.wakeLockers x) fun _ => steady_requestSwitch
  exact steady_ite ((steady_fail _).bind fun _ => frees) frees

theorem steady_post (s : c.SemaphoreId) : Steady t spurious inStep (post s) := by
  refine steady_read (fun _ _ _ _ => rfl) fun k => ?_
  dsimp only
  split
  · exact steady_fail _
  · refine Steady.bind (steady_change fun _ _ _ _ => rfl) fun _ => ?_
    exact steady_ite (steady_modify fun alike => alike.wakeWaiters _) (steady_pure _)

theorem steady_initMax (s : c.SemaphoreId) (max : UInt32) : Steady t spurious inStep (initMax s max) := by
  refine steady_read (fun _ _ _ _ => rfl) fun k => ?_
  have sets : Steady t spurious inStep (modify (·.setMax s max) : Action c Unit) :=
    steady_change fun _ _ _ _ => rfl
  have fits : Steady t spurious inStep (do
      if max = 0 ∨ k.semaphores[s].value > max then fail .semaphoreMaxInvalid
      modify (·.setMax s max) : Action c Unit) := steady_ite ((steady_fail _).bind fun _ => sets) sets
  exact steady_ite ((steady_fail _).bind fun _ => fits) fits

theorem steady_exchange (step : inStep) (request : c.QueueId → Request c) (queue : Nat) (message : Buffer)
    (patience : Patience) : Steady t spurious inStep (do
      let queue ← queueId queue
      expectMessageSize queue message
      expectPatience patience
      enter
      ask (request queue) patience) := by
  refine (steady_queueId queue).bind fun q => Steady.bind ?_ fun _ => (steady_expectPatience patience).bind fun _ =>
    Steady.entered (steady_ask step _ patience)
  unfold expectMessageSize
  exact steady_ite (steady_fail _) (steady_pure _)

theorem steady_sleep (step : inStep) (ticks : Ticks) :
    Steady t spurious inStep (sleep ticks : Action c (Progress c)) := by
  refine (steady_expectTimeout ticks).bind fun _ => Steady.entered (steady_ite (steady_pure _) ?_)
  exact (steady_current step).bind fun u => (steady_armTimeout u ticks).bind fun _ => steady_sleepOn step

theorem steady_unblock (task : Nat) : Steady t spurious inStep (unblock task : Action c (Progress c)) :=
  Steady.entered ((steady_taskId task).bind fun u => Steady.bind (steady_modify fun alike => alike.makeRunnable u)
    fun _ =>
    steady_requestSwitch.bind fun _ => steady_pure _)

theorem steady_setTimer (timer : Nat) {f : c.TimerId → TimerState c → TimerState c} :
    Steady t spurious inStep (do
      let timer ← timerId timer
      modify (·.modifyTimer timer (f timer))
      return .done .unit : Action c (Progress c)) :=
  (steady_timerId timer).bind fun _ => Steady.bind (steady_change fun _ _ _ _ => rfl) fun _ => steady_pure _

theorem steady_effectivePriority (hp : c.policy ≠ .inheritance) (u : c.TaskId) :
    Steady t spurious inStep (effectivePriority u) := by
  refine Steady.bind (steady_modify fun alike => alike.refresh) fun _ k l alike => Pairs.get ⟨?_, alike⟩
  exact alike.priorityOf hp u

theorem steady_yieldTo {task : Nat} (hy : task = t.val → ¬ spurious) :
    Steady t spurious inStep (yieldTo task : Action c (Progress c)) := by
  refine Steady.entered ?_
  unfold taskId
  split
  · next hi =>
    intro k l alike
    have same : k.isRunnable ⟨task, hi⟩ = l.isRunnable ⟨task, hi⟩ :=
      (alike.runnable ⟨task, hi⟩).resolve_right fun hs => hy (congrArg Fin.val hs.1) hs.2.2.2
    exact Pairs.get (Pairs.ite (by rw [same]) (fun _ => ⟨rfl, alike⟩) fun _ => ⟨rfl, alike⟩)
  · exact fun _ _ _ => rfl

/-- A call of the program goes the same way in both runs, unless it asks whether the one task is runnable or, under the
inheritance policy, how urgent a task is. -/
theorem steady_perform (step : inStep) {call : Call} (hy : call = .yieldTo t → ¬ spurious)
    (hp : ∀ u, call = .effectivePriority u → c.policy ≠ .inheritance) :
    Steady t spurious inStep (perform call : Action c (Progress c)) := by
  cases call with
  | yieldTo u => exact steady_yieldTo fun he => hy (he ▸ rfl)
  | sleep ticks => exact steady_sleep step ticks
  | unblock u | start u => exact steady_unblock u
  | lock mutex patience => exact steady_lock step mutex patience
  | put queue message patience => exact steady_exchange step (.put · message) queue message patience
  | get queue message patience => exact steady_exchange step (.get · message) queue message patience
  | raise event => exact steady_raise event
  | wait semaphore patience =>
    exact (steady_expectPatience patience).bind fun _ => Steady.entered ((steady_semaphoreId semaphore).bind fun s =>
      steady_ask step _ patience)
  | oneShot timer timeout =>
    exact (steady_expectTimeout timeout).bind fun _ => Steady.entered ((steady_timerId timer).bind fun _ =>
      Steady.bind (steady_change fun _ _ _ _ => rfl) fun _ => steady_pure _)
  | currentTask => exact Steady.entered ((steady_current step).bind fun _ => steady_pure _)
  | yield => exact Steady.entered (steady_pure _)
  | block => exact Steady.entered (steady_suspend step _)
  | waitSignals set => exact Steady.entered (steady_takeOrWait step set)
  | pollSignals set => exact Steady.entered ((steady_takeSignals step set).bind fun _ => steady_pure _)
  | peekSignals set =>
    exact Steady.entered ((steady_current step).bind fun _ => steady_read (fun _ _ _ _ => rfl) fun _ => steady_pure _)
  | now => exact Steady.entered (steady_read (fun _ _ _ _ => rfl) fun _ => steady_pure _)
  | effectivePriority u =>
    exact Steady.entered ((steady_taskId u).bind fun v => (steady_effectivePriority (hp u rfl) v).bind
      fun _ => steady_pure _)
  | sendSignals u set =>
    exact Steady.entered ((steady_taskId u).bind
      fun v => Steady.bind (steady_modify fun alike => alike.sendSignals v set)
      fun _ => steady_requestSwitch.bind fun _ => steady_pure _)
  | unlock mutex =>
    exact Steady.entered ((steady_mutexId mutex).bind fun x => (steady_unlock step x).bind fun _ => steady_pure _)
  | holds mutex =>
    exact Steady.entered ((steady_current step).bind fun _ => (steady_mutexId mutex).bind fun _ =>
      steady_read (fun _ _ _ _ => rfl) fun _ => steady_pure _)
  | isLocked mutex =>
    exact Steady.entered ((steady_mutexId mutex).bind fun _ => steady_read (fun _ _ _ _ => rfl) fun _ => steady_pure _)
  | post semaphore =>
    exact Steady.entered ((steady_semaphoreId semaphore).bind fun s => (steady_post s).bind fun _ => steady_pure _)
  | initMax semaphore max =>
    exact Steady.entered ((steady_semaphoreId semaphore).bind fun s => (steady_initMax s max).bind
      fun _ => steady_pure _)
  | tokens semaphore =>
    exact Steady.entered ((steady_semaphoreId semaphore).bind fun _ => steady_read (fun _ _ _ _ => rfl)
      fun _ => steady_pure _)
  | messages queue =>
    exact Steady.entered ((steady_queueId queue).bind fun _ => steady_read (fun _ _ _ _ => rfl) fun _ => steady_pure _)
  | enableTimer timer =>
    exact Steady.entered ((steady_timerId timer).bind fun _ => Steady.bind (steady_change fun _ _ _ _ => rfl)
      fun _ => steady_pure _)
  | disableTimer timer | setReload timer reload | setTimerError timer error =>
    exact Steady.entered (steady_setTimer timer)
  | setTimerSignal timer u set => exact Steady.entered ((steady_taskId u).bind fun _ => steady_setTimer timer)
  | takeOverflow timer =>
    exact Steady.entered ((steady_timerId timer).bind fun _ => steady_read (fun _ _ _ _ => rfl) fun _ =>
      Steady.bind (steady_change fun _ _ _ _ => rfl) fun _ => steady_pure _)
  | ticksToFiring timer =>
    exact Steady.entered ((steady_timerId timer).bind fun _ => steady_read (fun _ _ _ _ => rfl) fun _ => steady_pure _)

/-- How urgent a task is may come out differently, but asking for it does nothing else. -/
theorem perform_effectivePriority (alike : Alike t spurious inStep k l) (task : Nat) :
    Pairs (perform (.effectivePriority task)) k (perform (.effectivePriority task)) l fun p k' q l' =>
      (∃ n m, p = .done (.number n) ∧ q = .done (.number m)) ∧ Alike t spurious inStep k' l' := by
  refine (steady_enter alike).bind fun _ _ _ _ entered => (steady_taskId task entered.2).bind fun u _ v _ found => ?_
  obtain ⟨rfl, found⟩ := found
  exact ⟨⟨_, _, rfl, rfl⟩, found.refresh⟩

/-! ## The dispatcher -/

theorem steady_takePending : Steady t spurious inStep (takePending : Action c (List c.EventId × Nat)) := by
  refine steady_mask.bind fun _ k l alike => Pairs.get ?_
  have raised : l.raisedEvents = k.raisedEvents ∧ l.pendingTicks = k.pendingTicks := by
    obtain ⟨_, _, _, rfl, _⟩ := alike.rest
    exact ⟨rfl, rfl⟩
  rw [raised.1, raised.2]
  have taken := alike.map (f := fun k => { k with raised := Table.replicate _ false, pendingTicks := 0 })
    fun _ _ _ _ => rfl
  refine Pairs.bind (R := fun _ k' _ l' => Alike t spurious inStep k' l') taken fun _ _ _ _ taken => ?_
  exact (steady_unmask.bind fun _ => steady_pure _) taken

theorem steady_applyEvent (event : c.EventId) : Steady t spurious inStep (applyEvent event) := by
  unfold applyEvent
  split
  · exact (steady_taskId _).bind fun u => steady_modify fun alike => alike.makeRunnable u
  · exact (steady_taskId _).bind fun u => steady_modify fun alike => alike.sendSignals u _

theorem steady_fire (id : c.TimerId) : Steady t spurious inStep (fire id) := by
  refine steady_read (fun _ _ _ _ => rfl) fun k => ?_
  split
  · exact steady_pure _
  · next task set _ =>
    refine (steady_taskId task).bind fun u => steady_read (fun _ _ _ _ => rfl) fun k => ?_
    have sends : Steady t spurious inStep (modify (·.sendSignals u set) : Action c Unit) :=
      steady_modify fun alike => alike.sendSignals u set
    exact steady_ite (Steady.bind (steady_change fun _ _ _ _ => rfl) fun _ => sends) sends
  · exact steady_fail _
  · exact steady_modify fun alike => alike.timeOut _

theorem steady_fireIfDue (id : c.TimerId) : Steady t spurious inStep (fireIfDue id) := by
  refine steady_read (fun _ _ _ _ => rfl) fun k => steady_ite ?_ (steady_pure _)
  exact Steady.bind (steady_change fun _ _ _ _ => rfl) fun _ => steady_fire id

theorem steady_applyTicks (ticks : Nat) : Steady t spurious inStep (applyTicks ticks : Action c Unit) := by
  match ticks with
  | 0 => exact steady_pure _
  | 1 => exact Steady.bind (steady_change fun _ _ _ _ => rfl) fun _ => .forM steady_fireIfDue _
  | _ + 2 => exact steady_fail _

/-- What was recorded is applied in the same way in both runs. -/
theorem steady_settle : Steady t spurious inStep (settle : Action c Unit) :=
  steady_takePending.bind fun _ => (Steady.forM steady_applyEvent _).bind fun _ => steady_applyTicks _

end Kernel

end Rtos
