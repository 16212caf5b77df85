import Rtos.Proofs.Kernel.Boot
import Rtos.Proofs.Kernel.Mirror

/-!
# Mirrored operations

What the tasks have the kernel do, and what the dispatcher does but for its choice, goes the same way under two
policies.

* `mirrored_resume`: a task goes on in a wait.
* `mirrored_perform`: a program makes a call, but for one that asks how urgent a task is.
* `mirrored_settle`, `mirrored_idle`: the dispatcher applies what was recorded, and lets time pass while there is nobody
  to choose.
* `mirrors_boot`: the kernel starts in the same way under both policies.
-/

namespace Rtos
set_option autoImplicit false

variable {c : Config} {p : Policy}

namespace Kernel

variable {k : Kernel c} {l : Kernel (c.under p)}

/-! ## Requests -/

theorem mirrored_tryLock (x : c.MutexId) : Mirrored id (tryLock x) (tryLock x : Action (c.under p) Bool) := by
  unfold tryLock
  refine Mirrored.bind mirrored_current fun t => mirrored_read fun k s => ?_
  have same : (k.recast s).holders = k.holders := rfl
  rw [same]
  cases k.holders[x] with
  | some holder => exact mirrored_pure _
  | none => exact (mirrored_modify fun mirrors => mirrors.takeMutex x t).bind fun _ => mirrored_pure _

theorem mirrored_tryWait (i : c.SemaphoreId) : Mirrored id (tryWait i) (tryWait i : Action (c.under p) Bool) := by
  refine mirrored_read fun k s => mirrored_ite Iff.rfl (mirrored_pure _) ?_
  exact Mirrored.bind (mirrored_change (fun _ _ => rfl) fun _ => rfl) fun _ => mirrored_pure _

theorem mirrored_expectDisjoint (message : Buffer) (start size : Nat) :
    Mirrored id (expectDisjoint message start size : Action c Unit)
    (expectDisjoint message start size : Action (c.under p) Unit) := by
  unfold expectDisjoint
  exact mirrored_ite Iff.rfl (mirrored_fail _) (mirrored_pure _)

theorem mirrored_tryPut (q : c.QueueId) (message : Buffer) :
    Mirrored id (tryPut q message) (tryPut q message : Action (c.under p) Bool) := by
  refine mirrored_read fun k s => mirrored_ite Iff.rfl (mirrored_pure _) ?_
  refine Mirrored.bind (mirrored_expectDisjoint message _ _) fun _ =>
    Mirrored.bind (mirrored_modify fun mirrors => mirrors.copyIn message _) fun _ => ?_
  refine Mirrored.bind ?_ fun _ => mirrored_ite Iff.rfl ?_ (mirrored_pure _)
  · exact mirrored_change (fun _ _ => rfl) fun _ => rfl
  · exact Mirrored.bind (mirrored_modify fun mirrors => mirrors.wakeWaiters (.queue q)) fun _ => mirrored_pure _

theorem mirrored_tryGet (q : c.QueueId) (message : Buffer) :
    Mirrored id (tryGet q message) (tryGet q message : Action (c.under p) (Bool × Buffer)) := by
  intro k l mirrors
  have rings : l.rings = k.rings := congrArg Kernel.rings mirrors.same
  have start : l.slotStart q l.rings[q].head = k.slotStart q k.rings[q].head := by
    rw [slotStart, slotStart, rings]
    rfl
  unfold tryGet
  refine Pairs.get ?_
  dsimp only
  refine Pairs.ite (by rw [rings]) (fun _ => ⟨rfl, mirrors⟩) fun _ => ?_
  obtain ⟨buffer, copied⟩ := mirrors.copyOut message (k.slotStart q k.rings[q].head)
  rw [start, rings_copyOut, rings_copyOut, rings, buffer]
  refine (mirrored_expectDisjoint message _ _ mirrors).bind fun _ _ _ _ _ => ?_
  have pops : Mirrored id (modify (·.popped q) : Action c PUnit) (modify (·.popped q) : Action (c.under p) PUnit) :=
    mirrored_change (fun _ _ => rfl) fun _ => rfl
  -- The ring is read before the message is copied, so the rest starts from what was copied.
  refine Mirrored.fromState (Mirrored.bind pops fun _ => mirrored_ite Iff.rfl ?_ (mirrored_pure _)) copied
  exact Mirrored.bind (mirrored_modify fun mirrors => mirrors.wakeWaiters (.queue q)) fun _ => mirrored_pure _

theorem mirrored_attempt (r : Request c) : Mirrored id (attempt r) (attempt (r.recast p)) := by
  cases r with
  | lock x => exact Mirrored.bind (mirrored_tryLock x) fun _ => mirrored_pure _
  | token i => exact Mirrored.bind (mirrored_tryWait i) fun _ => mirrored_pure _
  | put q message => exact Mirrored.bind (mirrored_tryPut q message) fun _ => mirrored_pure _
  | get q message => exact mirrored_tryGet q message

/-! ## Waiting -/

theorem mirrored_armTimeout (t : c.TaskId) (ticks : Ticks) :
    Mirrored id (armTimeout t ticks) (armTimeout t ticks : Action (c.under p) Unit) := by
  unfold armTimeout
  refine Mirrored.bindTo (mirrored_timeoutId t) fun timer => Mirrored.bind ?_ fun _ => ?_
  · exact mirrored_modify fun mirrors => mirrors.modifyTask t fun _ => rfl
  · exact mirrored_change (fun k s => k.modifyTimer_recast s timer fun _ => rfl) fun _ => rfl

theorem mirrored_suspend (wait : Wait c) : Mirrored (Progress.recast p) (suspend wait) (suspend (wait.recast p)) := by
  unfold suspend
  exact Mirrored.bind mirrored_current fun t => Mirrored.bind (mirrored_modify fun mirrors => mirrors.setBlocked t)
    fun _ =>
    mirrored_dispatch (.waiting wait)

theorem mirrored_await (r : Request c) (deadline ticks : Option Ticks) :
    Mirrored (Progress.recast p) (await r deadline ticks) (await (r.recast p) deadline ticks) := by
  unfold await
  rw [r.object_recast]
  refine Mirrored.bind mirrored_current fun t => Mirrored.bind ?_ fun _ => Mirrored.bind ?_ fun _ => ?_
  · exact mirrored_modify fun mirrors => mirrors.setWait t (some r.object)
  · exact mirrored_modify fun mirrors => mirrors.noteWaiters r.object
  · cases ticks with
    | none => exact mirrored_suspend (.request r deadline)
    | some ticks => exact Mirrored.bind (mirrored_armTimeout t ticks) fun _ => mirrored_suspend (.request r deadline)

theorem reply_recast (r : Request c) (canFail granted : Bool) (message : Buffer) :
    reply (r.recast p) canFail granted message = reply r canFail granted message := by
  cases r <;> rfl

theorem mirrored_reply (r : Request c) (canFail granted : Bool) (message : Buffer) :
    Mirrored (Progress.recast p) (pure (.done (reply r canFail granted message)) : Action c (Progress c))
      (pure (.done (reply (r.recast p) canFail granted message)) : Action (c.under p) (Progress (c.under p))) := by
  rw [reply_recast]
  exact mirrored_done _

theorem mirrored_pursue (r : Request c) (deadline : Option Ticks) :
    Mirrored (Progress.recast p) (pursue r deadline) (pursue (r.recast p) deadline) := by
  unfold pursue
  refine Mirrored.bind (mirrored_attempt r) fun result => mirrored_ite Iff.rfl (mirrored_reply ..) ?_
  cases deadline with
  | none => exact mirrored_await r none none
  | some d =>
    refine mirrored_read fun k s => ?_
    have same : (k.recast s).now = k.now := rfl
    rw [same]
    cases remaining? k.now d with
    | none => exact mirrored_reply ..
    | some ticks => exact mirrored_await r (some d) (some ticks)

theorem mirrored_ask (r : Request c) (patience : Patience) :
    Mirrored (Progress.recast p) (ask r patience) (ask (r.recast p) patience) := by
  cases patience with
  | never => exact Mirrored.bind (mirrored_attempt r) fun _ => mirrored_reply ..
  | forever => exact mirrored_pursue r none
  | upTo timeout => exact mirrored_read fun k s => mirrored_pursue r _

theorem mirrored_sleepOn :
    Mirrored (Progress.recast p) (sleepOn : Action c (Progress c))
    (sleepOn : Action (c.under p) (Progress (c.under p))) := by
  unfold sleepOn
  refine Mirrored.bind mirrored_current fun t => mirrored_read fun k s => ?_
  rw [k.task_recast]
  exact mirrored_ite Iff.rfl (mirrored_done .unit) (mirrored_suspend .sleep)

theorem mirrored_takeSignals (set : SignalSet) :
    Mirrored id (takeSignals set : Action c SignalSet) (takeSignals set : Action (c.under p) SignalSet) := by
  unfold takeSignals
  refine Mirrored.bind mirrored_current fun t => mirrored_read fun k s => ?_
  rw [k.pendingSignals_recast]
  refine Mirrored.bind ?_ fun _ => mirrored_pure _
  exact mirrored_modify fun mirrors => mirrors.modifyTask t fun _ => rfl

theorem mirrored_takeOrWait (set : SignalSet) : Mirrored (Progress.recast p) (takeOrWait set : Action c (Progress c))
    (takeOrWait set : Action (c.under p) (Progress (c.under p))) := by
  unfold takeOrWait
  refine Mirrored.bind (mirrored_takeSignals set) fun received => ?_
  exact mirrored_ite Iff.rfl (mirrored_suspend (.signals set)) (mirrored_done (.number received.toNat))

theorem mirrored_endWait (r : Request c) (deadline : Option Ticks) :
    Mirrored id (endWait r deadline) (endWait (r.recast p) deadline) := by
  have erase : ∀ t : c.TaskId, Mirrored id (do
      modify (·.setWait t none)
      modify (·.noteWaiters r.object) : Action c Unit) (do
      modify (·.setWait t none)
      modify (·.noteWaiters (r.object.recast p)) : Action (c.under p) Unit) := fun t =>
    Mirrored.bind (mirrored_modify fun mirrors => mirrors.setWait t none) fun _ =>
      mirrored_modify fun mirrors => mirrors.noteWaiters r.object
  unfold endWait
  rw [r.object_recast]
  refine Mirrored.bind mirrored_current fun t => mirrored_ite Iff.rfl (Mirrored.bind ?_ fun _ => erase t) (erase t)
  unfold disarmTimeout
  refine Mirrored.bindTo (mirrored_timeoutId t) fun timer => ?_
  exact mirrored_modify fun mirrors => mirrors.modifyTimer timer fun _ => rfl

/-- A task goes on in a wait in the same way under both policies. -/
theorem mirrored_resume (wait : Wait c) : Mirrored (Progress.recast p) (resume wait) (resume (wait.recast p)) := by
  cases wait with
  | block => exact mirrored_done .unit
  | sleep => exact mirrored_sleepOn
  | signals set => exact mirrored_takeOrWait set
  | request r deadline => exact Mirrored.bind (mirrored_endWait r deadline) fun _ => mirrored_pursue r deadline

/-! ## Calls -/

theorem mirrored_returned (value : Value) :
    Mirrored (Progress.recast p) (pure (.returned value) : Action c (Progress c))
    (pure (.returned value) : Action (c.under p) (Progress (c.under p))) := mirrored_pure (Progress.returned value)

theorem mirrored_expectTimeout (timeout : Ticks) :
    Mirrored id (expectTimeout timeout : Action c Unit) (expectTimeout timeout : Action (c.under p) Unit) := by
  unfold expectTimeout
  exact mirrored_ite Iff.rfl (mirrored_fail _) (mirrored_pure _)

theorem mirrored_expectPatience (patience : Patience) :
    Mirrored id (expectPatience patience : Action c Unit) (expectPatience patience : Action (c.under p) Unit) := by
  cases patience with
  | upTo timeout => exact mirrored_expectTimeout timeout
  | _ => exact mirrored_pure _

theorem mirrored_recordEvent (event : c.EventId) :
    Mirrored id (recordEvent event) (recordEvent event : Action (c.under p) Unit) := by
  unfold recordEvent
  refine Mirrored.bind mirrored_mask fun _ => Mirrored.bind ?_ fun _ => Mirrored.bind mirrored_unmask
    fun _ => mirrored_requestSwitch
  exact mirrored_change (fun _ _ => rfl) fun _ => rfl

theorem mirrored_deliverTick : Mirrored id (deliverTick : Action c Unit) (deliverTick : Action (c.under p) Unit) := by
  unfold deliverTick
  refine Mirrored.bind mirrored_mask fun _ => Mirrored.bind ?_ fun _ => Mirrored.bind mirrored_unmask
    fun _ => mirrored_requestSwitch
  exact mirrored_change (fun _ _ => rfl) fun _ => rfl

theorem mirrored_servicePreemption :
    Mirrored id (servicePreemption : Action c Bool) (servicePreemption : Action (c.under p) Bool) := by
  unfold servicePreemption
  exact mirrored_read fun k s => mirrored_ite Iff.rfl (Mirrored.entered (mirrored_pure _)) (mirrored_pure _)

theorem mirrored_raise (event : Nat) : Mirrored (Progress.recast p) (raise event : Action c (Progress c))
    (raise event : Action (c.under p) (Progress (c.under p))) := by
  unfold raise
  refine Mirrored.bind (mirrored_eventId event) fun id => Mirrored.bind (mirrored_recordEvent id) fun _ => ?_
  refine mirrored_read fun k s => mirrored_ite Iff.rfl (mirrored_returned .unit) ?_
  exact Mirrored.bind mirrored_servicePreemption
    fun _ => mirrored_ite Iff.rfl (mirrored_done .unit) (mirrored_returned .unit)

/-- Where the ceiling protocol does not act, both policies let a task lock what it wants. -/
theorem mirrored_expectMayLock (hc : c.Unguarded) (hp : (c.under p).Unguarded) (x : c.MutexId) (t : c.TaskId) :
    Mirrored id (expectMayLock x t) (expectMayLock x t : Action (c.under p) Unit) := by
  intro k l mirrors
  have may := mayLock_of_unguarded hc mirrors.fits x t
  have may' : l.mayLock x t = true := mayLock_of_unguarded hp mirrors.fits' x t
  refine Pairs.get (Pairs.ite (by rw [may, may']) (fun _ => rfl) fun _ => ⟨rfl, mirrors⟩)

theorem mirrored_lock (hc : c.Unguarded) (hp : (c.under p).Unguarded) (mutex : Nat) (patience : Patience) :
    Mirrored (Progress.recast p) (lock mutex patience : Action c (Progress c))
      (lock mutex patience : Action (c.under p) (Progress (c.under p))) := by
  have locks : ∀ (t : c.TaskId) (x : c.MutexId), Mirrored (Progress.recast p) (do
      expectMayLock x t
      ask (.lock x) patience : Action c (Progress c)) (do
      expectMayLock x t
      ask (.lock x) patience : Action (c.under p) (Progress (c.under p))) := fun t x =>
    Mirrored.bind (mirrored_expectMayLock hc hp x t) fun _ => mirrored_ask (.lock x) patience
  unfold lock
  refine Mirrored.bind (mirrored_expectPatience patience)
    fun _ => Mirrored.entered (Mirrored.bind mirrored_current fun t =>
    Mirrored.bind (mirrored_mutexId mutex)
      fun x => mirrored_ite Iff.rfl (Mirrored.bind ?_ fun _ => locks t x) (locks t x))
  unfold expectNotHolder
  exact mirrored_read fun k s => mirrored_ite Iff.rfl (mirrored_fail _) (mirrored_pure _)

theorem mirrored_unlock (x : c.MutexId) : Mirrored id (unlock x) (unlock x : Action (c.under p) Unit) := by
  have frees : Mirrored id (do
      modify (·.freeMutex x)
      modify (·.wakeLockers x)
      modify requestSwitch : Action c Unit) (do
      modify (·.freeMutex x)
      modify (·.wakeLockers x)
      modify requestSwitch : Action (c.under p) Unit) :=
    Mirrored.bind (mirrored_modify fun mirrors => mirrors.freeMutex x) fun _ =>
      Mirrored.bind (mirrored_modify fun mirrors => mirrors.wakeLockers x) fun _ => mirrored_requestSwitch
  unfold unlock
  refine Mirrored.bind mirrored_current fun t => mirrored_read fun k s => ?_
  exact Mirrored.unless Iff.rfl _ frees

theorem mirrored_post (i : c.SemaphoreId) : Mirrored id (post i) (post i : Action (c.under p) Unit) := by
  unfold post
  refine mirrored_read fun k s => ?_
  have same : (k.recast s).semaphores = k.semaphores := rfl
  rw [same]
  dsimp only
  cases SemaphoreState.posted? k.semaphores[i] with
  | none => exact mirrored_fail _
  | some value =>
    refine Mirrored.bind ?_ fun _ => mirrored_ite Iff.rfl ?_ (mirrored_pure _)
    · exact mirrored_change (fun _ _ => rfl) fun _ => rfl
    · exact mirrored_modify fun mirrors => mirrors.wakeWaiters (.semaphore i)

theorem mirrored_initMax (i : c.SemaphoreId) (max : UInt32) :
    Mirrored id (initMax i max) (initMax i max : Action (c.under p) Unit) := by
  unfold initMax
  refine mirrored_read fun k s => ?_
  have sets : Mirrored id (modify (·.setMax i max) : Action c Unit)
      (modify (·.setMax i max) : Action (c.under p) Unit) :=
    mirrored_change (fun _ _ => rfl) fun _ => rfl
  have fits : Mirrored id (do
      if max = 0 ∨ k.semaphores[i].value > max then fail .semaphoreMaxInvalid
      modify (·.setMax i max) : Action c Unit) (do
      if max = 0 ∨ (k.recast s).semaphores[i].value > max then fail .semaphoreMaxInvalid
      modify (·.setMax i max) : Action (c.under p) Unit) :=
    Mirrored.unless Iff.rfl _ sets
  exact Mirrored.unless Iff.rfl _ fits

theorem mirrored_exchange (request : c.QueueId → Request c) (queue : Nat) (message : Buffer) (patience : Patience) :
    Mirrored (Progress.recast p) (do
      let queue ← queueId queue
      expectMessageSize queue message
      expectPatience patience
      enter
      ask (request queue) patience : Action c (Progress c)) (do
      let queue : c.QueueId ← queueId queue
      expectMessageSize queue message
      expectPatience patience
      enter
      ask ((request queue).recast p) patience : Action (c.under p) (Progress (c.under p))) := by
  refine Mirrored.bind (mirrored_queueId queue) fun q => Mirrored.bind ?_
    fun _ => Mirrored.bind (mirrored_expectPatience patience)
    fun _ => Mirrored.entered (mirrored_ask (request q) patience)
  unfold expectMessageSize
  exact mirrored_ite Iff.rfl (mirrored_fail _) (mirrored_pure _)

theorem mirrored_sleep (ticks : Ticks) : Mirrored (Progress.recast p) (sleep ticks : Action c (Progress c))
    (sleep ticks : Action (c.under p) (Progress (c.under p))) := by
  unfold sleep
  refine Mirrored.bind (mirrored_expectTimeout ticks) fun _ => Mirrored.entered (mirrored_ite Iff.rfl ?_ ?_)
  · exact mirrored_dispatch (.returning (some .unit))
  · exact Mirrored.bind mirrored_current fun t => Mirrored.bind (mirrored_armTimeout t ticks) fun _ => mirrored_sleepOn

theorem mirrored_unblock (task : Nat) : Mirrored (Progress.recast p) (unblock task : Action c (Progress c))
    (unblock task : Action (c.under p) (Progress (c.under p))) := by
  unfold unblock
  refine Mirrored.entered (Mirrored.bind (mirrored_taskId task) fun t => Mirrored.bind ?_ fun _ =>
    Mirrored.bind mirrored_requestSwitch fun _ => mirrored_done .unit)
  exact mirrored_modify fun mirrors => mirrors.makeRunnable t

theorem mirrored_yieldTo (task : Nat) : Mirrored (Progress.recast p) (yieldTo task : Action c (Progress c))
    (yieldTo task : Action (c.under p) (Progress (c.under p))) := by
  unfold yieldTo
  refine Mirrored.entered (Mirrored.bind (mirrored_taskId task) fun t k l mirrors => ?_)
  have same : l.isRunnable t = k.isRunnable t := mirrors.runnable t
  exact Pairs.get (Pairs.ite (by rw [same]) (fun _ => ⟨rfl, mirrors⟩) fun _ => ⟨rfl, mirrors⟩)

theorem mirrored_setTimer (timer : Nat) {f : c.TimerId → TimerState c → TimerState c}
    {g : (c.under p).TimerId → TimerState (c.under p) → TimerState (c.under p)}
    (hf : ∀ id s, g (sameTimer p id) (s.recast p) = (f id s).recast p) :
    Mirrored (Progress.recast p) (do
      let timer ← timerId timer
      modify (·.modifyTimer timer (f timer))
      return .done .unit : Action c (Progress c)) (do
      let timer ← timerId timer
      modify (·.modifyTimer timer (g timer))
      return .done .unit : Action (c.under p) (Progress (c.under p))) := by
  refine Mirrored.bindTo (mirrored_timerId timer) fun id => Mirrored.bind ?_ fun _ => mirrored_done .unit
  exact mirrored_modify fun mirrors => mirrors.modifyTimer id (hf id)

/-- A call of the program goes the same way under both policies, unless it asks how urgent a task is. -/
theorem mirrored_perform (hc : c.Unguarded) (hp : (c.under p).Unguarded) {call : Call}
    (he : ∀ t, call ≠ .effectivePriority t) :
    Mirrored (Progress.recast p) (perform call : Action c (Progress c))
      (perform call : Action (c.under p) (Progress (c.under p))) := by
  cases call with
  | effectivePriority t => exact absurd rfl (he t)
  | yieldTo t => exact mirrored_yieldTo t
  | sleep ticks => exact mirrored_sleep ticks
  | unblock t | start t => exact mirrored_unblock t
  | lock mutex patience => exact mirrored_lock hc hp mutex patience
  | put queue message patience => exact mirrored_exchange (.put · message) queue message patience
  | get queue message patience => exact mirrored_exchange (.get · message) queue message patience
  | raise event => exact mirrored_raise event
  | wait semaphore patience =>
    exact Mirrored.bind (mirrored_expectPatience patience) fun _ => Mirrored.entered
      (Mirrored.bind (mirrored_semaphoreId semaphore) fun i => mirrored_ask (.token i) patience)
  | oneShot timer timeout =>
    refine Mirrored.bind (mirrored_expectTimeout timeout) fun _ => Mirrored.entered
      (Mirrored.bindTo (mirrored_timerId timer) fun id => Mirrored.bind ?_ fun _ => mirrored_done .unit)
    exact mirrored_change (fun k s => k.modifyTimer_recast s id fun _ => rfl) fun _ => rfl
  | currentTask => exact Mirrored.entered (Mirrored.bind mirrored_current fun t => mirrored_done (.number t))
  | yield => exact Mirrored.entered (mirrored_dispatch (.returning (some .unit)))
  | block => exact Mirrored.entered (mirrored_suspend .block)
  | waitSignals set => exact Mirrored.entered (mirrored_takeOrWait set)
  | pollSignals set =>
    exact Mirrored.entered (Mirrored.bind (mirrored_takeSignals set)
      fun received => mirrored_done (.number received.toNat))
  | peekSignals set =>
    refine Mirrored.entered (Mirrored.bind mirrored_current fun t => mirrored_read fun k s => ?_)
    rw [k.pendingSignals_recast]
    exact mirrored_done _
  | now => exact Mirrored.entered (mirrored_read fun k s => mirrored_done (.number k.now.toNat))
  | sendSignals u set =>
    refine Mirrored.entered (Mirrored.bind (mirrored_taskId u) fun t => Mirrored.bind ?_ fun _ =>
      Mirrored.bind mirrored_requestSwitch fun _ => mirrored_done .unit)
    exact mirrored_modify fun mirrors => mirrors.sendSignals t set
  | unlock mutex =>
    exact Mirrored.entered (Mirrored.bind (mirrored_mutexId mutex) fun x => Mirrored.bind (mirrored_unlock x) fun _ =>
      mirrored_done .unit)
  | holds mutex =>
    exact Mirrored.entered (Mirrored.bind mirrored_current fun t => Mirrored.bind (mirrored_mutexId mutex) fun x =>
      mirrored_read fun k s => mirrored_done (.bool (k.holders[x] = some t)))
  | isLocked mutex =>
    exact Mirrored.entered (Mirrored.bind (mirrored_mutexId mutex) fun x =>
      mirrored_read fun k s => mirrored_done (.bool k.holders[x].isSome))
  | post semaphore =>
    exact Mirrored.entered (Mirrored.bind (mirrored_semaphoreId semaphore)
      fun i => Mirrored.bind (mirrored_post i) fun _ =>
      mirrored_done .unit)
  | initMax semaphore max =>
    exact Mirrored.entered (Mirrored.bind (mirrored_semaphoreId semaphore)
      fun i => Mirrored.bind (mirrored_initMax i max) fun _ =>
      mirrored_done .unit)
  | tokens semaphore =>
    exact Mirrored.entered (Mirrored.bind (mirrored_semaphoreId semaphore) fun i =>
      mirrored_read fun k s => mirrored_done (.number k.semaphores[i].value.toNat))
  | messages queue =>
    exact Mirrored.entered (Mirrored.bind (mirrored_queueId queue) fun q =>
      mirrored_read fun k s => mirrored_done (.number k.rings[q].count))
  | enableTimer timer =>
    refine Mirrored.entered (Mirrored.bindTo (mirrored_timerId timer) fun id => Mirrored.bind ?_
      fun _ => mirrored_done .unit)
    exact mirrored_change (fun k s => k.startTimer_recast s id) fun _ => rfl
  | disableTimer timer | setReload timer reload | setTimerError timer error =>
    exact Mirrored.entered (mirrored_setTimer timer fun _ _ => rfl)
  | setTimerSignal timer u set =>
    exact Mirrored.entered (Mirrored.bind (mirrored_taskId u) fun _ => mirrored_setTimer timer fun _ _ => rfl)
  | takeOverflow timer =>
    refine Mirrored.entered (Mirrored.bindTo (mirrored_timerId timer) fun id => mirrored_read fun k s => ?_)
    rw [k.timer_recast]
    refine Mirrored.bind ?_ fun _ => mirrored_done (.bool k.timers[id].overflow)
    exact mirrored_modify fun mirrors => mirrors.modifyTimer id fun _ => rfl
  | ticksToFiring timer =>
    refine Mirrored.entered (Mirrored.bindTo (mirrored_timerId timer) fun id => mirrored_read fun k s => ?_)
    rw [k.ticksToFiring_recast]
    exact mirrored_done _

/-! ## The dispatcher -/

theorem mirrored_takePending : Mirrored id (takePending : Action c (List c.EventId × Nat))
    (takePending : Action (c.under p) (List c.EventId × Nat)) := by
  unfold takePending
  refine Mirrored.bind mirrored_mask fun _ k l mirrors => Pairs.get ?_
  have raised : l.raisedEvents = k.raisedEvents := congrArg raisedEvents mirrors.same
  have ticks : l.pendingTicks = k.pendingTicks := congrArg Kernel.pendingTicks mirrors.same
  rw [raised, ticks]
  have taken : Mirrors { k with raised := Table.replicate _ false, pendingTicks := 0 }
      { l with raised := Table.replicate _ false, pendingTicks := 0 } :=
    mirrors.map (f := fun k => { k with raised := Table.replicate _ false, pendingTicks := 0 })
      (g := fun l => { l with raised := Table.replicate _ false, pendingTicks := 0 }) (fun _ _ => rfl) rfl
  exact Mirrored.fromState (Mirrored.bind mirrored_unmask fun _ => mirrored_pure _) taken

theorem mirrored_applyEvent (event : c.EventId) :
    Mirrored id (applyEvent event) (applyEvent event : Action (c.under p) Unit) := by
  have same : (c.under p).eventAction event = c.eventAction event := rfl
  unfold applyEvent
  rw [same]
  cases c.eventAction event with
  | unblock task =>
    exact Mirrored.bind (mirrored_taskId task) fun t => mirrored_modify fun mirrors => mirrors.makeRunnable t
  | signal task set =>
    exact Mirrored.bind (mirrored_taskId task) fun t => mirrored_modify fun mirrors => mirrors.sendSignals t set

theorem mirrored_fire (timer : c.TimerId) :
    Mirrored id (fire timer) (fire (sameTimer p timer) : Action (c.under p) Unit) := by
  unfold fire
  refine mirrored_read fun k s => ?_
  have effect : (k.recast s).timers[sameTimer p timer].effect = k.timers[timer].effect.recast p := by
    rw [k.timer_recast]
    rfl
  rw [effect]
  cases k.timers[timer].effect with
  | timeout t => exact mirrored_modify fun mirrors => mirrors.timeOut t
  | user action =>
    cases action with
    | none => exact mirrored_pure _
    | error error => exact mirrored_fail _
    | signal task set =>
      refine Mirrored.bind (mirrored_taskId task) fun t => mirrored_read fun k s => ?_
      have sends : Mirrored id (modify (·.sendSignals t set) : Action c Unit)
          (modify (·.sendSignals t set) : Action (c.under p) Unit) :=
            mirrored_modify fun mirrors => mirrors.sendSignals t set
      rw [k.pendingSignals_recast]
      refine mirrored_ite Iff.rfl (Mirrored.bind ?_ fun _ => sends) sends
      exact mirrored_modify fun mirrors => mirrors.modifyTimer timer fun _ => rfl

theorem mirrored_fireIfDue (timer : c.TimerId) :
    Mirrored id (fireIfDue timer) (fireIfDue (sameTimer p timer) : Action (c.under p) Unit) := by
  unfold fireIfDue
  refine mirrored_read fun k s => ?_
  rw [k.isDue_recast]
  refine mirrored_ite Iff.rfl (Mirrored.bind ?_ fun _ => mirrored_fire timer) (mirrored_pure _)
  exact mirrored_change (fun k s => k.rearm_recast s timer) fun _ => rfl

theorem mirrored_applyTicks (ticks : Nat) :
    Mirrored id (applyTicks ticks : Action c Unit) (applyTicks ticks : Action (c.under p) Unit) := by
  match ticks with
  | 0 => exact mirrored_pure _
  | 1 =>
    have timers : List.finRange (c.under p).timerCount = (List.finRange c.timerCount).map (sameTimer p) :=
      (List.map_id _).symm
    refine Mirrored.bind (mirrored_change (fun _ _ => rfl) fun _ => rfl) fun _ => ?_
    rw [timers]
    exact Mirrored.forM mirrored_fireIfDue _
  | n + 2 => exact mirrored_fail _

/-- What was recorded is applied in the same way under both policies. -/
theorem mirrored_settle : Mirrored id (settle : Action c Unit) (settle : Action (c.under p) Unit) := by
  unfold settle
  refine Mirrored.bind mirrored_takePending fun pending => Mirrored.bind ?_ fun _ => mirrored_applyTicks _
  have events := Mirrored.forM (p := p) mirrored_applyEvent pending.1
  rw [List.map_id'] at events
  exact events

theorem mirrored_check : Mirrored id (check : Action c Unit) (check : Action (c.under p) Unit) := by
  unfold check
  refine mirrored_read fun k s => ?_
  rw [k.isConsistent_recast]
  exact mirrored_ite Iff.rfl (mirrored_fail _) (mirrored_pure _)

theorem mirrored_waitForInterrupt :
    Mirrored id (waitForInterrupt : Action c Unit) (waitForInterrupt : Action (c.under p) Unit) := by
  intro k l mirrors
  have processor := mirrors.processor
  unfold waitForInterrupt
  refine Pairs.get (Pairs.ite (by rw [processor]) (fun _ => rfl) fun _ => ?_)
  have counted : Mirrors { k with processor := { k.processor with idleTicks := k.processor.idleTicks + 1 } }
      { l with processor := { l.processor with idleTicks := l.processor.idleTicks + 1 } } :=
    mirrors.map (f := fun k => { k with processor := { k.processor with idleTicks := k.processor.idleTicks + 1 } })
      (g := fun l => { l with processor := { l.processor with idleTicks := l.processor.idleTicks + 1 } })
      (fun _ _ => rfl) rfl
  have ticks : Mirrored id (do
      modify fun k => { k with processor := { k.processor with masked := false, context := .interrupt } }
      deliverTick
      modify
        fun l => { l with processor := { l.processor with masked := true, context := k.processor.context } } : Action
          c Unit) (do
      modify fun k => { k with processor := { k.processor with masked := false, context := .interrupt } }
      deliverTick
      modify fun l => { l with processor := { l.processor with masked := true, context := k.processor.context } } :
        Action (c.under p) Unit) := by
    refine Mirrored.bind ?_ fun _ => Mirrored.bind mirrored_deliverTick fun _ => ?_
    · exact mirrored_change (fun _ _ => rfl) fun _ => rfl
    · exact mirrored_change (fun _ _ => rfl) fun _ => rfl
  rw [processor] at counted ⊢
  exact Mirrored.fromState (mirrored_ite Iff.rfl (mirrored_throw _) ticks) counted

/-- While there is nobody to choose, time passes in the same way under both policies. -/
theorem mirrored_idle : Mirrored id (idle : Action c Unit) (idle : Action (c.under p) Unit) := by
  unfold idle
  refine Mirrored.bind mirrored_mask fun _ => mirrored_read fun k s => ?_
  refine mirrored_ite Iff.rfl (Mirrored.bind mirrored_waitForInterrupt fun _ => mirrored_unmask) mirrored_unmask

/-! ## Handing the processor over -/

theorem mirrored_handOver (t : c.TaskId) : Mirrored id (handOver t) (handOver t : Action (c.under p) Unit) := by
  intro k l mirrors
  have processor := mirrors.processor
  unfold handOver
  refine Pairs.get ?_
  rw [processor]
  cases k.processor.switch t with
  | error message => exact rfl
  | ok q =>
    refine ⟨rfl, ?_⟩
    exact mirrors.map (f := fun k => { k with processor := q }) (g := fun l => { l with processor := q })
      (fun _ _ => rfl) rfl

theorem mirrored_startFirst (t : c.TaskId) : Mirrored id (startFirst t) (startFirst t : Action (c.under p) Unit) := by
  unfold startFirst
  refine Mirrored.bind ?_ fun _ => mirrored_read fun k s => ?_
  · exact mirrored_change (fun _ _ => rfl) fun _ => rfl
  · exact mirrored_ite Iff.rfl (mirrored_throw _) (mirrored_handOver t)

theorem mirrored_switchTo (t : c.TaskId) : Mirrored id (switchTo t) (switchTo t : Action (c.under p) Unit) := by
  unfold switchTo
  refine Mirrored.bind mirrored_current fun old => mirrored_ite Iff.rfl ?_ (mirrored_pure _)
  refine Mirrored.bind ?_ fun _ => Mirrored.bind mirrored_check fun _ => mirrored_read fun k s => ?_
  · exact mirrored_change (fun _ _ => rfl) fun _ => rfl
  · dsimp only
    refine mirrored_ite Iff.rfl (mirrored_throw _) (mirrored_ite Iff.rfl (mirrored_throw _) (mirrored_handOver t))

/-! ## Starting the kernel -/

/-- The states are the same, but for the schedules, which have not been prepared yet. -/
structure Unprepared (k : Kernel c) (l : Kernel (c.under p)) : Prop where
  same : l = k.recast l.schedule
  initial : k.schedule = Schedule.initial c
  initial' : l.schedule = Schedule.initial (c.under p)

theorem unprepared_checkEvents (h : Unprepared k l) :
    Pairs checkEvents k checkEvents l fun _ k' _ l' => Unprepared k' l' := by
  unfold checkEvents
  exact Pairs.ite Iff.rfl (fun _ => rfl) fun _ => Pairs.ite Iff.rfl (fun _ => rfl) fun _ => h

theorem unprepared_checkSemaphores (h : Unprepared k l) :
    Pairs checkSemaphores k checkSemaphores l fun _ k' _ l' => Unprepared k' l' := by
  unfold checkSemaphores
  exact Pairs.ite Iff.rfl (fun _ => rfl) fun _ => h

theorem unprepared_layOutQueue (h : Unprepared k l) (offset : UInt64) (q : c.QueueId) :
    Pairs (layOutQueue offset q) k (layOutQueue offset q : Action (c.under p) UInt64) l
      fun a k' b l' => b = a ∧ Unprepared k' l' := by
  obtain ⟨same, initial, initial'⟩ := h
  have placed : Unprepared (k.placed q offset) (l.placed q offset) := by
    refine ⟨?_, initial, initial'⟩
    generalize l.schedule = s at same
    rw [same]
    rfl
  unfold layOutQueue
  refine Pairs.ite Iff.rfl (fun _ => rfl) fun _ => ?_
  refine Pairs.bind (R := fun _ k' _ l' => Unprepared k' l') placed fun _ k' _ l' placed => ?_
  have stop : ringEnd? (c.under p) ((c.under p).queueAttr q) offset = ringEnd? c (c.queueAttr q) offset := rfl
  rw [stop]
  cases ringEnd? c (c.queueAttr q) offset with
  | none => exact rfl
  | some stop => exact ⟨rfl, placed⟩

theorem unprepared_layOutQueues (h : Unprepared k l) :
    Pairs layOutQueues k layOutQueues l fun _ k' _ l' => Unprepared k' l' := by
  have each : ∀ (queues : List c.QueueId) (offset : UInt64) (k : Kernel c) (l : Kernel (c.under p)), Unprepared k l →
      Pairs (queues.foldlM layOutQueue offset) k (queues.foldlM (layOutQueue (c := c.under p)) offset) l
        fun a k' b l' => b = a ∧ Unprepared k' l' := by
    intro queues
    induction queues with
    | nil => exact fun offset k l h => ⟨rfl, h⟩
    | cons q qs ih =>
      intro offset k l h
      rw [List.foldlM_cons, List.foldlM_cons]
      refine (unprepared_layOutQueue h offset q).bind fun a k' b l' hb => ?_
      obtain ⟨rfl, h'⟩ := hb
      exact ih b k' l' h'
  unfold layOutQueues
  exact (each (List.finRange c.queues.size) 0 k l h).bind fun _ _ _ _ hb => hb.2

/-- Whatever the policy is, the schedule is prepared, and no task is runnable yet. -/
theorem prepareSchedule_total (hc : c.Unguarded) (hk : k.schedule = Schedule.initial c) : Ends prepareSchedule k
    (fun _ l => ∃ s, l = { k with schedule := s } ∧ s.Fits ∧ ∀ t, s.isRunnable t = false) fun _ _ => False := by
  have idle : ∀ t : c.TaskId, (Table.replicate c.tasks.size false)[t] = false :=
    fun t => Table.getElem_replicate false t
  refine (ends_bind _ _).mpr (ends_get.mpr ?_)
  rw [hk, Schedule.initial]
  cases hp : c.policy with
  | strict =>
    refine ⟨k.schedule, rfl, ?_, fun t => ?_⟩
    · rw [hk, Schedule.initial, hp]
      exact hp
    · rw [hk, Schedule.initial, hp]
      exact idle t
  | inheritance => exact ⟨_, rfl, hp, idle⟩
  | ceiling =>
    obtain ⟨none, slots⟩ := hc hp
    have nobody : ∀ x : c.MutexId, False := fun x => by
      have := x.isLt
      omega
    have free : c.mutexes.any (fun attr => !hasCeiling c attr) = false := by
      rw [Array.any_eq_false]
      exact fun i hi => (nobody ⟨i, hi⟩).elim
    simp only [ends_bind, ends_ite, ends_fail, ends_modify]
    refine ⟨fun wrong => wrong (by omega), fun _ => ⟨fun some => ?_, fun _ => ?_⟩⟩
    · cases free.symm.trans some
    · have ceilinged : c.Ceilinged := fun x => (nobody x).elim
      rw [layOut_row ceilinged]
      exact ⟨_, rfl, ⟨hp, row_laid ceilinged, rfl, rfl⟩, SlotTable.isRunnable_ofLayout _⟩

theorem mirrors_prepareSchedule (hc : c.Unguarded) (hp : (c.under p).Unguarded) (h : Unprepared k l) :
    Pairs prepareSchedule k prepareSchedule l fun _ k' _ l' => Mirrors k' l' := by
  obtain ⟨same, initial, initial'⟩ := h
  refine (Pairs.of_total (prepareSchedule_total hc initial) (prepareSchedule_total hp initial')).mono
    fun _ k' _ l' prepared => ?_
  obtain ⟨⟨s, rfl, fits, idle⟩, ⟨s', rfl, fits', idle'⟩⟩ := prepared
  refine ⟨?_, fits, fits', fun t => (idle' t).trans (idle t).symm⟩
  generalize l.schedule = s'' at same
  rw [same]
  rfl

theorem mirrored_prepareTask (t : c.TaskId) :
    Mirrored id (prepareTask t) (prepareTask t : Action (c.under p) Unit) := by
  intro k l mirrors
  have processor := mirrors.processor
  unfold prepareTask
  refine Pairs.get (Pairs.ite (by rw [processor]) (fun _ => rfl) fun _ => ?_)
  have known : Mirrors { k with processor := { k.processor with ready := k.processor.ready.set t true } }
      { l with processor := { l.processor with ready := l.processor.ready.set t true } } :=
    mirrors.map (f := fun k => { k with processor := { k.processor with ready := k.processor.ready.set t true } })
      (g := fun l => { l with processor := { l.processor with ready := l.processor.ready.set t true } })
      (fun _ _ => rfl) rfl
  exact Mirrored.fromState (mirrored_ite Iff.rfl (mirrored_modify fun mirrors => mirrors.makeRunnable t)
    (mirrored_pure _)) known

theorem mirrored_prepareTimer (timer : Nat) :
    Mirrored id (prepareTimer timer : Action c Unit) (prepareTimer timer : Action (c.under p) Unit) := by
  unfold prepareTimer
  refine Mirrored.bindTo (mirrored_timerId timer) fun i => ?_
  by_cases h : i.val < c.timers.size
  · have starts : Mirrored id (if c.timers[i.val].enabled then modify (·.startTimer i) else pure () : Action c Unit)
        (if c.timers[i.val].enabled then modify (·.startTimer (sameTimer p i)) else pure () : Action
          (c.under p) Unit) :=
      mirrored_ite Iff.rfl (mirrored_change (fun k s => k.startTimer_recast s i) fun _ => rfl) (mirrored_pure _)
    have h' : (sameTimer p i).val < (c.under p).timers.size := h
    have same : (c.under p).timers[sameTimer p i].action = c.timers[i].action := rfl
    rw [dif_pos h, dif_pos h']
    dsimp only
    rw [same]
    cases c.timers[i].action with
    | signal task set => exact Mirrored.unless Iff.rfl _ starts
    | none => exact starts
    | error error => exact starts
  · rw [dif_neg h, dif_neg (show ¬ (sameTimer p i).val < (c.under p).timers.size from h)]
    exact mirrored_pure _

theorem mirrored_prepareTimers :
    Mirrored id (prepareTimers : Action c Unit) (prepareTimers : Action (c.under p) Unit) := by
  have timers := Mirrored.forM (p := p) (c := c) mirrored_prepareTimer (List.range c.userTimers)
  rw [List.map_id'] at timers
  unfold prepareTimers
  exact Mirrored.unless Iff.rfl _ timers

theorem mirrored_prepareTasks : Mirrored id ((List.finRange c.tasks.size).forM prepareTask : Action c PUnit)
    ((List.finRange (c.under p).tasks.size).forM prepareTask : Action (c.under p) PUnit) := by
  have tasks := Mirrored.forM (p := p) mirrored_prepareTask (List.finRange c.tasks.size)
  rw [List.map_id'] at tasks
  exact tasks

/-- The kernel starts in the same way under both policies. -/
theorem mirrors_boot (hc : c.Unguarded) (hp : (c.under p).Unguarded) (h : Unprepared k l) :
    Pairs boot k boot l fun _ k' _ l' => Mirrors k' l' := by
  unfold boot
  refine (unprepared_checkEvents h).bind fun _ _ _ _ h => (unprepared_checkSemaphores h).bind fun _ _ _ _ h =>
    (unprepared_layOutQueues h).bind fun _ _ _ _ h => (mirrors_prepareSchedule hc hp h).bind fun _ _ _ _ prepared => ?_
  refine Pairs.mono (Pairs.bind (mirrored_prepareTasks prepared) fun _ _ _ _ tasks => mirrored_prepareTimers tasks.2) ?_
  exact fun _ _ _ _ hb => hb.2

end Kernel

end Rtos
