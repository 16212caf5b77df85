import Rtos.Proofs.Kernel.Resources

/-!
# How calls are rejected

* `Call.errors`: the errors the kernel may answer a call with.
* `Rejected`: the kernel found a call wrong before it changed anything, except that it may have disabled preemption.
* `Checks`: a look at the state, which yields something or rejects the call. A call is a row of checks (`Checks.bind`),
  with the begin of the critical section somewhere among them (`Ready.section_rejects`), and then the rest, which cannot
  fail.
* `perform_rejects`, `perform_rejects_of_handler`: a call of a program or of an interrupt handler that ends the run is
  rejected with one of its errors. All checks of a call come before its first change.
* `resume_raises`: how a task fails that goes on in a wait.
-/

namespace Rtos
set_option autoImplicit false

variable {c : Config}

/-- The errors the kernel may answer a call of a program with. -/
def Call.errors : Call → List FatalError
  | .currentTask | .yield | .block | .waitSignals _ | .pollSignals _ | .peekSignals _ | .now => []
  | .sleep _ => [.invalidTimeout]
  | .oneShot _ _ | .wait _ _ => [.invalidTimeout, .badId]
  | .lock _ _ => [.invalidTimeout, .badId, .mutexDeadlock, .ceilingViolation]
  | .unlock _ => [.badId, .mutexNotOwner]
  | .post _ => [.badId, .semaphoreMaxExceeded]
  | .initMax _ _ => [.badId, .semaphoreMaxAlreadyInit, .semaphoreMaxInvalid]
  | .put _ _ _ | .get _ _ _ => [.badId, .messageSizeMismatch, .invalidTimeout, .messageBufferOverlap]
  | .yieldTo _ | .unblock _ | .start _ | .effectivePriority _ | .sendSignals _ _ | .holds _ | .isLocked _ | .tokens _
  | .messages _ | .enableTimer _ | .disableTimer _ | .setReload _ _ | .setTimerSignal _ _ _ | .setTimerError _ _
  | .takeOverflow _ | .ticksToFiring _ | .raise _ => [.badId]

namespace Kernel

variable {k l : Kernel c} {t : c.TaskId} {α : Type} {errors : List FatalError} {ending : Ending}

/-! ## Errors -/

/-- If the section ends the run, it does so with one of the given errors. -/
def Raises (errors : List FatalError) (action : Action c α) (k : Kernel c) : Prop :=
  Ends action k (fun _ _ => True) fun ending _ => ∃ error ∈ errors, ending = .fatal error

theorem raises_of_mem {error : FatalError} (h : error ∈ errors) :
    ∃ e ∈ errors, Ending.fatal error = .fatal e := ⟨error, h, rfl⟩

/-- The run ends with one of the given errors, and nothing has changed but that preemption may be disabled. -/
structure Rejected (errors : List FatalError) (k : Kernel c) (ending : Ending) (l : Kernel c) : Prop where
  error : ∃ error ∈ errors, ending = .fatal error
  unchanged : ∃ disabled, l = { k with preemptDisabled := disabled }

/-- If the section ends the run, it rejects what it was asked for. -/
def Rejects (errors : List FatalError) (action : Action c α) (k : Kernel c) : Prop :=
  Ends action k (fun _ _ => True) (Rejected errors k)

theorem Rejected.here {error : FatalError} (h : error ∈ errors) : Rejected errors k (.fatal error) k :=
  ⟨raises_of_mem h, k.preemptDisabled, rfl⟩

theorem Rejected.of_entered (h : Rejected errors k.entered ending l) : Rejected errors k ending l :=
  ⟨h.error, h.unchanged⟩

theorem Rejected.entered {error : FatalError} (h : error ∈ errors) : Rejected errors k (.fatal error) k.entered :=
  (Rejected.here h).of_entered

theorem Rejects.of_entered {action : Action c α} (h : Rejects errors action k.entered) :
    Ends action k.entered (fun _ _ => True) (Rejected errors k) :=
      Ends.mono h (fun _ _ hl => hl) fun _ _ hl => hl.of_entered

/-! ## Checks -/

section Checks
variable {β : Type}

/-- The action looks at the state and yields something, or rejects what was asked for. -/
def Checks (errors : List FatalError) (check : Action c β) (k : Kernel c) : Prop :=
  Ends check k (fun _ l => l = k) (Rejected errors k)

theorem Checks.bind {check : Action c β} {next : β → Action c α} (h : Checks errors check k)
    (hn : ∀ b, Rejects errors (next b) k) : Rejects errors (check >>= next) k := by
  refine Ends.bind h fun b l hl => ?_
  rw [hl]
  exact hn b

/-- A number is looked up in a row of objects. -/
theorem checks_lookup {p : Prop} [Decidable p] (found : p → β) (h : .badId ∈ errors) :
    Checks errors (if hp : p then pure (found hp) else fail .badId : Action c β) k :=
  (ends_dite p _ _).mpr ⟨fun _ => rfl, fun _ => .here h⟩

theorem checks_guard {p : Prop} [Decidable p] {error : FatalError} (h : error ∈ errors) :
    Checks errors (if p then fail error else pure ⟨⟩ : Action c PUnit) k :=
  (ends_ite p _ _).mpr ⟨fun _ => .here h, fun _ => rfl⟩

theorem checks_expectPatience (patience : Patience) (h : .invalidTimeout ∈ errors) :
    Checks errors (expectPatience patience) k :=
  (ends_expectPatience patience).mpr ⟨fun _ => rfl, fun _ => .here h⟩

theorem rejects_current {next : c.TaskId → Action c α} (hr : k.running = some t) (hn : Rejects errors (next t) k) :
    Rejects errors (current >>= next) k := (ends_bind _ _).mpr ((ends_current_of_running hr).mpr hn)

/-- What a call does after its last check cannot fail. -/
theorem Rejects.andThen {action : Action c β} {next : β → Action c α} (h : Rejects errors action k)
    (hn : ∀ b l, Ends (next b) l (fun _ _ => True) fun _ _ => False) : Rejects errors (action >>= next) k :=
  Ends.bind h fun b l _ => (hn b l).mono (fun _ _ _ => trivial) fun _ _ => False.elim

/-- A call of a program begins a critical section. -/
theorem Ready.section_rejects (h : k.Ready t) {rest : Unit → Action c α} (hr : Rejects errors (rest ()) k.entered) :
    Rejects errors (enter >>= rest) k := (ends_bind _ _).mpr (h.ends_enter.mpr hr.of_entered)

/-- A handler cannot. -/
theorem handler_rejects (hc : k.processor.context = .interrupt) (h : .badContext ∈ errors) (rest : Unit → Action c α) :
    Rejects errors (enter >>= rest) k := (ends_bind _ _).mpr ((ends_enter_of_handler hc).mpr (.here h))

end Checks

/-! ## Requests -/

/-- Only the message of a request to a queue can be in the way. -/
theorem ask_rejects (ht : c.tasks.size ≤ c.timerCount) (hr : k.running = some t) {r : Request c} (patience : Patience)
    (stranger : patience ≠ .never → ∀ x, r.mutex? = some x → k.holders[x] ≠ some t)
    (he : (∃ q, r.object = .queue q) → .messageBufferOverlap ∈ errors) : Rejects errors (ask r patience) k := by
  refine (ask_spec ht hr patience stranger).mono (fun _ _ _ => trivial) fun ending l hl => ?_
  obtain ⟨rfl, rfl, start, size, overlaps⟩ := hl
  refine .here (he ?_)
  cases r with
  | lock x => cases overlaps
  | token s => cases overlaps
  | put q message => exact ⟨q, rfl⟩
  | get q message => exact ⟨q, rfl⟩

theorem lock_rejects (ht : c.tasks.size ≤ c.timerCount) (h : k.Ready t) (mutex : Nat) (patience : Patience) :
    Rejects (Call.lock mutex patience).errors (lock mutex patience) k := by
  refine h.ends_lock mutex patience ?late ?unknown ?own ?refused ?asks
  case late => exact fun _ => .here (by simp [Call.errors])
  case unknown => exact fun _ => .entered (by simp [Call.errors])
  case own | refused => exact fun _ _ _ _ => .entered (by simp [Call.errors])
  case asks =>
    intro x _ _ stranger _
    refine (ask_rejects ht (k := k.entered) h.running patience ?_ (by rintro ⟨q, ⟨⟩⟩)).of_entered
    rintro willing _ ⟨⟩
    exact stranger willing

theorem exchange_rejects (ht : c.tasks.size ≤ c.timerCount) (h : k.Ready t) {r : c.QueueId → Request c}
    (hm : ∀ q, (r q).mutex? = none) (queue : Nat) (patience : Patience) :
    Rejects [.badId, .messageSizeMismatch, .invalidTimeout, .messageBufferOverlap] (exchange r queue patience) k := by
  have hr : k.entered.running = some t := h.running
  refine (checks_lookup _ (by simp)).bind fun q => (checks_guard (by simp)).bind fun _ => ?_
  refine (checks_expectPatience patience (by simp)).bind fun _ => h.section_rejects ?_
  refine ask_rejects ht hr patience (fun _ x hx => ?_) fun _ => by simp
  cases (hm q).symm.trans hx

/-! ## Calls -/

theorem raise_rejects (h : k.Ready t) (event : Nat) : Rejects [.badId] (raise event) k := by
  refine (checks_lookup _ (by simp)).bind fun e => ?_
  have ready : (k.recorded e).Ready t := ⟨h.running, h.context, h.unmasked, h.enabled⟩
  rw [Rejects, ends_bind, ends_recordEvent h.inside h.unmasked, ends_bind, ends_get, ends_ite]
  refine ⟨fun _ => trivial, fun _ => ?_⟩
  refine (ends_bind _ _).mpr ((servicePreemption_spec ready).mono (fun serviced l _ => ?_) fun _ _ => False.elim)
  cases serviced <;> trivial

theorem sleep_rejects (ht : c.tasks.size ≤ c.timerCount) (h : k.Ready t) (ticks : Ticks) :
    Rejects [.invalidTimeout] (sleep ticks) k := by
  have hr : k.entered.running = some t := h.running
  refine (checks_guard (by simp)).bind fun _ => h.section_rejects ?_
  rw [Rejects, ends_ite]
  refine ⟨fun _ => trivial, fun _ => rejects_current hr ?_⟩
  rw [Rejects, ends_bind, ends_armTimeout ht]
  intro hi
  have running : (k.entered.armed t ⟨c.userTimers + t, hi⟩ ticks).running = some t := hr
  rw [sleepOn, ends_bind, ends_current_of_running running, ends_bind, ends_get, ends_ite, ends_suspend running]
  exact ⟨fun _ => trivial, fun _ => trivial⟩

theorem post_rejects (s : c.SemaphoreId) (h : .semaphoreMaxExceeded ∈ errors) : Rejects errors (post s) k := by
  rw [Rejects, post, ends_bind, ends_get]
  dsimp only
  cases SemaphoreState.posted? k.semaphores[s] with
  | none => exact .here h
  | some value =>
    refine (ends_bind _ _).mpr ((ends_modify _).mpr ?_)
    rw [ends_ite]
    exact ⟨fun _ => trivial, fun _ => trivial⟩

theorem unlock_rejects (hr : k.running = some t) (x : c.MutexId) (h : .mutexNotOwner ∈ errors) :
    Rejects errors (unlock x) k := (ends_unlock hr x).mpr ⟨fun _ => trivial, fun _ => .here h⟩

theorem initMax_rejects (s : c.SemaphoreId) (max : UInt32) (initialized : .semaphoreMaxAlreadyInit ∈ errors)
    (invalid : .semaphoreMaxInvalid ∈ errors) : Rejects errors (initMax s max) k :=
  (ends_initMax s max).mpr ⟨fun _ => .here initialized, fun _ => ⟨fun _ => .here invalid, fun _ => trivial⟩⟩

/-- The kernel rejects a call with one of the errors of the call, and does not end the run otherwise. -/
theorem perform_rejects (ht : c.tasks.size ≤ c.timerCount) (h : k.Ready t) (call : Call) :
    Rejects call.errors (perform call) k := by
  have hr : k.entered.running = some t := h.running
  cases call with
  | lock mutex patience => exact lock_rejects ht h mutex patience
  | put queue message patience => exact exchange_rejects ht h (r := (.put · message)) (fun _ => rfl) queue patience
  | get queue message patience => exact exchange_rejects ht h (r := (.get · message)) (fun _ => rfl) queue patience
  | sleep ticks => exact sleep_rejects ht h ticks
  | raise event => exact raise_rejects h event
  | wait semaphore patience =>
    refine (checks_expectPatience patience (by simp [Call.errors])).bind fun _ => h.section_rejects ?_
    refine (checks_lookup _ (by simp [Call.errors])).bind fun s => ?_
    exact ask_rejects ht hr patience (by rintro _ _ ⟨⟩) (by rintro ⟨_, ⟨⟩⟩)
  | oneShot timer timeout =>
    refine (checks_guard (by simp [Call.errors])).bind fun _ => h.section_rejects ?_
    exact (checks_lookup _ (by simp [Call.errors])).bind fun _ => trivial
  | post semaphore =>
    refine h.section_rejects ((checks_lookup _ (by simp [Call.errors])).bind fun s => ?_)
    exact (post_rejects s (by simp [Call.errors])).andThen fun _ _ => trivial
  | initMax semaphore max =>
    refine h.section_rejects ((checks_lookup _ (by simp [Call.errors])).bind fun s => ?_)
    exact (initMax_rejects s max (by simp [Call.errors]) (by simp [Call.errors])).andThen fun _ _ => trivial
  | unlock mutex =>
    refine h.section_rejects ((checks_lookup _ (by simp [Call.errors])).bind fun x => ?_)
    exact (unlock_rejects hr x (by simp [Call.errors])).andThen fun _ _ => trivial
  | currentTask | peekSignals set => exact h.section_rejects (rejects_current hr trivial)
  | yield | now => exact h.section_rejects trivial
  | block =>
    refine h.section_rejects ?_
    rw [Rejects, ends_suspend hr]
    trivial
  | pollSignals set =>
    refine h.section_rejects ?_
    rw [Rejects, ends_bind, ends_takeSignals hr]
    trivial
  | waitSignals set =>
    refine h.section_rejects ?_
    rw [Rejects, takeOrWait, ends_bind, ends_takeSignals hr, ends_ite,
      ends_suspend (k := k.entered.clearSignals t set) hr]
    exact ⟨fun _ => trivial, fun _ => trivial⟩
  | holds mutex =>
    exact h.section_rejects (rejects_current hr ((checks_lookup _ (by simp [Call.errors])).bind fun _ => trivial))
  | yieldTo task =>
    refine h.section_rejects ((checks_lookup _ (by simp [Call.errors])).bind fun t => ?_)
    rw [Rejects, ends_bind, ends_get, ends_ite]
    exact ⟨fun _ => trivial, fun _ => trivial⟩
  | setTimerSignal timer task set =>
    refine h.section_rejects ((checks_lookup _ (by simp [Call.errors])).bind fun _ => ?_)
    exact (checks_lookup _ (by simp [Call.errors])).bind fun _ => trivial
  | unblock task | start task | effectivePriority task | sendSignals task set =>
    exact h.section_rejects ((checks_lookup _ (by simp [Call.errors])).bind fun _ => trivial)
  | isLocked mutex | tokens semaphore | messages queue =>
    exact h.section_rejects ((checks_lookup _ (by simp [Call.errors])).bind fun _ => trivial)
  | enableTimer timer | disableTimer timer | setReload timer reload | setTimerError timer error | takeOverflow timer
  | ticksToFiring timer =>
    exact h.section_rejects ((checks_lookup _ (by simp [Call.errors])).bind fun _ => trivial)

/-- An interrupt handler is rejected in the same way, or for being in the wrong place. -/
theorem perform_rejects_of_handler (hc : k.processor.context = .interrupt) (hm : k.processor.masked = false)
    (call : Call) :
    Rejects (.badContext :: call.errors) (perform call) k := by
  have misplaced : ∀ {α : Type} (rest : Unit → Action c α), Rejects (.badContext :: call.errors) (enter >>= rest) k :=
    handler_rejects hc (by simp)
  cases call with
  | raise event =>
    refine (checks_lookup _ (by simp [Call.errors])).bind fun e => ?_
    have hc' : (k.recorded e).processor.context = .interrupt := hc
    rw [Rejects, ends_bind, ends_recordEvent (by rw [hc]; exact nofun) hm, ends_bind, ends_get, ends_ite]
    exact ⟨fun _ => trivial, fun hn => absurd hc' hn⟩
  | sleep ticks | oneShot timer ticks => exact (checks_guard (by simp [Call.errors])).bind fun _ => misplaced _
  | lock mutex patience | wait semaphore patience =>
    exact (checks_expectPatience patience (by simp [Call.errors])).bind fun _ => misplaced _
  | put queue message patience | get queue message patience =>
    refine (checks_lookup _ (by simp [Call.errors])).bind fun q => (checks_guard (by simp [Call.errors])).bind
      fun _ => ?_
    exact (checks_expectPatience patience (by simp [Call.errors])).bind fun _ => misplaced _
  | _ => exact misplaced _

/-! ## Waits -/

/-- A task that goes on in a wait fails only if its message is in the way. -/
theorem resume_raises (ht : c.tasks.size ≤ c.timerCount) (hr : k.running = some t) (wait : Wait c)
    (stranger : ∀ x, wait.mutex? = some x → k.holders[x] ≠ some t) :
    Raises [.messageBufferOverlap] (resume wait) k := by
  cases wait with
  | block => trivial
  | sleep =>
    simp only [Raises, resume, sleepOn, ends_bind, ends_current_of_running hr, ends_get, ends_ite, ends_pure,
      ends_suspend hr, implies_true, and_self]
  | signals set =>
    simp only [Raises, resume, takeOrWait, ends_bind, ends_takeSignals hr, ends_ite, ends_pure,
      ends_suspend (k := k.clearSignals t set) hr, implies_true, and_self]
  | request r deadline =>
    refine (pursueOn_spec ht hr stranger deadline).mono (fun _ _ _ => trivial) fun ending l hl => ?_
    obtain ⟨m, _, rfl, _⟩ := hl
    exact raises_of_mem (by simp)

end Kernel

end Rtos
