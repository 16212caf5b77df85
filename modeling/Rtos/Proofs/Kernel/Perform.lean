import Rtos.Proofs.Kernel.Request

/-!
# What operations do

* `perform_spec`: every call of a program but one `Goes`, or ends the run in a way other than being made in the wrong
  place; `yieldTo_spec` is about the exception.
* `resume_spec`: what a suspended task does when it is given the processor goes like this, too.
* `Ready.ends_lock`: what there is to show of a call that locks a mutex, one hypothesis for each of its checks.
* `perform_of_handler`: an interrupt handler can raise events, and nothing else.
-/

namespace Rtos.Kernel
set_option autoImplicit false

variable {c : Config} {k : Kernel c} {t : c.TaskId}

/-! ## Other waits -/

theorem sleepOn_spec (hr : k.running = some t) {mutex : Option c.MutexId} :
    Ends sleepOn k (Goes t k mutex) (Fails t k) := by
  simp only [sleepOn, ends_bind, ends_current_of_running hr, ends_get, ends_ite, ends_pure, ends_suspend hr]
  exact ⟨fun _ => Goes.unchanged _, fun _ => Goes.stop (.suspends .sleep nofun) nofun⟩

theorem ends_takeSignals (hr : k.running = some t) (set : SignalSet) {ok : SignalSet → Kernel c → Prop}
    {bad : Ending → Kernel c → Prop} :
    Ends (takeSignals set) k ok bad ↔ ok (k.pendingSignals t set) (k.clearSignals t set) := by
  simp only [takeSignals, ends_bind, ends_current_of_running hr, ends_get, ends_modify, ends_pure]

theorem takeOrWait_spec (hr : k.running = some t) (set : SignalSet) {mutex : Option c.MutexId} :
    Ends (takeOrWait set) k (Goes t k mutex) (Fails t k) := by
  have hr' : (k.clearSignals t set).running = some t := hr
  have clear : (Edit.clear (c := c) set).Allowed t k := trivial
  simp only [takeOrWait, ends_bind, ends_takeSignals hr, ends_ite, ends_pure, ends_suspend hr']
  refine ⟨fun _ => ?_, fun _ => Goes.after clear nofun _⟩
  exact Goes.of_edits (.one clear) (by simp) (Goes.stop (.suspends (.signals set) nofun) nofun)

/-! ## After a suspension -/

/-- A task that was suspended in a wait is taken off the record if it is on, and then goes on. It must not hold the
mutex it waits for. -/
theorem resume_spec (ht : c.tasks.size ≤ c.timerCount) (hr : k.running = some t) (wait : Wait c)
    (stranger : ∀ x, wait.mutex? = some x → k.holders[x] ≠ some t)
    (hi : (∀ r d, wait ≠ .request r d) → k.tasks[t].wait = none) :
    Ends (resume wait) k (fun p m => ∃ es l, Edits t k es l ∧ (∀ x, .take x ∉ es) ∧ l.tasks[t].wait = none ∧
      l.holders = k.holders ∧ Goes t l wait.mutex? p m) (Fails t k) := by
  have other : (∀ r d, wait ≠ .request r d) → Ends (resume wait) k (Goes t k wait.mutex?) (Fails t k) →
      Ends (resume wait) k (fun p m => ∃ es l, Edits t k es l ∧ (∀ x, .take x ∉ es) ∧ l.tasks[t].wait = none ∧
        l.holders = k.holders ∧ Goes t l wait.mutex? p m) (Fails t k) := by
    intro hw h
    exact h.mono (fun p m hg => ⟨[], k, .nil k, nofun, hi hw, rfl, hg⟩) fun _ _ hf => hf
  cases wait with
  | block => exact other nofun (Goes.unchanged _)
  | sleep => exact other nofun (sleepOn_spec hr)
  | signals set => exact other nofun (takeOrWait_spec hr set)
  | request r deadline =>
    refine (pursueOn_spec ht hr stranger deadline).mono (fun p m hp => ?_) fun ending m hf => ?_
    · obtain ⟨l, disarmed, pursued⟩ := hp
      obtain ⟨es, edits, no⟩ := disarmed.edits r.object
      obtain ⟨idle, hh⟩ := apply_endWait l t r.object
      exact ⟨es, _, edits, no, idle, hh.trans disarmed.holders, pursued.goes⟩
    · obtain ⟨l, disarmed, collides⟩ := hf
      obtain ⟨es, edits, _⟩ := disarmed.edits r.object
      exact collides.fails.of_edits edits

/-! ## Critical sections -/

/-- The program of `t` may begin a critical section. -/
structure Ready (k : Kernel c) (t : c.TaskId) : Prop where
  running : k.running = some t
  context : k.processor.context = .task
  unmasked : k.processor.masked = false
  enabled : k.preemptDisabled = false

theorem Ready.inside (h : k.Ready t) : k.processor.context ≠ .outside := by
  rw [h.context]
  exact nofun

theorem Ready.ends_enter (h : k.Ready t) {ok : Unit → Kernel c → Prop} {bad : Ending → Kernel c → Prop} :
    Ends enter k ok bad ↔ ok () k.entered := by
  simp [enter, ends_bind, ends_get, ends_set, ends_ite, h.context, h.enabled, entered]

theorem Fails.entered {error : FatalError} (h : error ≠ .badContext) : Fails t k (.fatal error) k.entered :=
  (Fails.here h).of_edits (.one (e := .enter) trivial)

/-- A call that begins a critical section fails, if it does, after that change. -/
theorem Ready.ends_section (h : k.Ready t) {rest : Unit → Action c (Progress c)} {ok : Progress c → Kernel c → Prop}
    (hs : Ends (rest ()) k.entered ok (Fails t k.entered)) : Ends (enter >>= rest) k ok (Fails t k) := by
  rw [ends_bind, h.ends_enter]
  exact hs.mono (fun _ _ hl => hl) fun ending l hf => hf.of_edits (.one (e := .enter) trivial)

theorem Ready.section (h : k.Ready t) {rest : Unit → Action c (Progress c)} {mutex : Option c.MutexId}
    (hs : Ends (rest ()) k.entered (Goes t k.entered mutex) (Fails t k.entered)) :
    Ends (enter >>= rest) k (fun p l => Goes t k mutex p l ∧ l.preemptDisabled = true) (Fails t k) :=
  h.ends_section (hs.mono (fun _ _ hg => hg.of_entered) fun _ _ hf => hf)

/-! ## Interrupt events -/

theorem ends_recordEvent (hc : k.processor.context ≠ .outside) (hm : k.processor.masked = false) (event : c.EventId)
    {ok : Unit → Kernel c → Prop} {bad : Ending → Kernel c → Prop} :
    Ends (recordEvent event) k ok bad ↔ ok () (k.recorded event) := by
  have unmasked : { k.processor with masked := false } = k.processor := by rw [← hm]
  simp only [recordEvent, ends_bind, ends_mask hc hm, ends_modify]
  rw [ends_unmask (by exact hc) (by rfl), unmasked]
  exact Iff.rfl

/-! ## Calls -/

/-- A patience that is not too long. -/
def Accepts (patience : Patience) : Prop := ∀ timeout, patience = .upTo timeout → timeout ≤ maxTimeout

theorem ends_expectTimeout (timeout : Ticks) {ok : Unit → Kernel c → Prop} {bad : Ending → Kernel c → Prop} :
    Ends (expectTimeout timeout) k ok bad ↔
      (timeout ≤ maxTimeout → ok () k) ∧ (maxTimeout < timeout → bad (.fatal .invalidTimeout) k) := by
  simp [expectTimeout, ends_ite, ends_fail, ends_pure, and_comm]

theorem ends_expectPatience (patience : Patience) {ok : Unit → Kernel c → Prop} {bad : Ending → Kernel c → Prop} :
    Ends (expectPatience patience) k ok bad ↔
      (Accepts patience → ok () k) ∧ (¬ Accepts patience → bad (.fatal .invalidTimeout) k) := by
  cases patience with
  | never => simp [expectPatience, Accepts, ends_pure]
  | forever => simp [expectPatience, Accepts, ends_pure]
  | upTo timeout => simp [expectPatience, Accepts, ends_expectTimeout]

/-- What a call comes to that makes a request. -/
inductive Asks (t : c.TaskId) (k : Kernel c) (call : Call) (p : Progress c) (l : Kernel c) : Prop
  | intro (r : Request c) (patience : Patience) (request : call.request? c = some (r, patience))
    (accepts : Accepts patience) (sized : ∀ q, r.object = .queue q → r.buffer.length = elementSize q)
    (asked : Asked t k.entered r patience p l)

theorem Asks.section {call : Call} {p : Progress c} {l : Kernel c} (h : Asks t k call p l) :
    Goes t k (call.mutex? c) p l ∧ l.preemptDisabled = true := by
  obtain ⟨r, patience, request, _, _, asked⟩ := h
  rw [call.mutex?_of_request request]
  exact asked.goes.of_entered

/-- The checks of a call that locks a mutex, in their order, and the request after them. -/
theorem Ready.ends_lock (h : k.Ready t) (mutex : Nat) (patience : Patience) {ok : Progress c → Kernel c → Prop}
    {bad : Ending → Kernel c → Prop} (late : ¬ Accepts patience → bad (.fatal .invalidTimeout) k)
    (unknown : ¬ mutex < c.mutexes.size → bad (.fatal .badId) k.entered)
    (own : ∀ x : c.MutexId, x.val = mutex → patience ≠ .never → k.holders[x] = some t →
      bad (.fatal .mutexDeadlock) k.entered)
    (refused : ∀ x : c.MutexId, x.val = mutex → (patience ≠ .never → k.holders[x] ≠ some t) →
      k.mayLock x t ≠ true → bad (.fatal .ceilingViolation) k.entered)
    (asks : ∀ x : c.MutexId, x.val = mutex → Accepts patience → (patience ≠ .never → k.holders[x] ≠ some t) →
      k.mayLock x t = true → Ends (ask (.lock x) patience) k.entered ok bad) :
    Ends (lock mutex patience) k ok bad := by
  have hr : k.entered.running = some t := h.running
  refine (ends_bind _ _).mpr ((ends_expectPatience patience).mpr ⟨fun ha => ?_, late⟩)
  rw [ends_bind, h.ends_enter, ends_bind, ends_current_of_running hr, ends_bind, ends_mutexId]
  refine ⟨fun hx => ?_, unknown⟩
  have permitted (stranger : patience ≠ .never → k.holders[(⟨mutex, hx⟩ : c.MutexId)] ≠ some t) :
      Ends (do expectMayLock ⟨mutex, hx⟩ t; ask (.lock ⟨mutex, hx⟩) patience) k.entered ok bad := by
    have same : k.entered.mayLock ⟨mutex, hx⟩ t = k.mayLock ⟨mutex, hx⟩ t := rfl
    rw [ends_bind, expectMayLock, ends_bind, ends_get, ends_ite, ends_fail, ends_pure, same, Bool.not_eq_true']
    exact ⟨fun hm => refused _ rfl stranger (ne_true_of_eq_false hm),
      fun hm => asks _ rfl ha stranger (Bool.of_not_eq_false hm)⟩
  by_cases willing : patience ≠ .never
  · rw [if_pos willing, ends_bind, expectNotHolder, ends_bind, ends_get, ends_ite, ends_fail, ends_pure]
    exact ⟨own _ rfl willing, fun stranger => permitted fun _ => stranger⟩
  · rw [if_neg willing]
    exact permitted fun hw => absurd hw willing

theorem lock_spec (ht : c.tasks.size ≤ c.timerCount) (h : k.Ready t) (mutex : Nat) (patience : Patience) :
    Ends (lock mutex patience) k (Asks t k (.lock mutex patience)) (Fails t k) := by
  refine h.ends_lock mutex patience ?late ?unknown ?own ?refused ?asks
  case late => exact fun _ => Fails.here nofun
  case unknown => exact fun _ => Fails.entered nofun
  case own | refused => exact fun _ _ _ _ => Fails.entered nofun
  case asks =>
    rintro x rfl accepts stranger -
    have others : patience ≠ .never → ∀ y, (Request.lock x).mutex? = some y → k.entered.holders[y] ≠ some t := by
      rintro willing _ ⟨⟩
      exact stranger willing
    refine (ask_spec (k := k.entered) ht h.running patience others).mono (fun p l asked => ?_) fun _ _ hf => ?_
    · exact ⟨_, patience, dif_pos x.isLt, accepts, nofun, asked⟩
    · exact hf.fails.of_edits (.one (e := .enter) trivial)

theorem wait_spec (ht : c.tasks.size ≤ c.timerCount) (h : k.Ready t) (semaphore : Nat) (patience : Patience) :
    Ends (perform (.wait semaphore patience)) k (Asks t k (.wait semaphore patience)) (Fails t k) := by
  refine (ends_bind _ _).mpr
    ((ends_expectPatience patience).mpr ⟨fun ha => h.ends_section ?_, fun _ => Fails.here nofun⟩)
  refine (ends_bind _ _).mpr ((ends_semaphoreId semaphore).mpr ⟨fun hs => ?_, fun _ => Fails.here nofun⟩)
  exact (ask_spec (k := k.entered) (r := .token ⟨semaphore, hs⟩) ht h.running patience fun _ x hx => nomatch hx).mono
    (fun p l asked => ⟨_, patience, dif_pos hs, ha, nofun, asked⟩) fun _ _ hf => hf.fails

/-- A message is passed to or from a queue: what is checked first, and the request. -/
def exchange (request : c.QueueId → Request c) (queue : Nat) (patience : Patience) : Action c (Progress c) := do
  let q ← queueId queue
  expectMessageSize q (request q).buffer
  expectPatience patience
  enter
  ask (request q) patience

theorem exchange_spec (ht : c.tasks.size ≤ c.timerCount) (h : k.Ready t) {request : c.QueueId → Request c}
    (hm : ∀ q, (request q).mutex? = none) (queue : Nat) (patience : Patience) :
    Ends (exchange request queue patience) k
      (fun p l => ∃ hq : queue < c.queues.size, (request ⟨queue, hq⟩).buffer.length = elementSize ⟨queue, hq⟩ ∧
        Accepts patience ∧ Asked t k.entered (request ⟨queue, hq⟩) patience p l)
      fun ending l => Fails t k ending l ∧ ∀ hq : queue < c.queues.size,
        (request ⟨queue, hq⟩).buffer.length = elementSize ⟨queue, hq⟩ → Accepts patience →
          ∃ start size, (request ⟨queue, hq⟩).buffer.overlaps start size = true := by
  refine (ends_bind _ _).mpr
    ((ends_queueId queue).mpr ⟨fun hq => ?_, fun hn => ⟨Fails.here nofun, fun hq => absurd hq hn⟩⟩)
  simp only [expectMessageSize, ends_bind, ends_ite, ends_fail, ends_pure, ends_expectPatience, h.ends_enter]
  refine ⟨fun hs => ⟨Fails.here nofun, fun _ hs' => absurd hs' hs⟩, fun hs => ⟨fun ha => ?_, fun ha =>
    ⟨Fails.here nofun, fun _ _ ha' => absurd ha' ha⟩⟩⟩
  have stranger : ∀ x, (request ⟨queue, hq⟩).mutex? = some x → k.entered.holders[x] ≠ some t := by
    intro x hx
    cases (hm _).symm.trans hx
  refine (ask_spec (k := k.entered) ht h.running patience fun _ => stranger).mono (fun p l asked => ?_)
    fun ending l hf => ?_
  · exact ⟨hq, Classical.not_not.mp hs, ha, asked⟩
  · exact ⟨hf.fails.of_edits (.one (e := .enter) trivial), fun _ _ _ => hf.2.2⟩

theorem asks_exchange (ht : c.tasks.size ≤ c.timerCount) (h : k.Ready t) (request : c.QueueId → Request c)
    (hm : ∀ q, (request q).mutex? = none) (ho : ∀ q, (request q).object = .queue q) {queue : Nat} {patience : Patience}
    {call : Call} (hr : ∀ hq : queue < c.queues.size, call.request? c = some (request ⟨queue, hq⟩, patience)) :
    Ends (exchange request queue patience) k (Asks t k call) (Fails t k) := by
  refine (exchange_spec ht h hm queue patience).mono (fun p l hl => ?_) fun _ _ hf => hf.1
  obtain ⟨hq, size, ha, asked⟩ := hl
  refine ⟨_, patience, hr hq, ha, fun q he => ?_, asked⟩
  obtain rfl := WaitObject.queue.inj ((ho _).symm.trans he)
  exact size

theorem asks_spec (ht : c.tasks.size ≤ c.timerCount) (h : k.Ready t) {call : Call} (ha : call.asks = true) :
    Ends (perform call) k (Asks t k call) (Fails t k) := by
  cases call with
  | lock mutex patience => exact lock_spec ht h mutex patience
  | wait semaphore patience => exact wait_spec ht h semaphore patience
  | put queue message patience =>
    exact asks_exchange ht h (.put · message) (fun _ => rfl) (fun _ => rfl) fun hq => dif_pos hq
  | get queue message patience =>
    exact asks_exchange ht h (.get · message) (fun _ => rfl) (fun _ => rfl) fun hq => dif_pos hq
  | _ => cases ha

/-- A call that makes a request to a queue passes a message to or from it. -/
theorem exists_exchange {call : Call} {r : Request c} {patience : Patience} {q : c.QueueId}
    (hr : call.request? c = some (r, patience)) (hq : r.object = .queue q) : ∃ request : c.QueueId → Request c,
      perform call = exchange request q patience ∧ request q = r ∧ ∀ q', (request q').mutex? = none := by
  cases call with
  | put queue message patience' =>
    obtain ⟨hi, he⟩ := Option.dite_none_right_eq_some.mp hr
    cases he
    cases hq
    exact ⟨(.put · message), rfl, rfl, fun _ => rfl⟩
  | get queue message patience' =>
    obtain ⟨hi, he⟩ := Option.dite_none_right_eq_some.mp hr
    cases he
    cases hq
    exact ⟨(.get · message), rfl, rfl, fun _ => rfl⟩
  | lock mutex patience' | wait semaphore patience' =>
    obtain ⟨_, he⟩ := Option.dite_none_right_eq_some.mp hr
    cases he
    cases hq
  | _ => cases hr

/-- A call that passes a message to or from a queue gets an answer if its arguments are right and the message is in
memory of the caller. -/
theorem exchanges_spec (ht : c.tasks.size ≤ c.timerCount) (h : k.Ready t) {call : Call} {r : Request c}
    {patience : Patience} {q : c.QueueId} (hr : call.request? c = some (r, patience)) (hq : r.object = .queue q)
    {bytes : List UInt8} (own : r.buffer = .own bytes) (size : bytes.length = elementSize q) (ha : Accepts patience) :
    Ends (perform call) k (Asks t k call) fun _ _ => False := by
  have fails : Ends (perform call) k (fun _ _ => True) fun _ _ => False := by
    obtain ⟨request, he, rfl, hm⟩ := exists_exchange hr hq
    rw [he]
    refine (exchange_spec ht h hm q patience).mono (fun _ _ _ => trivial) fun _ _ hf => ?_
    obtain ⟨start, n, overlaps⟩ := hf.2 q.isLt ((congrArg Buffer.length own).trans size) ha
    have apart : (request q).buffer.overlaps start n = false := congrArg (·.overlaps start n) own
    cases apart.symm.trans overlaps
  exact ((asks_spec ht h (call.asks_of_request hr)).and fails).mono (fun _ _ ha => ha.1) fun _ _ hf => hf.2

/-- What a call to sleep comes to: zero ticks only give way, and otherwise the task waits for its timeout timer to
fire. -/
inductive Sleeps (t : c.TaskId) (k : Kernel c) (ticks : Ticks) : Progress c → Kernel c → Prop
  | yields (zero : ticks = 0) : Sleeps t k ticks (.dispatch (.returning (some .unit))) k
  | waits {l : Kernel c} (positive : ticks ≠ 0) (accepts : ticks ≤ maxTimeout) (timer : c.TimerId)
    (own : timer.val = c.userTimers + t) (stop : Stops t (k.armed t timer ticks) (.waiting .sleep) l) :
    Sleeps t k ticks (.dispatch (.waiting .sleep)) l

theorem Sleeps.goes {ticks : Ticks} {p : Progress c} {l : Kernel c} (h : Sleeps t k ticks p l) : Goes t k none p l := by
  cases h with
  | yields zero => exact Goes.stop .yields nofun
  | waits positive accepts timer own stop =>
    obtain ⟨es, edits, no⟩ := edits_armed k own ticks
    exact .stops edits (fun x hx => absurd hx (no x)) stop nofun

theorem sleep_spec (ht : c.tasks.size ≤ c.timerCount) (h : k.Ready t) (ticks : Ticks) :
    Ends (sleep ticks) k (Sleeps t k.entered ticks) (Fails t k) := by
  have hr : k.entered.running = some t := h.running
  refine (ends_bind _ _).mpr ((ends_expectTimeout ticks).mpr ⟨fun ha => h.ends_section ?_, fun _ => Fails.here nofun⟩)
  simp only [ends_bind, ends_ite, ends_pure, ends_current_of_running hr, ends_armTimeout ht]
  refine ⟨fun hz => .yields hz, fun hp hi => ?_⟩
  have fresh : (k.entered.armed t ⟨c.userTimers + t, hi⟩ ticks).tasks[t].timedOut = false := by
    have self := k.entered.modifyTask_self t fun s => { s with timedOut := false }
    exact congrArg TaskState.timedOut self
  simp only [sleepOn, ends_bind, ends_current_of_running (k := k.entered.armed t ⟨c.userTimers + t, hi⟩ ticks) hr,
    ends_get, ends_ite, ends_pure, ends_suspend (k := k.entered.armed t ⟨c.userTimers + t, hi⟩ ticks) hr]
  refine ⟨fun hf => ?_, fun _ => .waits hp ha _ rfl (.suspends .sleep nofun)⟩
  cases fresh.symm.trans hf

theorem ends_unlock (hr : k.running = some t) (x : c.MutexId) {ok : Unit → Kernel c → Prop}
    {bad : Ending → Kernel c → Prop} : Ends (unlock x) k ok bad ↔
      (k.holders[x] = some t → ok () ((k.freeMutex x).wakeLockers x).requestSwitch) ∧
        (k.holders[x] ≠ some t → bad (.fatal .mutexNotOwner) k) := by
  simp only [unlock, ends_bind, ends_current_of_running hr, ends_get, ends_ite, ends_fail, ends_modify]
  rw [and_comm, ne_eq, Classical.not_not]

theorem ends_initMax (s : c.SemaphoreId) (max : UInt32) {ok : Unit → Kernel c → Prop}
    {bad : Ending → Kernel c → Prop} : Ends (initMax s max) k ok bad ↔
      (k.semaphores[s].max ≠ none → bad (.fatal .semaphoreMaxAlreadyInit) k) ∧
        (k.semaphores[s].max = none → (max = 0 ∨ max < k.semaphores[s].value → bad (.fatal .semaphoreMaxInvalid) k) ∧
          (max ≠ 0 ∧ k.semaphores[s].value ≤ max → ok () (k.setMax s max))) := by
  simp only [initMax, ends_bind, ends_get, ends_ite, ends_fail, ends_modify]
  rw [ne_eq, Classical.not_not, not_or, UInt32.not_lt]

theorem post_spec (semaphore : c.SemaphoreId) : Ends (post semaphore) k
    (fun _ l => ∃ value, (Edit.addToken semaphore value).Allowed t k ∧ l = (Edit.addToken semaphore value).apply t k)
    (Fails t k) := by
  simp only [post, ends_bind, ends_get]
  cases hv : SemaphoreState.posted? k.semaphores[semaphore] with
  | none => exact Fails.here nofun
  | some value =>
    simp only [ends_bind, ends_modify, ends_ite, ends_pure]
    refine ⟨fun hz => ⟨value, hv, ?_⟩, fun hz => ⟨value, hv, ?_⟩⟩
    · rw [Edit.apply, if_pos hz]
    · rw [Edit.apply, if_neg hz]

/-- A task switch that was asked for is done by entering a critical section. -/
theorem servicePreemption_spec (h : k.Ready t) : Ends servicePreemption k (fun serviced l =>
    (serviced = true ∧ l = k.entered) ∨ (serviced = false ∧ l = k ∧ k.preemptPending = false)) fun _ _ => False := by
  simp only [servicePreemption, ends_bind, ends_get, ends_ite, h.ends_enter, ends_pure]
  refine ⟨fun _ => .inl ⟨trivial, trivial⟩, fun hn => .inr ⟨trivial, trivial, ?_⟩⟩
  simpa [h.enabled] using hn

theorem raise_spec (h : k.Ready t) (event : Nat) : Ends (raise event) k
    (fun p l => Goes t k none p l ∧ l.preemptDisabled = true) (Fails t k) := by
  refine (ends_bind _ _).mpr ((ends_eventId event).mpr ⟨fun hi => ?_, fun _ => Fails.here nofun⟩)
  have ready : (k.recorded ⟨event, hi⟩).Ready t := ⟨h.running, h.context, h.unmasked, h.enabled⟩
  have hn : ¬ (k.recorded ⟨event, hi⟩).processor.context = .interrupt := by
    rw [ready.context]
    exact nofun
  rw [ends_bind, ends_recordEvent h.inside h.unmasked, ends_bind, ends_get, ends_ite]
  refine ⟨fun hc => absurd hc hn, fun _ => ?_⟩
  have serviced := servicePreemption_spec ready
  have edits : Edits t k [.record ⟨event, hi⟩, .enter] (k.recorded ⟨event, hi⟩).entered :=
    .cons trivial (.cons trivial (.nil _))
  refine (ends_bind _ _).mpr (serviced.mono (fun b l hl => ?_) fun _ _ => False.elim)
  rcases hl with ⟨rfl, rfl⟩ | ⟨_, _, hn⟩
  · exact ⟨.done _ edits (by simp), rfl⟩
  · cases hn

theorem yieldTo_spec (h : k.Ready t) (task : Nat) : Ends (yieldTo task) k
    (fun p l => l = k.entered ∧ (p = .dispatch (.returning (some .unit)) ∨
      ∃ u, p = .handOver u (.returning (some .unit)) ∧ k.isRunnable u = true)) (Fails t k) := by
  rw [yieldTo, ends_bind, h.ends_enter, ends_bind, ends_taskId]
  refine ⟨fun hi => ?_, fun _ => Fails.entered nofun⟩
  rw [ends_bind, ends_get, ends_ite]
  refine ⟨fun runnable => ?_, fun _ => ?_⟩
  · exact ⟨rfl, .inr ⟨⟨task, hi⟩, rfl, runnable⟩⟩
  · exact ⟨rfl, .inl rfl⟩

/-- Every other call is a critical section that is left again or stops the task. -/
theorem perform_spec (ht : c.tasks.size ≤ c.timerCount) (h : k.Ready t) (call : Call)
    (hy : ∀ task, call ≠ .yieldTo task) : Ends (perform call) k
      (fun p l => Goes t k (call.mutex? c) p l ∧ l.preemptDisabled = true) (Fails t k) := by
  have hr : k.entered.running = some t := h.running
  cases call with
  -- What only looks at the state
  | currentTask | peekSignals set | now =>
    refine h.section ?_
    simp only [ends_bind, ends_current_of_running hr, ends_get, ends_pure]
    exact Goes.unchanged _
  | holds mutex | isLocked mutex | tokens semaphore | messages queue | ticksToFiring timer =>
    refine h.section ?_
    simp only [ends_bind, ends_mutexId, ends_semaphoreId, ends_queueId, ends_timerId, ends_current_of_running hr,
      ends_get, ends_pure]
    exact ⟨fun _ => Goes.unchanged _, fun _ => Fails.here nofun⟩
  | lock mutex patience | wait semaphore patience | put queue message patience | get queue message patience =>
    exact (asks_spec ht h rfl).mono (fun _ _ ha => ha.section) fun _ _ hf => hf
  | yield => exact h.section (Goes.stop .yields nofun)
  | yieldTo task => exact absurd rfl (hy task)
  | block =>
    refine h.section ((ends_suspend hr .block).mpr ?_)
    exact Goes.stop (.suspends .block nofun) nofun
  | unblock task | start task =>
    refine h.section ?_
    simp only [ends_bind, ends_taskId, ends_modify, ends_pure]
    exact ⟨fun hi => Goes.after (e := .rouse ⟨task, hi⟩) trivial nofun _, fun _ => Fails.here nofun⟩
  | sleep ticks => exact (sleep_spec ht h ticks).mono (fun _ _ hs => hs.goes.of_entered) fun _ _ hf => hf
  | effectivePriority task =>
    refine h.section ?_
    simp only [effectivePriority, ends_bind, ends_taskId, ends_modify, ends_get, ends_pure]
    exact ⟨fun _ => Goes.after (e := .refresh) trivial nofun _, fun _ => Fails.here nofun⟩
  | waitSignals set => exact h.section (takeOrWait_spec hr set)
  | pollSignals set =>
    refine h.section ?_
    simp only [ends_bind, ends_takeSignals hr, ends_pure]
    exact Goes.after (e := .clear set) trivial nofun _
  | sendSignals task set =>
    refine h.section ?_
    simp only [ends_bind, ends_taskId, ends_modify, ends_pure]
    exact ⟨fun hi => Goes.after (e := .send ⟨task, hi⟩ set) trivial nofun _, fun _ => Fails.here nofun⟩
  | unlock mutex =>
    refine h.section ?_
    simp only [ends_bind, ends_mutexId, ends_unlock hr, ends_pure]
    refine ⟨fun hx => ⟨fun own => ?_, fun _ => Fails.here nofun⟩, fun _ => Fails.here nofun⟩
    exact Goes.after (e := .release ⟨mutex, hx⟩) own nofun _
  | post semaphore =>
    refine h.section ?_
    refine (ends_bind _ _).mpr ((ends_semaphoreId semaphore).mpr ⟨fun hi => ?_, fun _ => Fails.here nofun⟩)
    refine Ends.bind (post_spec (t := t) ⟨semaphore, hi⟩) fun _ l hl => ?_
    obtain ⟨value, allowed, rfl⟩ := hl
    exact Goes.after allowed nofun _
  | initMax semaphore max =>
    refine h.section ?_
    simp only [ends_bind, ends_semaphoreId, ends_initMax, ends_pure]
    refine ⟨fun hi => ⟨fun _ => Fails.here nofun, fun unset => ⟨fun _ => Fails.here nofun, fun valid => ?_⟩⟩,
      fun _ => Fails.here nofun⟩
    exact Goes.after (e := .setMax ⟨semaphore, hi⟩ max) ⟨unset, valid⟩ nofun _
  | enableTimer timer =>
    refine h.section ?_
    simp only [ends_bind, ends_timerId, ends_modify, ends_pure]
    refine ⟨fun hi => Goes.timer hi (fun s u he => ?_) _, fun _ => Fails.here nofun⟩
    split at he <;> exact he
  | disableTimer timer | setReload timer reload | takeOverflow timer =>
    refine h.section ?_
    simp only [ends_bind, ends_timerId, ends_get, ends_modify, ends_pure]
    refine ⟨fun hi => Goes.timer hi ?_ _, fun _ => Fails.here nofun⟩
    exact fun _ _ he => he
  | setTimerError timer error =>
    refine h.section ?_
    simp only [ends_bind, ends_timerId, ends_modify, ends_pure]
    refine ⟨fun hi => Goes.timer hi ?_ _, fun _ => Fails.here nofun⟩
    exact nofun
  | oneShot timer timeout =>
    refine (ends_bind _ _).mpr ((ends_expectTimeout timeout).mpr ⟨fun _ => h.section ?_, fun _ => Fails.here nofun⟩)
    simp only [ends_bind, ends_timerId, ends_modify, ends_pure]
    refine ⟨fun hi => Goes.timer hi ?_ _, fun _ => Fails.here nofun⟩
    exact fun _ _ he => he
  | setTimerSignal timer task set =>
    refine h.section ?_
    simp only [ends_bind, ends_taskId, ends_timerId, ends_modify, ends_pure]
    refine ⟨fun _ => ⟨fun hi => Goes.timer hi ?_ _, fun _ => Fails.here nofun⟩, fun _ => Fails.here nofun⟩
    exact nofun
  | raise event => exact raise_spec h event

/-! ## In an interrupt handler -/

theorem ends_enter_of_handler (hc : k.processor.context = .interrupt) {ok : Unit → Kernel c → Prop}
    {bad : Ending → Kernel c → Prop} : Ends enter k ok bad ↔ bad (.fatal .badContext) k := by
  simp [enter, ends_bind, ends_get, ends_ite, ends_fail, hc]

/-- An interrupt handler can raise events. Every other call ends the run and changes nothing. -/
theorem perform_of_handler (hc : k.processor.context = .interrupt) (hm : k.processor.masked = false) (call : Call) :
    Ends (perform call) k (fun p l => p = .returned .unit ∧ ∃ event, l = k.recorded event) (fun _ l => l = k) := by
  cases call with
  | raise event =>
    refine (ends_bind _ _).mpr ((ends_eventId event).mpr ⟨fun hi => ?_, fun _ => rfl⟩)
    have hc' : (k.recorded ⟨event, hi⟩).processor.context = .interrupt := hc
    rw [ends_bind, ends_recordEvent (by rw [hc]; exact nofun) hm, ends_bind, ends_get, ends_ite]
    exact ⟨fun _ => ⟨rfl, _, rfl⟩, fun hn => absurd hc' hn⟩
  | lock mutex patience => simp [perform, lock, ends_bind, ends_expectPatience, ends_enter_of_handler hc]
  | wait semaphore patience => simp [perform, ends_bind, ends_expectPatience, ends_enter_of_handler hc]
  | put queue message patience =>
    simp [perform, put, expectMessageSize, ends_bind, ends_queueId, ends_ite, ends_fail, ends_pure,
      ends_expectPatience, ends_enter_of_handler hc]
  | get queue message patience =>
    simp [perform, receive, expectMessageSize, ends_bind, ends_queueId, ends_ite, ends_fail, ends_pure,
      ends_expectPatience, ends_enter_of_handler hc]
  | sleep ticks => simp [perform, sleep, ends_bind, ends_expectTimeout, ends_enter_of_handler hc]
  | oneShot timer timeout => simp [perform, ends_bind, ends_expectTimeout, ends_enter_of_handler hc]
  | _ => exact (ends_bind _ _).mpr ((ends_enter_of_handler hc).mpr rfl)

end Rtos.Kernel
