import Rtos.Proofs.Kernel.Request

/-!
# Sections of two runs

Two runs are compared in which the same tasks are runnable, but for one task that may be runnable in the first run only.

* `Kernel.Alike`: what the states of two such runs have in common. While the code of a task is executing (`inStep`), it
  is the same task; the dispatchers may have come from different tasks.
* `Kernel.Steady`: run from alike states, the section comes out in the same way and leaves alike states behind. Sections
  are made of steady ones, with one rule for each way to put them together (`Steady.bind`, `steady_read` and their
  siblings).
-/

namespace Rtos
set_option autoImplicit false

variable {c : Config}

namespace Kernel

variable {k l : Kernel c} {t u : c.TaskId} {spurious inStep : Prop} {α β : Type}

/-! ## Alike states -/

/-- In the first state the task `t` may be runnable though it is not in the second one, as long as it is `spurious` that
it is. Apart from that, the states differ only in what the policy and the processor keep for themselves. -/
structure Alike (t : c.TaskId) (spurious inStep : Prop) (k l : Kernel c) : Prop where
  rest : ∃ s q p, l = { k with schedule := s, running := q, processor := p } ∧
    p.context = k.processor.context ∧ p.masked = k.processor.masked
  inStep : inStep → l.running = k.running ∧ l.processor.thread = k.processor.thread
  fits : k.schedule.Fits
  fits' : l.schedule.Fits
  runnable : ∀ u, k.isRunnable u = l.isRunnable u ∨
    (u = t ∧ k.isRunnable u = true ∧ l.isRunnable u = false ∧ spurious)

namespace Alike
variable (h : Alike t spurious inStep k l)
include h

theorem mono {spurious' inStep' : Prop} (hs : spurious → spurious') (hi : inStep' → inStep) :
    Alike t spurious' inStep' k l :=
  ⟨h.rest, fun he => h.inStep (hi he), h.fits, h.fits', fun u =>
    (h.runnable u).imp_right fun ⟨he, hk, hl, known⟩ => ⟨he, hk, hl, hs known⟩⟩

/-- If the one task is runnable in both states, or in none, there is no difference. -/
theorem level (same : k.isRunnable t = l.isRunnable t) : Alike t False inStep k l :=
  ⟨h.rest, h.inStep, h.fits, h.fits', fun u => (h.runnable u).elim .inl fun ⟨he, _⟩ => .inl (he ▸ same)⟩

/-- Where the one task is runnable in the first state only, that is known. -/
theorem sharpen : Alike t (spurious ∧ k.isRunnable t = true ∧ l.isRunnable t = false) inStep k l :=
  ⟨h.rest, h.inStep, h.fits, h.fits', fun u =>
    (h.runnable u).imp_right fun ⟨he, hk, hl, known⟩ => ⟨he, hk, hl, known, he ▸ hk, he ▸ hl⟩⟩

theorem hasPending : l.hasPending = k.hasPending := by
  obtain ⟨_, _, _, rfl, _⟩ := h.rest
  rfl

/-- Whatever is changed without regard to the schedule and the processor stays alike. -/
theorem map {f : Kernel c → Kernel c}
    (hf : ∀ (k : Kernel c) s q p, f { k with schedule := s, running := q, processor := p } =
      { f k with schedule := s, running := q, processor := p }) : Alike t spurious inStep (f k) (f l) := by
  obtain ⟨⟨s, q, p, rfl, context, masked⟩, step, fits, fits', runnable⟩ := h
  have same : f k = { f k with schedule := k.schedule, running := k.running, processor := k.processor } :=
    hf k k.schedule k.running k.processor
  rw [hf k s q p, same]
  exact ⟨⟨s, q, p, rfl, context, masked⟩, step, fits, fits', runnable⟩

theorem reschedule {s s' : Schedule c} (fits : s.Fits) (fits' : s'.Fits)
    (runnable : ∀ u, s.isRunnable u = s'.isRunnable u ∨
      (s.isRunnable u = k.isRunnable u ∧ s'.isRunnable u = l.isRunnable u)) :
    Alike t spurious inStep { k with schedule := s } { l with schedule := s' } := by
  obtain ⟨⟨_, q, p, rfl, same⟩, step, _, _, before⟩ := h
  refine ⟨⟨s', q, p, rfl, same⟩, step, fits, fits', fun u => ?_⟩
  rcases runnable u with he | ⟨hk, hl⟩
  · exact .inl he
  · change s.isRunnable u = s'.isRunnable u ∨ (_ ∧ s.isRunnable u = true ∧ s'.isRunnable u = false ∧ _)
    rw [hk, hl]
    exact before u

theorem reseat {p q : Processor c.tasks.size} (context : q.context = p.context) (masked : q.masked = p.masked)
    (thread : inStep → q.thread = p.thread) :
    Alike t spurious inStep { k with processor := p } { l with processor := q } := by
  obtain ⟨⟨s, r, _, rfl, _⟩, step, fits, fits', runnable⟩ := h
  exact ⟨⟨s, r, q, rfl, context, masked⟩, fun hs => ⟨(step hs).1, thread hs⟩, fits, fits', runnable⟩

theorem processor : l.processor.context = k.processor.context ∧ l.processor.masked = k.processor.masked := by
  obtain ⟨_, _, _, rfl, same⟩ := h.rest
  exact same

theorem makeRunnable (u : c.TaskId) : Alike t spurious inStep (k.makeRunnable u) (l.makeRunnable u) := by
  refine h.reschedule (h.fits.setRunnable u) (h.fits'.setRunnable u) fun v => ?_
  rw [h.fits.isRunnable_setRunnable, h.fits'.isRunnable_setRunnable]
  by_cases hv : v = u
  · simp [hv]
  · simp [hv, isRunnable]

theorem setBlocked (u : c.TaskId) : Alike t spurious inStep { k with schedule := k.schedule.setBlocked u }
    { l with schedule := l.schedule.setBlocked u } := by
  refine h.reschedule (h.fits.setBlocked u) (h.fits'.setBlocked u) fun v => ?_
  rw [h.fits.isRunnable_setBlocked, h.fits'.isRunnable_setBlocked]
  by_cases hv : v = u
  · simp [hv]
  · simp [hv, isRunnable]

theorem waitersChanged : Alike t spurious inStep k.waitersChanged l.waitersChanged :=
  h.reschedule h.fits.waitersChanged h.fits'.waitersChanged fun u =>
    .inr ⟨Schedule.isRunnable_waitersChanged _ u, Schedule.isRunnable_waitersChanged _ u⟩

theorem refresh : Alike t spurious inStep k.refresh l.refresh := by
  have fits := fits_refresh h.fits
  have fits' := fits_refresh h.fits'
  obtain ⟨s, hs, runs⟩ := k.refresh_eq
  obtain ⟨s', hs', runs'⟩ := l.refresh_eq
  rw [hs] at fits ⊢
  rw [hs'] at fits' ⊢
  exact h.reschedule fits fits' fun u => .inr ⟨runs u, runs' u⟩

theorem takeMutex (x : c.MutexId) (u : c.TaskId) : Alike t spurious inStep (k.takeMutex x u) (l.takeMutex x u) := by
  have held := h.map (f := fun k => { k with holders := k.holders.set x (some u) }) fun _ _ _ _ => rfl
  exact held.reschedule (h.fits.mutexLocked x u) (h.fits'.mutexLocked x u) fun v =>
    .inr ⟨h.fits.isRunnable_mutexLocked x u v, h.fits'.isRunnable_mutexLocked x u v⟩

theorem freeMutex (x : c.MutexId) : Alike t spurious inStep (k.freeMutex x) (l.freeMutex x) := by
  have freed := h.map (f := fun k => { k with holders := k.holders.set x none }) fun _ _ _ _ => rfl
  exact freed.reschedule (h.fits.mutexUnlocked x) (h.fits'.mutexUnlocked x) fun v =>
    .inr ⟨h.fits.isRunnable_mutexUnlocked x v, h.fits'.isRunnable_mutexUnlocked x v⟩

theorem noteWaiters (o : WaitObject c) : Alike t spurious inStep (k.noteWaiters o) (l.noteWaiters o) := by
  cases o with
  | mutex x => exact h.waitersChanged
  | semaphore s => exact h
  | queue q => exact h

theorem sendSignals (u : c.TaskId) (set : SignalSet) :
    Alike t spurious inStep (k.sendSignals u set) (l.sendSignals u set) := by
  have sent := h.map (f := (·.modifyTask u fun s => { s with signals := s.signals ||| set })) fun _ _ _ _ => rfl
  exact sent.makeRunnable u

theorem timeOut (u : c.TaskId) : Alike t spurious inStep (k.timeOut u) (l.timeOut u) := by
  have late := h.map (f := (·.modifyTask u fun s => { s with timedOut := true })) fun _ _ _ _ => rfl
  exact late.makeRunnable u

theorem wake (u : c.TaskId) : Alike t spurious inStep (k.wake u) (l.wake u) := by
  have erased := h.map (f := (·.setWait u none)) fun _ _ _ _ => rfl
  exact erased.makeRunnable u

omit h in
theorem foldl_wake (h : Alike t spurious inStep k l) (ts : List c.TaskId) :
    Alike t spurious inStep (ts.foldl Kernel.wake k) (ts.foldl Kernel.wake l) := by
  induction ts generalizing k l with
  | nil => exact h
  | cons u us ih => exact ih (h.wake u)

theorem waiters (o : WaitObject c) : l.waiters o = k.waiters o := by
  obtain ⟨_, _, _, rfl, _⟩ := h.rest
  rfl

theorem wakeWaiters (o : WaitObject c) : Alike t spurious inStep (k.wakeWaiters o) (l.wakeWaiters o) := by
  unfold Kernel.wakeWaiters
  rw [h.waiters o]
  split
  · exact h
  · exact (h.foldl_wake _).map (f := requestSwitch) fun _ _ _ _ => rfl

theorem wakeLockers (x : c.MutexId) : Alike t spurious inStep (k.wakeLockers x) (l.wakeLockers x) := by
  unfold Kernel.wakeLockers
  rw [h.waiters]
  split
  · exact h
  · exact (h.wakeWaiters _).waitersChanged

theorem copyIn (message : Buffer) (start : Nat) :
    Alike t spurious inStep (k.copyIn message start) (l.copyIn message start) := by
  cases message with
  | own bytes => exact h.map (f := fun k => { k with pool := Pool.store k.pool start bytes }) fun _ _ _ _ => rfl
  | pooled source length =>
    exact h.map (f := fun k => { k with pool := Pool.move k.pool source start length }) fun _ _ _ _ => rfl

theorem copyOut (message : Buffer) (start : Nat) : (l.copyOut message start).2 = (k.copyOut message start).2 ∧
    Alike t spurious inStep (k.copyOut message start).1 (l.copyOut message start).1 := by
  cases message with
  | own bytes =>
    refine ⟨?_, h⟩
    obtain ⟨_, _, _, rfl, _⟩ := h.rest
    rfl
  | pooled target length =>
    exact ⟨rfl, h.map (f := fun k => { k with pool := Pool.move k.pool start target length }) fun _ _ _ _ => rfl⟩

/-- Both schedules are of the configured policy. -/
theorem schedules : (c.policy = .strict ∧ ∃ r r', k.schedule = .strict r ∧ l.schedule = .strict r') ∨
    (∃ s s', k.schedule = .ceiling s ∧ l.schedule = .ceiling s' ∧
      s'.taskSlot = s.taskSlot ∧ s'.mutexSlot = s.mutexSlot) ∨
    c.policy = .inheritance ∧ ∃ r p b r' p' b', k.schedule = .inheritance r p b ∧
      l.schedule = .inheritance r' p' b' := by
  have fits := h.fits
  have fits' := h.fits'
  cases hk : k.schedule <;> cases hl : l.schedule <;> rw [hk] at fits <;> rw [hl] at fits'
  case strict.strict => exact .inl ⟨fits, _, _, rfl, rfl⟩
  case ceiling.ceiling =>
    exact .inr (.inl ⟨_, _, rfl, rfl, fits'.2.2.1.trans fits.2.2.1.symm, fits'.2.2.2.trans fits.2.2.2.symm⟩)
  case inheritance.inheritance => exact .inr (.inr ⟨fits, _, _, _, _, _, _, rfl, rfl⟩)
  all_goals simp only [Schedule.Fits] at fits fits'
  all_goals simp [fits] at fits'

/-- What a task may lock depends on the layout of the row only. -/
theorem mayLock (x : c.MutexId) (u : c.TaskId) : l.mayLock x u = k.mayLock x u := by
  unfold Kernel.mayLock
  rcases h.schedules with ⟨_, _, _, hk, hl⟩ | ⟨_, _, hk, hl, tasks, mutexes⟩ | ⟨_, _, _, _, _, _, _, hk, hl⟩
  · rw [hk, hl]
  · rw [hk, hl]
    simp only [SlotTable.mayLock, tasks, mutexes]
  · rw [hk, hl]

theorem priorityOf (hp : c.policy ≠ .inheritance) (u : c.TaskId) : l.priorityOf u = k.priorityOf u := by
  unfold Kernel.priorityOf
  rcases h.schedules with ⟨_, _, _, hk, hl⟩ | ⟨_, _, hk, hl, _⟩ | ⟨inherits, _⟩
  · rw [hk, hl]
  · rw [hk, hl]
    obtain ⟨_, _, _, rfl, _⟩ := h.rest
    rfl
  · exact absurd inherits hp

end Alike

/-! ## Steady sections -/

/-- Run from alike states, the section comes out in the same way, and leaves alike states behind. -/
def Steady (t : c.TaskId) (spurious inStep : Prop) (x : Action c α) : Prop :=
  ∀ ⦃k l⦄, Alike t spurious inStep k l → Pairs x k x l fun a k' b l' => b = a ∧ Alike t spurious inStep k' l'

theorem steady_pure (a : α) : Steady t spurious inStep (pure a : Action c α) := fun _ _ alike => ⟨rfl, alike⟩

theorem steady_fail (error : FatalError) : Steady t spurious inStep (fail error : Action c α) := fun _ _ _ => rfl

theorem steady_modify {f : Kernel c → Kernel c}
    (h : ∀ {k l}, Alike t spurious inStep k l → Alike t spurious inStep (f k) (f l)) :
    Steady t spurious inStep (modify f : Action c PUnit) := fun _ _ alike => ⟨rfl, h alike⟩

theorem steady_change {f : Kernel c → Kernel c}
    (hf : ∀ (k : Kernel c) s q p, f { k with schedule := s, running := q, processor := p } =
      { f k with schedule := s, running := q, processor := p }) : Steady t spurious inStep
      (modify f : Action c PUnit) :=
  fun _ _ alike => ⟨rfl, alike.map hf⟩

theorem steady_ite {p : Prop} [Decidable p] {x y : Action c α} (hx : Steady t spurious inStep x)
    (hy : Steady t spurious inStep y) : Steady t spurious inStep (if p then x else y) := by
  split
  · exact hx
  · exact hy

theorem Steady.bind {x : Action c α} {f : α → Action c β} (h : Steady t spurious inStep x)
    (hf : ∀ a, Steady t spurious inStep (f a)) : Steady t spurious inStep (x >>= f) := by
  intro k l alike
  refine (h alike).bind fun a k' b l' hb => ?_
  obtain ⟨rfl, after⟩ := hb
  exact hf b after

/-- A section may look at whatever is the same in both states. -/
theorem steady_read {f : Kernel c → Action c α}
    (same : ∀ k s q p, f { k with schedule := s, running := q, processor := p } = f k)
    (h : ∀ k, Steady t spurious inStep (f k)) : Steady t spurious inStep (get >>= f) := by
  intro k l alike
  have there : Pairs (f k) k (f l) l fun a k' b l' => b = a ∧ Alike t spurious inStep k' l' := by
    obtain ⟨s, q, p, he, _⟩ := alike.rest
    rw [show f l = f k by rw [he, same]]
    exact h k alike
  exact there

theorem Steady.forM {body : β → Action c PUnit} (h : ∀ b, Steady t spurious inStep (body b)) (items : List β) :
    Steady t spurious inStep (items.forM body) := by
  induction items with
  | nil => exact steady_pure _
  | cons b bs ih => exact (h b).bind fun _ => ih

/-! ## What all operations are made of -/

/-- A number that names no object ends both runs. -/
theorem steady_named {p : Prop} [Decidable p] (f : p → α) (error : FatalError) :
    Steady t spurious inStep (if h : p then pure (f h) else fail error : Action c α) := by
  split
  · exact steady_pure _
  · exact steady_fail _

theorem steady_taskId (task : Nat) : Steady t spurious inStep (taskId task : Action c c.TaskId) :=
  steady_named _ _

theorem steady_mutexId (mutex : Nat) : Steady t spurious inStep (mutexId mutex : Action c c.MutexId) :=
  steady_named _ _

theorem steady_semaphoreId (semaphore : Nat) :
    Steady t spurious inStep (semaphoreId semaphore : Action c c.SemaphoreId) :=
  steady_named _ _

theorem steady_queueId (queue : Nat) : Steady t spurious inStep (queueId queue : Action c c.QueueId) :=
  steady_named _ _

theorem steady_eventId (event : Nat) : Steady t spurious inStep (eventId event : Action c c.EventId) :=
  steady_named _ _

theorem steady_timerId (timer : Nat) : Steady t spurious inStep (timerId timer : Action c c.TimerId) :=
  steady_named _ _

theorem steady_timeoutId (task : c.TaskId) : Steady t spurious inStep (timeoutId task) := steady_named _ _

theorem steady_current (step : inStep) : Steady t spurious inStep (current : Action c c.TaskId) := by
  intro k l alike
  refine Pairs.get ?_
  rw [(alike.inStep step).1]
  split
  · exact ⟨rfl, alike⟩
  · exact rfl

theorem steady_mask : Steady t spurious inStep (mask : Action c Unit) := by
  intro k l alike
  obtain ⟨context, masked⟩ := alike.processor
  refine Pairs.get (Pairs.ite (by rw [context, masked]) (fun _ => rfl) fun _ => ⟨rfl, ?_⟩)
  exact alike.reseat context rfl fun step => (alike.inStep step).2

theorem steady_unmask : Steady t spurious inStep (unmask : Action c Unit) := by
  intro k l alike
  obtain ⟨context, masked⟩ := alike.processor
  refine Pairs.get (Pairs.ite (by rw [context, masked]) (fun _ => rfl) fun _ => ⟨rfl, ?_⟩)
  exact alike.reseat context rfl fun step => (alike.inStep step).2

theorem steady_enter : Steady t spurious inStep (enter : Action c Unit) := by
  intro k l alike
  obtain ⟨context, _⟩ := alike.processor
  have disabled : l.preemptDisabled = k.preemptDisabled := by
    obtain ⟨_, _, _, rfl, _⟩ := alike.rest
    rfl
  refine Pairs.get (Pairs.ite (by rw [context]) (fun _ => rfl) fun _ => Pairs.ite (by rw [context]) (fun _ => rfl)
    fun _ =>
    Pairs.ite (by rw [disabled]) (fun _ => rfl) fun _ => ⟨rfl, ?_⟩)
  exact alike.map (f := fun k => { k with preemptDisabled := true }) fun _ _ _ _ => rfl

theorem Steady.entered {rest : Unit → Action c α} (h : Steady t spurious inStep (rest ())) :
    Steady t spurious inStep (enter >>= rest) := Steady.bind steady_enter fun _ => h

theorem steady_requestSwitch : Steady t spurious inStep (modify requestSwitch : Action c Unit) :=
  steady_change fun _ _ _ _ => rfl

end Kernel

end Rtos
