import Rtos.Proofs.Kernel.Request
import Rtos.Proofs.Kernel.Recast

/-!
# Sections under two policies

* `Kernel.Mirrors`: the same state under two policies. They may keep what they like, as long as the same tasks are
  runnable.
* `Kernel.Mirrored`: run from states that mirror each other, the sections come out in the same way and leave states
  behind that mirror each other. Sections are made of mirrored ones, with one rule for each way to put them together
  (`Mirrored.bind`, `mirrored_read` and their siblings).
-/

namespace Rtos
set_option autoImplicit false

variable {c : Config} {p : Policy} {α α' β β' γ : Type}

/-- If the ceiling policy is in use, there are no mutexes for which it could act, and every task has a slot. -/
def Config.Unguarded (c : Config) : Prop := c.policy = .ceiling → c.mutexes.size = 0 ∧ c.slotEntries = c.tasks.size

namespace Kernel

variable {k : Kernel c} {l : Kernel (c.under p)}

/-! ## States that mirror each other -/

/-- The states are the same, but for what the policies keep, and the same tasks are runnable. -/
structure Mirrors (k : Kernel c) (l : Kernel (c.under p)) : Prop where
  same : l = k.recast l.schedule
  fits : k.schedule.Fits
  fits' : l.schedule.Fits
  runnable : ∀ t : c.TaskId, l.isRunnable t = k.isRunnable t

namespace Mirrors
variable (h : Mirrors k l)
include h

/-- Whatever is changed without regard to the schedule, in the same way in both states, is the same afterwards. -/
theorem map {f : Kernel c → Kernel c} {g : Kernel (c.under p) → Kernel (c.under p)}
    (hf : ∀ k s, g (k.recast s) = (f k).recast s) (hs : (f k).schedule = k.schedule) : Mirrors (f k) (g l) := by
  have image : g l = (f k).recast l.schedule := (congrArg g h.same).trans (hf k l.schedule)
  have schedule : (g l).schedule = l.schedule := (congrArg Kernel.schedule image).trans rfl
  refine ⟨?_, hs ▸ h.fits, schedule ▸ h.fits', fun t => ?_⟩
  · rw [schedule]
    exact image
  · have runnable := h.runnable t
    unfold isRunnable at runnable ⊢
    rw [schedule, hs]
    exact runnable

theorem processor : l.processor = k.processor := congrArg Kernel.processor h.same

theorem reschedule {s : Schedule c} {s' : Schedule (c.under p)} (fits : s.Fits) (fits' : s'.Fits)
    (runnable : ∀ t : c.TaskId, s'.isRunnable t = s.isRunnable t) :
    Mirrors { k with schedule := s } { l with schedule := s' } := by
  refine ⟨?_, fits, fits', runnable⟩
  have same := h.same
  generalize l.schedule = s'' at same
  rw [same]
  rfl

theorem makeRunnable (t : c.TaskId) : Mirrors (k.makeRunnable t) (l.makeRunnable t) := by
  refine h.reschedule (h.fits.setRunnable t) (h.fits'.setRunnable t) fun u => ?_
  rw [h.fits.isRunnable_setRunnable, h.fits'.isRunnable_setRunnable]
  exact congrArg _ (h.runnable u)

theorem setBlocked (t : c.TaskId) : Mirrors { k with schedule := k.schedule.setBlocked t }
    { l with schedule := l.schedule.setBlocked t } := by
  refine h.reschedule (h.fits.setBlocked t) (h.fits'.setBlocked t) fun u => ?_
  rw [h.fits.isRunnable_setBlocked, h.fits'.isRunnable_setBlocked]
  exact congrArg _ (h.runnable u)

theorem waitersChanged : Mirrors k.waitersChanged l.waitersChanged := by
  refine h.reschedule h.fits.waitersChanged h.fits'.waitersChanged fun t => ?_
  rw [Schedule.isRunnable_waitersChanged, Schedule.isRunnable_waitersChanged]
  exact h.runnable t

theorem refresh : Mirrors k.refresh l.refresh := by
  have fits := fits_refresh h.fits
  have fits' := fits_refresh h.fits'
  obtain ⟨s, hs, runs⟩ := k.refresh_eq
  obtain ⟨s', hs', runs'⟩ := l.refresh_eq
  rw [hs] at fits ⊢
  rw [hs'] at fits' ⊢
  exact h.reschedule fits fits' fun t => ((runs' t).trans (h.runnable t)).trans (runs t).symm

theorem takeMutex (x : c.MutexId) (t : c.TaskId) : Mirrors (k.takeMutex x t) (l.takeMutex x t) := by
  have held : Mirrors { k with holders := k.holders.set x (some t) } { l with holders := l.holders.set x (some t) } :=
    h.map (f := fun k => { k with holders := k.holders.set x (some t) })
      (g := fun l => { l with holders := l.holders.set x (some t) }) (fun _ _ => rfl) rfl
  refine held.reschedule (h.fits.mutexLocked x t) (h.fits'.mutexLocked x t) fun u => ?_
  rw [h.fits.isRunnable_mutexLocked, h.fits'.isRunnable_mutexLocked]
  exact h.runnable u

theorem freeMutex (x : c.MutexId) : Mirrors (k.freeMutex x) (l.freeMutex x) := by
  have freed : Mirrors { k with holders := k.holders.set x none } { l with holders := l.holders.set x none } :=
    h.map (f := fun k => { k with holders := k.holders.set x none })
      (g := fun l => { l with holders := l.holders.set x none }) (fun _ _ => rfl) rfl
  refine freed.reschedule (h.fits.mutexUnlocked x) (h.fits'.mutexUnlocked x) fun u => ?_
  rw [h.fits.isRunnable_mutexUnlocked, h.fits'.isRunnable_mutexUnlocked]
  exact h.runnable u

theorem noteWaiters (o : WaitObject c) : Mirrors (k.noteWaiters o) (l.noteWaiters (o.recast p)) := by
  cases o with
  | mutex x => exact h.waitersChanged
  | semaphore s => exact h
  | queue q => exact h

theorem modifyTask (t : c.TaskId) {f : TaskState c → TaskState c} {g : TaskState (c.under p) → TaskState (c.under p)}
    (hf : ∀ s, g (s.recast p) = (f s).recast p) : Mirrors (k.modifyTask t f) (l.modifyTask t g) :=
  h.map (f := (·.modifyTask t f)) (g := (·.modifyTask t g)) (fun k s => k.modifyTask_recast s t hf) rfl

theorem modifyTimer (id : c.TimerId) {f : TimerState c → TimerState c}
    {g : TimerState (c.under p) → TimerState (c.under p)} (hf : ∀ s, g (s.recast p) = (f s).recast p) :
    Mirrors (k.modifyTimer id f) (l.modifyTimer (sameTimer p id) g) :=
  h.map (f := (·.modifyTimer id f)) (g := (·.modifyTimer (sameTimer p id) g))
    (fun k s => k.modifyTimer_recast s id hf) rfl

theorem setWait (t : c.TaskId) (o : Option (WaitObject c)) :
    Mirrors (k.setWait t o) (l.setWait t (o.map (·.recast p))) := h.modifyTask t fun _ => rfl

theorem sendSignals (t : c.TaskId) (set : SignalSet) : Mirrors (k.sendSignals t set) (l.sendSignals t set) :=
  Mirrors.makeRunnable (h.modifyTask t fun _ => rfl) t

theorem timeOut (t : c.TaskId) :
    Mirrors (k.timeOut t) (l.timeOut t) := Mirrors.makeRunnable (h.modifyTask t fun _ => rfl) t

theorem wake (t : c.TaskId) : Mirrors (k.wake t) (l.wake t) := (h.setWait t none).makeRunnable t

theorem requestSwitch : Mirrors k.requestSwitch l.requestSwitch := h.map (fun _ _ => rfl) rfl

omit h in
theorem foldl_wake (h : Mirrors k l) (ts : List c.TaskId) :
    Mirrors (ts.foldl Kernel.wake k) (ts.foldl Kernel.wake l) := by
  induction ts generalizing k l with
  | nil => exact h
  | cons u us ih => exact ih (h.wake u)

theorem waiters (o : WaitObject c) : l.waiters (o.recast p) = k.waiters o := by
  rw [h.same]
  exact waiters_recast k l.schedule o

theorem wakeWaiters (o : WaitObject c) : Mirrors (k.wakeWaiters o) (l.wakeWaiters (o.recast p)) := by
  unfold Kernel.wakeWaiters
  rw [h.waiters o]
  split
  · exact h
  · exact (h.foldl_wake _).requestSwitch

theorem wakeLockers (x : c.MutexId) : Mirrors (k.wakeLockers x) (l.wakeLockers x) := by
  have waiters : l.waiters (.mutex x) = k.waiters (.mutex x) := h.waiters (.mutex x)
  unfold Kernel.wakeLockers
  rw [waiters]
  split
  · exact h
  · exact (h.wakeWaiters (.mutex x)).waitersChanged

theorem copyIn (message : Buffer) (start : Nat) : Mirrors (k.copyIn message start) (l.copyIn message start) := by
  cases message <;> exact h.map (f := (·.copyIn _ start)) (g := (·.copyIn _ start)) (fun _ _ => rfl) rfl

theorem copyOut (message : Buffer) (start : Nat) : (l.copyOut message start).2 = (k.copyOut message start).2 ∧
    Mirrors (k.copyOut message start).1 (l.copyOut message start).1 := by
  cases message with
  | own bytes =>
    refine ⟨?_, h⟩
    rw [h.same]
    rfl
  | pooled target length =>
    exact ⟨rfl, h.map (f := fun k => { k with pool := Pool.move k.pool start target length })
      (g := fun l => { l with pool := Pool.move l.pool start target length }) (fun _ _ => rfl) rfl⟩

end Mirrors

/-- Where there are no mutexes for which the ceiling policy could act, nobody is kept from locking one. -/
theorem mayLock_of_unguarded (hc : c.Unguarded) (fits : k.schedule.Fits) (x : c.MutexId) (t : c.TaskId) :
    k.mayLock x t = true := by
  unfold mayLock
  split
  · next slots hs =>
    rw [hs] at fits
    have none := (hc fits.1).1
    exact absurd x.isLt (by omega)
  · rfl

/-! ## Mirrored sections -/

/-- Run from states that mirror each other, the sections come out in the same way, and leave states behind that mirror
each other. -/
def Mirrored (f : α → α') (x : Action c α) (y : Action (c.under p) α') : Prop :=
  ∀ ⦃k l⦄, Mirrors k l → Pairs x k y l fun a k' b l' => b = f a ∧ Mirrors k' l'

section Mirrored
variable {f : α → α'} {g : β → β'} {x x' : Action c α} {y y' : Action (c.under p) α'}

theorem mirrored_pure (a : α) : Mirrored f (pure a : Action c α) (pure (f a) : Action (c.under p) α') :=
  fun _ _ mirrors => ⟨rfl, mirrors⟩

theorem mirrored_throw (ending : Ending) :
    Mirrored f (throw ending : Action c α) (throw ending : Action (c.under p) α') :=
  fun _ _ _ => rfl

theorem mirrored_fail (error : FatalError) :
    Mirrored f (fail error : Action c α) (fail error : Action (c.under p) α') :=
  fun _ _ _ => rfl

theorem Mirrored.bindTo {next : α → Action c β} {next' : α' → Action (c.under p) β'} (h : Mirrored f x y)
    (hn : ∀ a, Mirrored g (next a) (next' (f a))) : Mirrored g (x >>= next) (y >>= next') := by
  intro k l mirrors
  refine (h mirrors).bind fun a k' b l' hb => ?_
  obtain ⟨rfl, after⟩ := hb
  exact hn a after

theorem Mirrored.bind {x : Action c γ} {y : Action (c.under p) γ} {next : γ → Action c β}
    {next' : γ → Action (c.under p) β'} (h : Mirrored id x y) (hn : ∀ a, Mirrored g (next a) (next' a)) :
    Mirrored g (x >>= next) (y >>= next') := h.bindTo hn

theorem mirrored_modify {F : Kernel c → Kernel c} {G : Kernel (c.under p) → Kernel (c.under p)}
    (h : ∀ {k l}, Mirrors k l → Mirrors (F k) (G l)) :
    Mirrored id (modify F : Action c PUnit) (modify G : Action (c.under p) PUnit) := fun _ _ mirrors => ⟨rfl, h mirrors⟩

theorem mirrored_change {F : Kernel c → Kernel c} {G : Kernel (c.under p) → Kernel (c.under p)}
    (hf : ∀ k s, G (k.recast s) = (F k).recast s) (hs : ∀ k, (F k).schedule = k.schedule) :
    Mirrored id (modify F : Action c PUnit) (modify G : Action (c.under p) PUnit) :=
  mirrored_modify fun mirrors => mirrors.map hf (hs _)

/-- A section may look at whatever is the same in both states. -/
theorem mirrored_read {next : Kernel c → Action c α} {next' : Kernel (c.under p) → Action (c.under p) α'}
    (h : ∀ k s, Mirrored f (next k) (next' (k.recast s))) : Mirrored f (get >>= next) (get >>= next') := by
  intro k l mirrors
  have there : Pairs (next k) k (next' l) l fun a k' b l' => b = f a ∧ Mirrors k' l' := by
    have section' := h k l.schedule mirrors
    rw [← mirrors.same] at section'
    exact section'
  exact there

/-- A section that replaces the state goes on from there. -/
theorem Mirrored.fromState {k k' : Kernel c} {l l' : Kernel (c.under p)} {rest : PUnit → Action c α}
    {rest' : PUnit → Action (c.under p) α'} (h : Mirrored f (rest ⟨⟩) (rest' ⟨⟩)) (mirrors : Mirrors k' l') :
    Pairs (set k' >>= rest) k (set l' >>= rest') l fun a k b l => b = f a ∧ Mirrors k l := h mirrors

theorem mirrored_ite {q q' : Prop} [Decidable q] [Decidable q'] (same : q' ↔ q) (hx : Mirrored f x y)
    (hy : Mirrored f x' y') :
    Mirrored f (if q then x else x') (if q' then y else y') := fun _ _ mirrors =>
  Pairs.ite same (fun _ => hx mirrors) fun _ => hy mirrors

/-- A section may refuse to go on. -/
theorem Mirrored.unless {q q' : Prop} [Decidable q] [Decidable q'] (same : q' ↔ q) (error : FatalError)
    (h : Mirrored f x y) :
    Mirrored f (do
      if q then fail error
      x) (do
      if q' then fail error
      y) := by
  refine mirrored_ite same (fun _ _ _ => ?_) h
  exact rfl

theorem mirrored_named {q : Prop} [Decidable q] (a : q → α) (b : q → α') (same : ∀ h, b h = f (a h))
    (error : FatalError) :
    Mirrored f (if h : q then pure (a h) else fail error : Action c α)
      (if h : q then pure (b h) else fail error : Action (c.under p) α') := by
  by_cases h : q
  · rw [dif_pos h, dif_pos h, same]
    exact mirrored_pure _
  · rw [dif_neg h, dif_neg h]
    exact mirrored_fail _

theorem Mirrored.forM {body : α → Action c PUnit} {body' : α' → Action (c.under p) PUnit}
    (h : ∀ a, Mirrored id (body a) (body' (f a))) (items : List α) :
    Mirrored id (items.forM body) ((items.map f).forM body') := by
  induction items with
  | nil => exact mirrored_pure _
  | cons a as ih => exact (h a).bind fun _ => ih

end Mirrored

/-! ## What all operations are made of -/

theorem mirrored_taskId (task : Nat) :
    Mirrored id (taskId task : Action c c.TaskId) (taskId task : Action (c.under p) c.TaskId) :=
  mirrored_named _ _ (fun _ => rfl) _

theorem mirrored_mutexId (mutex : Nat) :
    Mirrored id (mutexId mutex : Action c c.MutexId) (mutexId mutex : Action (c.under p) c.MutexId) :=
  mirrored_named _ _ (fun _ => rfl) _

theorem mirrored_semaphoreId (semaphore : Nat) :
    Mirrored id (semaphoreId semaphore : Action c c.SemaphoreId)
    (semaphoreId semaphore : Action (c.under p) c.SemaphoreId) :=
  mirrored_named _ _ (fun _ => rfl) _

theorem mirrored_queueId (queue : Nat) :
    Mirrored id (queueId queue : Action c c.QueueId) (queueId queue : Action (c.under p) c.QueueId) :=
  mirrored_named _ _ (fun _ => rfl) _

theorem mirrored_eventId (event : Nat) :
    Mirrored id (eventId event : Action c c.EventId) (eventId event : Action (c.under p) c.EventId) :=
  mirrored_named _ _ (fun _ => rfl) _

theorem mirrored_timerId (timer : Nat) :
    Mirrored (sameTimer p) (timerId timer : Action c c.TimerId)
    (timerId timer : Action (c.under p) (c.under p).TimerId) :=
  mirrored_named _ _ (fun _ => rfl) _

theorem mirrored_timeoutId (task : c.TaskId) :
    Mirrored (sameTimer p) (timeoutId task) (timeoutId task : Action (c.under p) (c.under p).TimerId) :=
  mirrored_named _ _ (fun _ => rfl) _

theorem mirrored_current : Mirrored id (current : Action c c.TaskId) (current : Action (c.under p) c.TaskId) := by
  refine mirrored_read fun k s => ?_
  have same : (k.recast s).running = k.running := rfl
  rw [same]
  cases k.running with
  | some t => exact mirrored_pure t
  | none => exact mirrored_fail _

theorem mirrored_mask : Mirrored id (mask : Action c Unit) (mask : Action (c.under p) Unit) := by
  intro k l mirrors
  have processor := mirrors.processor
  refine Pairs.get (Pairs.ite (by rw [processor]) (fun _ => rfl) fun _ => ⟨rfl, ?_⟩)
  exact mirrors.map (f := fun k => { k with processor := { k.processor with masked := true } })
    (g := fun l => { l with processor := { l.processor with masked := true } }) (fun _ _ => rfl) rfl

theorem mirrored_unmask : Mirrored id (unmask : Action c Unit) (unmask : Action (c.under p) Unit) := by
  intro k l mirrors
  have processor := mirrors.processor
  refine Pairs.get (Pairs.ite (by rw [processor]) (fun _ => rfl) fun _ => ⟨rfl, ?_⟩)
  exact mirrors.map (f := fun k => { k with processor := { k.processor with masked := false } })
    (g := fun l => { l with processor := { l.processor with masked := false } }) (fun _ _ => rfl) rfl

theorem mirrored_enter : Mirrored id (enter : Action c Unit) (enter : Action (c.under p) Unit) := by
  intro k l mirrors
  have processor := mirrors.processor
  have disabled : l.preemptDisabled = k.preemptDisabled := congrArg Kernel.preemptDisabled mirrors.same
  refine Pairs.get (Pairs.ite (by rw [processor]) (fun _ => rfl) fun _ => Pairs.ite (by rw [processor]) (fun _ => rfl)
    fun _ =>
    Pairs.ite (by rw [disabled]) (fun _ => rfl) fun _ => ⟨rfl, ?_⟩)
  exact mirrors.map (f := fun k => { k with preemptDisabled := true })
    (g := fun l => { l with preemptDisabled := true })
    (fun _ _ => rfl) rfl

theorem Mirrored.entered {f : α → α'} {rest : Unit → Action c α} {rest' : Unit → Action (c.under p) α'}
    (h : Mirrored f (rest ()) (rest' ())) : Mirrored f (enter >>= rest) (enter >>= rest') :=
  mirrored_enter.bind fun _ => h

theorem mirrored_requestSwitch :
    Mirrored id (modify requestSwitch : Action c Unit) (modify requestSwitch : Action (c.under p) Unit) :=
  mirrored_modify fun mirrors => mirrors.requestSwitch

theorem mirrored_done (value : Value) : Mirrored (Progress.recast p) (pure (.done value) : Action c (Progress c))
    (pure (.done value) : Action (c.under p) (Progress (c.under p))) := mirrored_pure (Progress.done value)

theorem mirrored_dispatch (s : Suspension c) : Mirrored (Progress.recast p) (pure (.dispatch s) : Action c (Progress c))
    (pure (.dispatch (s.recast p)) : Action (c.under p) (Progress (c.under p))) := mirrored_pure (Progress.dispatch s)

end Kernel

end Rtos
