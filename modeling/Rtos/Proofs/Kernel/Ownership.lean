import Rtos.Proofs.Kernel.Edit

/-!
# The task that owns the processor

* `Kernel.Quiet`: a change that neither waiting nor scheduling depends on.
* `Kernel.Owned`: a task owns the processor, the records of waits and the schedule are in order, and unless a task
  switch is asked for, the policy would choose that very task.
* `Narrows`: nobody gets to hold a mutex, and nobody stops being runnable; this goes for every change but one.
* `Owned.edits`: whatever the task has the kernel do, this stays so: a change that may change the decision of the policy
  asks for a task switch.
* `Owned.stops`: once the task has stopped, the records are right without it.
-/

namespace Rtos.Kernel
set_option autoImplicit false

variable {c : Config} {k l : Kernel c} {t : c.TaskId} {suspensions : Table (Suspension c) c.tasks.size}

/-! ## Changes that do not matter to the schedule -/

/-- Neither the schedule, nor a holder, nor a record of a wait changes. -/
structure Quiet (k l : Kernel c) : Prop where
  schedule : l.schedule = k.schedule
  holders : l.holders = k.holders
  wait : ∀ u : c.TaskId, l.tasks[u].wait = k.tasks[u].wait

namespace Quiet

theorem isRunnable (h : Quiet k l) (u : c.TaskId) : l.isRunnable u = k.isRunnable u := by
  rw [Kernel.isRunnable, Kernel.isRunnable, h.schedule]

theorem blocker (h : Quiet k l) : l.blocker = k.blocker :=
  blocker_congr h.isRunnable (fun u _ => h.wait u) fun _ x _ _ => by rw [h.holders]

theorem scheduled (h : Quiet k l) (hs : k.Scheduled) : l.Scheduled := hs.of_schedule_eq h.schedule h.holders h.blocker

theorem decision (h : Quiet k l) : l.decision = k.decision := decision_congr (.inl h.schedule) h.blocker

end Quiet

/-! ## The schedule stays in agreement -/

theorem quiet_clearSignals (k : Kernel c) (u : c.TaskId) (set : SignalSet) : Quiet k (k.clearSignals u set) :=
  ⟨rfl, rfl, fun v => wait_modifyTask k u v (fun s => { s with signals := s.signals &&& ~~~set }) fun _ => rfl⟩

theorem quiet_resetTimeout (k : Kernel c) (u : c.TaskId) :
    Quiet k (k.modifyTask u fun s => { s with timedOut := false }) :=
  ⟨rfl, rfl, fun v => wait_modifyTask k u v (fun s => { s with timedOut := false }) fun _ => rfl⟩

theorem quiet_modifyTimer (k : Kernel c) (id : c.TimerId) (change : TimerState c → TimerState c) :
    Quiet k (k.modifyTimer id change) :=
  ⟨rfl, rfl, fun _ => rfl⟩

theorem quiet_setValue (k : Kernel c) (s : c.SemaphoreId) (value : UInt32) : Quiet k (k.setValue s value) :=
  ⟨rfl, rfl, fun _ => rfl⟩

theorem quiet_setMax (k : Kernel c) (s : c.SemaphoreId) (max : UInt32) : Quiet k (k.setMax s max) :=
  ⟨rfl, rfl, fun _ => rfl⟩

theorem quiet_copyIn_pushed (k : Kernel c) (q : c.QueueId) (message : Buffer) (start : Nat) :
    Quiet k ((k.copyIn message start).pushed q) := by
  cases message <;> exact ⟨rfl, rfl, fun _ => rfl⟩

theorem quiet_copyOut_popped (k : Kernel c) (q : c.QueueId) (message : Buffer) (start : Nat) :
    Quiet k ((k.copyOut message start).1.popped q) := by
  cases message <;> exact ⟨rfl, rfl, fun _ => rfl⟩

/-- A change keeps the schedule in agreement, and if it may change the decision of the policy it asks for a task
switch. -/
structure Settles (t : c.TaskId) (k l : Kernel c) : Prop where
  scheduled : l.Scheduled
  decision : k.decision = .ok (some t) → l.preemptPending = true ∨ l.decision = .ok (some t)

theorem Quiet.settles (h : Quiet k l) (hs : k.Scheduled) : Settles t k l :=
  ⟨h.scheduled hs, fun hd => .inr (h.decision.trans hd)⟩

theorem Quiet.settles_wakeWaiters {m : Kernel c} (h : Quiet k m) (hs : k.Scheduled) (o : WaitObject c) :
    Settles t k (m.wakeWaiters o) := by
  have hw := (h.scheduled hs).wakeWaiters o
  refine ⟨hw.scheduled, fun hd => ?_⟩
  rcases hw.pending with he | hp
  · rw [he]
    exact .inr (h.decision.trans hd)
  · exact .inl hp

/-- The record of a runnable task does not matter. -/
theorem settles_setWait (hs : k.Scheduled) (hr : k.isRunnable t = true) (wait : Option (WaitObject c))
    (o : WaitObject c) : Settles t k ((k.setWait t wait).noteWaiters o) := by
  have hb : (k.setWait t wait).blocker = k.blocker := by
    refine blocker_congr (fun _ => rfl) (fun u hu => ?_) fun _ _ _ _ => rfl
    have hut : u ≠ t := by
      rintro rfl
      rw [hr] at hu
      cases hu
    rw [k.setWait_ne wait hut]
  have changed : Settles t k (k.setWait t wait).waitersChanged := by
    have hb' : (k.setWait t wait).waitersChanged.blocker = k.blocker := (blocker_waitersChanged _).trans hb
    exact ⟨hs.of_waitersChanged rfl rfl, fun hd => .inr ((decision_congr (.inr rfl) hb').trans hd)⟩
  have unchanged : Settles t k (k.setWait t wait) :=
    ⟨hs.of_schedule_eq rfl rfl hb, fun hd =>
      .inr ((decision_congr (k := k) (l := k.setWait t wait) (.inl rfl) hb).trans hd)⟩
  cases o with
  | mutex x => exact changed
  | semaphore s => exact unchanged
  | queue q => exact unchanged

/-- Every change keeps the schedule in agreement, and if it may change the decision of the policy it asks for a task
switch. -/
theorem settles_edit (hs : k.Scheduled) (hw : k.Waits suspensions (some t)) (e : Edit c) (ha : e.Allowed t k) :
    Settles t k (e.apply t k) := by
  cases e with
  | enter => exact Quiet.settles ⟨rfl, rfl, fun _ => rfl⟩ hs
  | record event => exact Quiet.settles ⟨rfl, rfl, fun _ => rfl⟩ hs
  | refresh => exact ⟨hs.refresh, fun hd => .inr (k.decision_refresh.trans hd)⟩
  | rouse task => exact ⟨hs.of_setRunnable rfl rfl, fun _ => .inl rfl⟩
  | send task set => exact ⟨hs.of_setRunnable rfl rfl, fun _ => .inl rfl⟩
  | clear set => exact (quiet_clearSignals k t set).settles hs
  | resetTimeout => exact (quiet_resetTimeout k t).settles hs
  | timer id change => exact (quiet_modifyTimer k id change).settles hs
  -- Nobody waits for a free mutex, so taking one blocks nobody and the decision stands without a task switch.
  | take mutex =>
    exact ⟨hs.of_mutexLocked rfl rfl, fun hd => .inr (hs.decision_takeMutex hd (hw.blocker_takeMutex hs ha))⟩
  | release mutex =>
    have free : (k.freeMutex mutex).Scheduled := hs.of_mutexUnlocked rfl rfl
    exact ⟨(free.wakeLockers mutex).scheduled.of_schedule_eq rfl rfl rfl, fun _ => .inl rfl⟩
  | takeToken semaphore => exact (quiet_setValue k semaphore _).settles hs
  | addToken semaphore value =>
    rw [Edit.apply]
    split
    · exact (quiet_setValue k semaphore value).settles_wakeWaiters hs _
    · exact (quiet_setValue k semaphore value).settles hs
  | setMax semaphore max => exact (quiet_setMax k semaphore max).settles hs
  | store queue message =>
    simp only [Edit.apply]
    split
    · exact (quiet_copyIn_pushed k queue message _).settles_wakeWaiters hs _
    · exact (quiet_copyIn_pushed k queue message _).settles hs
  | fetch queue message =>
    simp only [Edit.apply]
    split
    · exact (quiet_copyOut_popped k queue message _).settles_wakeWaiters hs _
    · exact (quiet_copyOut_popped k queue message _).settles hs
  | endWait object => exact settles_setWait hs (hw.active_runnable t rfl) none object

/-! ## Changes that take no mutex -/

/-- Nobody gets to hold a mutex, and nobody stops being runnable. -/
structure Narrows (k l : Kernel c) : Prop where
  holders : ∀ (x : c.MutexId) u, l.holders[x] = some u → k.holders[x] = some u
  runnable : ∀ u, k.isRunnable u = true → l.isRunnable u = true

namespace Narrows

theorem refl (k : Kernel c) : Narrows k k := ⟨fun _ _ hx => hx, fun _ hu => hu⟩

theorem trans {m : Kernel c} (h : Narrows k l) (h' : Narrows l m) : Narrows k m :=
  ⟨fun x u hx => h.holders x u (h'.holders x u hx), fun u hu => h'.runnable u (h.runnable u hu)⟩

theorem of_eq (hh : l.holders = k.holders) (hr : ∀ u, l.isRunnable u = k.isRunnable u) : Narrows k l :=
  ⟨fun x u hx => by rwa [hh] at hx, fun u hu => (hr u).trans hu⟩

theorem of_setRunnable (hs : k.Scheduled) {u : c.TaskId} (hl : l.schedule = k.schedule.setRunnable u)
    (hh : l.holders = k.holders) : Narrows k l := by
  refine ⟨fun x v hx => by rwa [hh] at hx, fun v hv => ?_⟩
  rw [Kernel.isRunnable, hl, hs.fits.isRunnable_setRunnable, ← Kernel.isRunnable, hv, Bool.or_true]

end Narrows

theorem Quiet.narrows (h : Quiet k l) : Narrows k l := .of_eq h.holders h.isRunnable

theorem Woken.narrows {o : WaitObject c} (h : Woken o k l) : Narrows k l :=
  ⟨fun x u hx => by rwa [h.holders] at hx, fun _ hu => h.isRunnable_of hu⟩

theorem Quiet.narrows_wakeWaiters {m : Kernel c} (h : Quiet k m) (hs : k.Scheduled) (o : WaitObject c) :
    Narrows k (m.wakeWaiters o) :=
  h.narrows.trans ((h.scheduled hs).wakeWaiters o).narrows

theorem narrows_edit (hs : k.Scheduled) (e : Edit c) (he : ∀ x, .take x ≠ e) : Narrows k (e.apply t k) := by
  cases e with
  | enter => exact .of_eq rfl fun _ => rfl
  | record event => exact .of_eq rfl fun _ => rfl
  | refresh =>
    obtain ⟨s, hk, hr⟩ := k.refresh_eq
    rw [Edit.apply, hk]
    exact .of_eq rfl hr
  | rouse task => exact .of_setRunnable hs (u := task) rfl rfl
  | send task set => exact .of_setRunnable hs (u := task) rfl rfl
  | clear set => exact (quiet_clearSignals k t set).narrows
  | resetTimeout => exact (quiet_resetTimeout k t).narrows
  | timer id change => exact (quiet_modifyTimer k id change).narrows
  | take mutex => exact absurd rfl (he mutex)
  | release mutex =>
    have free : Narrows k (k.freeMutex mutex) := by
      refine ⟨fun x u hx => ?_, fun u hu => (hs.fits.isRunnable_mutexUnlocked mutex u).trans hu⟩
      by_cases hne : x = mutex
      · subst hne
        have hself : (k.freeMutex x).holders[x] = none := Table.getElem_set_self ..
        cases hself.symm.trans hx
      · exact (Table.getElem_set_of_ne k.holders none hne).symm.trans hx
    have scheduled : (k.freeMutex mutex).Scheduled := hs.of_mutexUnlocked rfl rfl
    exact (free.trans (scheduled.wakeLockers mutex).narrows).trans (.of_eq rfl fun _ => rfl)
  | takeToken semaphore => exact (quiet_setValue k semaphore _).narrows
  | addToken semaphore value =>
    rw [Edit.apply]
    split
    · exact (quiet_setValue k semaphore value).narrows_wakeWaiters hs _
    · exact (quiet_setValue k semaphore value).narrows
  | setMax semaphore max => exact (quiet_setMax k semaphore max).narrows
  | store queue message =>
    simp only [Edit.apply]
    split
    · exact (quiet_copyIn_pushed k queue message _).narrows_wakeWaiters hs _
    · exact (quiet_copyIn_pushed k queue message _).narrows
  | fetch queue message =>
    simp only [Edit.apply]
    split
    · exact (quiet_copyOut_popped k queue message _).narrows_wakeWaiters hs _
    · exact (quiet_copyOut_popped k queue message _).narrows
  | endWait object =>
    obtain ⟨s, hk, hr⟩ := (k.setWait t none).noteWaiters_eq object
    rw [Edit.apply, hk]
    exact .of_eq rfl hr

/-! ## Making tasks runnable -/

theorem isRunnable_edit (hs : k.Scheduled) (e : Edit c) {u : c.TaskId} (hu : k.isRunnable u = true) :
    (e.apply t k).isRunnable u = true := by
  by_cases he : ∃ x, .take x = e
  · obtain ⟨x, rfl⟩ := he
    exact (hs.fits.isRunnable_mutexLocked x t u).trans hu
  · exact (narrows_edit hs e fun x hx => he ⟨x, hx⟩).runnable u hu

theorem Quiet.roused_wakeWaiters {m : Kernel c} (h : Quiet k m) (hs : k.Scheduled) (o : WaitObject c) {u : c.TaskId}
    (hu : (m.wakeWaiters o).isRunnable u = true) : k.isRunnable u = true ∨ (m.wakeWaiters o).preemptPending = true := by
  rcases ((h.scheduled hs).wakeWaiters o).pending with he | hp
  · rw [he, h.isRunnable] at hu
    exact .inl hu
  · exact .inr hp

/-- A change that makes a task runnable asks for a task switch. -/
theorem roused_edit (hs : k.Scheduled) (e : Edit c) {u : c.TaskId} (hu : (e.apply t k).isRunnable u = true) :
    k.isRunnable u = true ∨ (e.apply t k).preemptPending = true := by
  cases e with
  | enter | record event | clear set | resetTimeout | timer id change | takeToken semaphore | setMax semaphore max =>
    exact .inl hu
  | refresh =>
    obtain ⟨s, hk, hr⟩ := k.refresh_eq
    rw [Edit.apply, hk] at hu
    exact .inl ((hr u).symm.trans hu)
  | rouse task | send task set | release mutex => exact .inr rfl
  | take mutex => exact .inl ((hs.fits.isRunnable_mutexLocked mutex t u).symm.trans hu)
  | addToken semaphore value =>
    rw [Edit.apply] at hu ⊢
    split at hu
    · next hv =>
      rw [if_pos hv]
      exact (quiet_setValue k semaphore value).roused_wakeWaiters hs _ hu
    · exact .inl hu
  | store queue message =>
    simp only [Edit.apply] at hu ⊢
    split at hu
    · next hz =>
      rw [if_pos hz]
      exact (quiet_copyIn_pushed k queue message _).roused_wakeWaiters hs _ hu
    · exact .inl (((quiet_copyIn_pushed k queue message _).isRunnable u).symm.trans hu)
  | fetch queue message =>
    simp only [Edit.apply] at hu ⊢
    split at hu
    · next hf =>
      rw [if_pos hf]
      exact (quiet_copyOut_popped k queue message _).roused_wakeWaiters hs _ hu
    · exact .inl (((quiet_copyOut_popped k queue message _).isRunnable u).symm.trans hu)
  | endWait object =>
    obtain ⟨s, hk, hr⟩ := (k.setWait t none).noteWaiters_eq object
    rw [Edit.apply, hk] at hu
    exact .inl ((hr u).symm.trans hu)

/-! ## The records of waits stay right -/

theorem Quiet.waits (h : Quiet k l) (hw : k.Waits suspensions (some t))
    (hv : ∀ s : c.SemaphoreId, l.semaphores[s].value = k.semaphores[s].value)
    (hq : ∀ q : c.QueueId, l.rings[q].count = k.rings[q].count) : l.Waits suspensions (some t) :=
  hw.of_runnable (fun u hu => (h.isRunnable u).trans hu) h.wait h.holders hv hq

theorem waits_setRunnable {active : Option c.TaskId} (hs : k.Scheduled) (hw : k.Waits suspensions active)
    {u : c.TaskId} (hl : l.schedule = k.schedule.setRunnable u) (ht : ∀ v : c.TaskId, l.tasks[v].wait = k.tasks[v].wait)
    (hh : l.holders = k.holders) (hv : l.semaphores = k.semaphores) (hq : l.rings = k.rings) :
    l.Waits suspensions active := by
  refine hw.of_runnable (fun v hr => ?_) ht hh (fun s => by rw [hv]) fun q => by rw [hq]
  rw [Kernel.isRunnable, hl, hs.fits.isRunnable_setRunnable, ← Kernel.isRunnable, hr, Bool.or_true]

/-- Of all that waiting depends on, a change touches the semaphore or the queue `o` at most. -/
structure Touches (o : WaitObject c) (k l : Kernel c) : Prop where
  quiet : Quiet k l
  semaphores : ∀ s : c.SemaphoreId, o ≠ .semaphore s → l.semaphores[s].value = k.semaphores[s].value
  rings : ∀ q : c.QueueId, o ≠ .queue q → l.rings[q].count = k.rings[q].count

theorem touches_setValue (k : Kernel c) (s : c.SemaphoreId) (value : UInt32) :
    Touches (.semaphore s) k (k.setValue s value) := by
  refine ⟨quiet_setValue k s value, fun s' hs' => ?_, fun _ _ => rfl⟩
  have hne : s' ≠ s := fun he => hs' (by rw [he])
  have hset := Table.getElem_set_of_ne k.semaphores { k.semaphores[s] with value := value } hne
  exact congrArg SemaphoreState.value hset

theorem touches_copyIn_pushed (k : Kernel c) (q : c.QueueId) (message : Buffer) (start : Nat) :
    Touches (.queue q) k ((k.copyIn message start).pushed q) := by
  refine ⟨quiet_copyIn_pushed k q message start, fun s _ => ?_, fun q' hq' => ?_⟩
  · cases message <;> rfl
  · have hne : q' ≠ q := fun he => hq' (by rw [he])
    have hset := fun ring => congrArg Ring.count (Table.getElem_set_of_ne k.rings ring hne)
    cases message <;> exact hset _

theorem touches_copyOut_popped (k : Kernel c) (q : c.QueueId) (message : Buffer) (start : Nat) :
    Touches (.queue q) k ((k.copyOut message start).1.popped q) := by
  refine ⟨quiet_copyOut_popped k q message start, fun s _ => ?_, fun q' hq' => ?_⟩
  · cases message <;> rfl
  · have hne : q' ≠ q := fun he => hq' (by rw [he])
    have hset := fun ring => congrArg Ring.count (Table.getElem_set_of_ne k.rings ring hne)
    cases message <;> exact hset _

/-- Touching an object that refuses nothing keeps the records right. -/
theorem Touches.waits {o : WaitObject c} (h : Touches o k l) (hw : k.Waits suspensions (some t))
    (hn : ∀ u r, r.object = o → ¬ k.Refuses u r) : l.Waits suspensions (some t) := by
  refine hw.advance (fun u hu => (h.quiet.isRunnable u).trans hu) (fun u => .inl (h.quiet.wait u))
    (fun u r _ _ href => ?_) fun u x _ hx => h.quiet.holders ▸ hx
  have ho : o ≠ r.object := fun he => hn u r he.symm href
  exact href.congr (fun x _ => by rw [h.quiet.holders]) (fun s hs => h.semaphores s (hs ▸ ho))
    fun q hq => h.rings q (hq ▸ ho)

theorem Touches.waits_wakeWaiters {m : Kernel c} {o : WaitObject c} (h : Touches o k m) (hs : k.Scheduled)
    (hw : k.Waits suspensions (some t)) : (m.wakeWaiters o).Waits suspensions (some t) := by
  have hwoken := (h.quiet.scheduled hs).wakeWaiters o
  refine hw.of_woken h.quiet.isRunnable h.quiet.wait hwoken (fun u r ho href => ?_) fun u x _ hx => ?_
  · refine href.congr (fun x _ => ?_) (fun s hs => ?_) fun q hq => ?_
    · rw [hwoken.holders, h.quiet.holders]
    · rw [hwoken.semaphores]
      exact h.semaphores s fun he => ho (hs.trans he.symm)
    · rw [hwoken.rings]
      exact h.rings q fun he => ho (hq.trans he.symm)
  · rw [hwoken.holders, h.quiet.holders] at hx
    exact hx

theorem waits_takeMutex (hs : k.Scheduled) (hw : k.Waits suspensions (some t)) {x : c.MutexId}
    (hx : k.holders[x] = none) : (k.takeMutex x t).Waits suspensions (some t) := by
  refine hw.advance (fun u hu => (hs.fits.isRunnable_mutexLocked x t u).trans hu) (fun _ => .inl rfl)
    (fun u r _ _ href => ?_) fun u y hu hy => ?_
  · refine href.congr (fun y hy => ?_) (fun _ _ => rfl) fun _ _ => rfl
    have hne : y ≠ x := by
      rintro rfl
      cases r with
      | lock z =>
        cases hy
        obtain ⟨v, _, hv⟩ := href
        rw [hx] at hv
        cases hv
      | token s => cases hy
      | put q message => cases hy
      | get q message => cases hy
    exact Table.getElem_set_of_ne k.holders (some t) hne
  · have hne : y ≠ x := by
      rintro rfl
      have hself : (k.takeMutex y t).holders[y] = some t := Table.getElem_set_self ..
      exact hu (hself.symm.trans hy)
    exact (Table.getElem_set_of_ne k.holders (some t) hne).symm.trans hy

theorem waits_release (hs : k.Scheduled) (hw : k.Waits suspensions (some t)) (x : c.MutexId) :
    ((k.freeMutex x).wakeLockers x).Waits suspensions (some t) := by
  have free : (k.freeMutex x).Scheduled := hs.of_mutexUnlocked rfl rfl
  have hwoken := free.wakeLockers x
  refine hw.of_woken (m := k.freeMutex x) (hs.fits.isRunnable_mutexUnlocked x) (fun _ => rfl) hwoken
    (fun u r ho href => ?_)
    fun u y hu hy => ?_
  · refine href.congr (fun y hy => ?_) (fun s _ => ?_) fun q _ => ?_
    · rw [hwoken.holders]
      refine Table.getElem_set_of_ne k.holders none fun he => ho ?_
      rw [hy, he]
    · rw [hwoken.semaphores]
      rfl
    · rw [hwoken.rings]
      rfl
  · rw [hwoken.holders] at hy
    have hne : y ≠ x := by
      rintro rfl
      have hself : (k.freeMutex y).holders[y] = none := Table.getElem_set_self ..
      cases hself.symm.trans hy
    exact (Table.getElem_set_of_ne k.holders none hne).symm.trans hy

theorem waits_endWait (hw : k.Waits suspensions (some t)) (o : WaitObject c) :
    ((k.setWait t none).noteWaiters o).Waits suspensions (some t) := by
  have quiet : (k.setWait t none).Waits suspensions (some t) := by
    refine hw.advance (fun _ hu => hu) (fun u => ?_) (fun u r _ _ href => href) fun u x _ hx => hx
    by_cases hu : u = t
    · subst hu
      exact .inr ⟨k.wait_setWait_self u none, hw.active_runnable u rfl⟩
    · exact .inl (by rw [k.setWait_ne none hu])
  cases o with
  | mutex x =>
    exact quiet.of_runnable (fun u hu => (Schedule.isRunnable_waitersChanged _ u).trans hu) (fun _ => rfl) rfl
      (fun _ => rfl) fun _ => rfl
  | semaphore s => exact quiet
  | queue q => exact quiet

theorem waits_edit (hs : k.Scheduled) (hw : k.Waits suspensions (some t)) (e : Edit c) (ha : e.Allowed t k) :
    (e.apply t k).Waits suspensions (some t) := by
  cases e with
  | enter => exact hw.of_runnable (fun _ hu => hu) (fun _ => rfl) rfl (fun _ => rfl) fun _ => rfl
  | record event => exact hw.of_runnable (fun _ hu => hu) (fun _ => rfl) rfl (fun _ => rfl) fun _ => rfl
  | refresh =>
    obtain ⟨s, he, hr⟩ := k.refresh_eq
    rw [Edit.apply, he]
    exact hw.of_runnable (fun u hu => (hr u).trans hu) (fun _ => rfl) rfl (fun _ => rfl) fun _ => rfl
  | rouse task => exact waits_setRunnable (u := task) hs hw rfl (fun _ => rfl) rfl rfl rfl
  | send task set =>
    exact waits_setRunnable (u := task) hs hw rfl (fun v => wait_sendSignals k task v set) rfl rfl rfl
  | clear set => exact (quiet_clearSignals k t set).waits hw (fun _ => rfl) fun _ => rfl
  | resetTimeout => exact (quiet_resetTimeout k t).waits hw (fun _ => rfl) fun _ => rfl
  | timer id change => exact (quiet_modifyTimer k id change).waits hw (fun _ => rfl) fun _ => rfl
  | take x => exact waits_takeMutex hs hw ha
  | release x =>
    exact (waits_release hs hw x).of_runnable (fun _ hu => hu) (fun _ => rfl) rfl (fun _ => rfl) fun _ => rfl
  | takeToken s =>
    refine (touches_setValue k s _).waits hw fun u r ho href => ?_
    cases r <;> cases ho
    exact ha href
  | addToken s value =>
    rw [Edit.apply]
    split
    · exact (touches_setValue k s value).waits_wakeWaiters hs hw
    · next hv =>
      refine (touches_setValue k s value).waits hw fun u r ho href => ?_
      cases r <;> cases ho
      exact hv href
  | setMax s max =>
    refine (quiet_setMax k s max).waits hw (fun s' => ?_) fun _ => rfl
    by_cases he : s' = s
    · subst he
      simp [setMax]
    · exact congrArg SemaphoreState.value
        (Table.getElem_set_of_ne k.semaphores { k.semaphores[s] with max := some max } he)
  -- Getters and putters share one wait object, but only one of the two can be refused at a time.
  | store q message =>
    simp only [Edit.apply]
    split
    · exact (touches_copyIn_pushed k q message _).waits_wakeWaiters hs hw
    · next hz =>
      refine (touches_copyIn_pushed k q message _).waits hw fun u r ho href => ?_
      cases r <;> cases ho
      · exact ha.1 href
      · exact hz href
  | fetch q message =>
    simp only [Edit.apply]
    split
    · exact (touches_copyOut_popped k q message _).waits_wakeWaiters hs hw
    · next hf =>
      refine (touches_copyOut_popped k q message _).waits hw fun u r ho href => ?_
      cases r <;> cases ho
      · exact hf href
      · exact ha.1 href
  | endWait object => exact waits_endWait hw object

theorem idle_edit (hs : k.Scheduled) (hi : k.tasks[t].wait = none) (e : Edit c) :
    (e.apply t k).tasks[t].wait = none := by
  cases e with
  | enter => exact hi
  | record event => exact hi
  | refresh =>
    obtain ⟨s, he, _⟩ := k.refresh_eq
    rw [Edit.apply, he]
    exact hi
  | rouse task => exact hi
  | send task set => exact (k.wait_sendSignals task t set).trans hi
  | clear set => exact ((quiet_clearSignals k t set).wait t).trans hi
  | resetTimeout => exact ((quiet_resetTimeout k t).wait t).trans hi
  | timer id change => exact hi
  | take x => exact hi
  | release x =>
    have free : (k.freeMutex x).Scheduled := hs.of_mutexUnlocked rfl rfl
    exact (free.wakeLockers x).idle (u := t) hi
  | takeToken s => exact hi
  | addToken s value =>
    rw [Edit.apply]
    split
    · exact (((quiet_setValue k s value).scheduled hs).wakeWaiters _).idle (u := t) hi
    · exact hi
  | setMax s max => exact hi
  | store q message =>
    have quiet := quiet_copyIn_pushed k q message (k.slotStart q (k.tailSlot q))
    simp only [Edit.apply]
    split
    · exact ((quiet.scheduled hs).wakeWaiters _).idle ((quiet.wait t).trans hi)
    · exact (quiet.wait t).trans hi
  | fetch q message =>
    have quiet := quiet_copyOut_popped k q message (k.slotStart q k.rings[q].head)
    simp only [Edit.apply]
    split
    · exact ((quiet.scheduled hs).wakeWaiters _).idle ((quiet.wait t).trans hi)
    · exact (quiet.wait t).trans hi
  | endWait o =>
    obtain ⟨s, he, _⟩ := (k.setWait t none).noteWaiters_eq o
    rw [Edit.apply, he]
    exact k.wait_setWait_self t none

/-! ## Ownership -/

/-- The task `t` owns the processor, the schedule and the records of waits are in order, whatever interrupts have
recorded is going to be looked at, and unless a task switch is asked for, the policy would choose `t` itself. Only a
detour, which gave the processor to a task the policy did not choose, is an excuse for the latter. -/
structure Owned (k : Kernel c) (suspensions : Table (Suspension c) c.tasks.size) (t : c.TaskId) (detour : Prop) :
    Prop where
  running : k.running = some t
  thread : k.processor.thread = some t
  unmasked : k.processor.masked = false
  scheduled : k.Scheduled
  waits : k.Waits suspensions (some t)
  pended : k.hasPending = true → k.preemptPending = true
  decided : k.preemptPending = true ∨ detour ∨ k.decision = .ok (some t)

theorem hasPending_congr (hr : l.raised = k.raised) (ht : l.pendingTicks = k.pendingTicks) :
    l.hasPending = k.hasPending := by
  rw [hasPending, hasPending, hr, ht]

theorem Owned.edit {detour : Prop} (h : k.Owned suspensions t detour) (e : Edit c) (ha : e.Allowed t k) :
    (e.apply t k).Owned suspensions t detour := by
  have frame := Edit.frame t k e
  have settles := settles_edit h.scheduled h.waits e ha
  constructor
  · exact frame.running.trans h.running
  · rw [frame.processor]
    exact h.thread
  · rw [frame.processor]
    exact h.unmasked
  · exact settles.scheduled
  · exact waits_edit h.scheduled h.waits e ha
  · intro hp
    rcases frame.raised with hr | hp'
    · exact frame.preemptPending (h.pended ((hasPending_congr hr frame.pendingTicks).symm.trans hp))
    · exact hp'
  · rcases h.decided with hp | hd | hd
    · exact .inl (frame.preemptPending hp)
    · exact .inr (.inl hd)
    · rcases settles.decision hd with hp | hd'
      · exact .inl hp
      · exact .inr (.inr hd')

/-- Whatever the task has the kernel do, it still owns the processor, and everything is in order. -/
theorem Owned.edits {detour : Prop} {es : List (Edit c)} (h : k.Owned suspensions t detour) (he : Edits t k es l) :
    l.Owned suspensions t detour ∧ (k.tasks[t].wait = none → l.tasks[t].wait = none) := by
  induction he with
  | nil k => exact ⟨h, id⟩
  | cons allowed _ ih =>
    obtain ⟨owned, idle⟩ := ih (h.edit _ allowed)
    exact ⟨owned, fun hi => idle (idle_edit h.scheduled hi _)⟩

theorem Owned.narrows {detour : Prop} {es : List (Edit c)} (h : k.Owned suspensions t detour) (he : Edits t k es l)
    (hn : ∀ x, .take x ∉ es) : Narrows k l := by
  induction he with
  | nil k => exact .refl k
  | @cons k l e es allowed _ ih =>
    have first : Narrows k (e.apply t k) := narrows_edit h.scheduled e fun x hx => hn x (hx ▸ List.mem_cons_self)
    exact first.trans (ih (h.edit e allowed) fun x hx => hn x (List.mem_cons_of_mem e hx))

/-- Nobody stops being runnable, and if somebody comes to be runnable a task switch is asked for. -/
theorem Owned.rises {detour : Prop} {es : List (Edit c)} (h : k.Owned suspensions t detour) (he : Edits t k es l)
    (u : c.TaskId) : (k.isRunnable u = true → l.isRunnable u = true) ∧
      (l.isRunnable u = true → k.isRunnable u = true ∨ l.preemptPending = true) := by
  induction he with
  | nil k => exact ⟨id, Or.inl⟩
  | @cons k l e es allowed rest ih =>
    obtain ⟨keeps, asks⟩ := ih (h.edit e allowed)
    refine ⟨fun hu => keeps (isRunnable_edit h.scheduled e hu), fun hu => ?_⟩
    rcases asks hu with hu | hp
    · exact (roused_edit h.scheduled e hu).imp_right rest.frame.preemptPending
    · exact .inr hp

/-! ## Stopping -/

/-- A task that stops is on record if, and only if, it goes on in a wait for a request, which has to be refused. -/
theorem Waits.stop (h : k.Waits suspensions (some t)) {s : Suspension c}
    (hr : ∀ u, u ≠ t → l.isRunnable u = k.isRunnable u)
    (hw : ∀ u : c.TaskId, u ≠ t → l.tasks[u].wait = k.tasks[u].wait)
    (hh : l.holders = k.holders) (hv : l.semaphores = k.semaphores) (hq : l.rings = k.rings)
    (ht : ∀ o, l.tasks[t].wait = some o → ∃ r d, s = .waiting (.request r d) ∧ r.object = o)
    (hs : ∀ r d, s = .waiting (.request r d) → l.tasks[t].wait = some r.object ∧ l.Refuses t r) :
    l.Waits (suspensions.set t s) none := by
  have self : (suspensions.set t s)[t] = s := Table.getElem_set_self ..
  have other : ∀ u, u ≠ t → (suspensions.set t s)[u] = suspensions[u] :=
    fun u hu => Table.getElem_set_of_ne suspensions s hu
  have awaits : ∀ u r, u ≠ t → (Awaits (suspensions.set t s) u r ↔ Awaits suspensions u r) := by
    intro u r hu
    unfold Awaits
    rw [other u hu]
  refine ⟨nofun, fun u o _ ho => ?_, fun u r hsu hn => ?_, fun u x _ hsu => ?_⟩
  · by_cases hu : u = t
    · subst hu
      obtain ⟨r, d, he, hro⟩ := ht o ho
      exact ⟨r, ⟨d, self.trans he⟩, hro⟩
    · have active : some t ≠ some u := fun he => hu (Option.some.inj he).symm
      obtain ⟨r, hsu, hro⟩ := h.recorded u o active ((hw u hu).symm.trans ho)
      exact ⟨r, (awaits u r hu).mpr hsu, hro⟩
  · by_cases hu : u = t
    · subst hu
      obtain ⟨d, he⟩ := hsu
      exact hs r d (self.symm.trans he)
    · obtain ⟨hrec, href⟩ := h.refused u r ((awaits u r hu).mp hsu) ((hr u hu).symm.trans hn)
      exact ⟨(hw u hu).trans hrec, href.congr (fun _ _ => by rw [hh]) (fun _ _ => by rw [hv]) fun _ _ => by rw [hq]⟩
  · by_cases hu : u = t
    · subst hu
      obtain ⟨d, he⟩ := hsu
      obtain ⟨v, hv, hx⟩ := (hs _ d (self.symm.trans he)).2
      intro hxu
      exact hv (Option.some.inj (hx.symm.trans hxu))
    · rw [hh]
      refine h.stranger u x (fun he => hu (Option.some.inj he).symm) ((awaits u _ hu).mp hsu)

theorem Waits.stop_yields (h : k.Waits suspensions (some t)) (hi : k.tasks[t].wait = none) (reply : Option Value) :
    k.Waits (suspensions.set t (.returning reply)) none := by
  refine h.stop (fun _ _ => rfl) (fun _ _ => rfl) rfl rfl rfl (fun o ho => ?_) nofun
  cases hi.symm.trans ho

/-- Stopping changes no holder, and does not matter to whether other tasks are runnable. -/
theorem Scheduled.others_of_stops {s : Suspension c} (h : k.Scheduled) (hs : Stops t k s l) :
    l.holders = k.holders ∧ ∀ u, u ≠ t → l.isRunnable u = k.isRunnable u := by
  have blocked : ∀ {q : Schedule c}, q.Fits → ∀ u, u ≠ t → (q.setBlocked t).isRunnable u = q.isRunnable u := by
    intro q hq u hu
    rw [hq.isRunnable_setBlocked, decide_eq_true hu, Bool.true_and]
  cases hs with
  | yields => exact ⟨rfl, fun _ _ => rfl⟩
  | suspends wait other => exact ⟨rfl, blocked h.fits⟩
  | awaits r deadline refused =>
    have fits : ((k.setWait t (some r.object)).noteWaiters r.object).schedule.Fits := by
      cases r with
      | lock x => exact h.fits.waitersChanged
      | token s => exact h.fits
      | put q message => exact h.fits
      | get q message => exact h.fits
    obtain ⟨q, he, hq⟩ := (k.setWait t (some r.object)).noteWaiters_eq r.object
    rw [he] at fits ⊢
    exact ⟨rfl, fun u hu => (blocked fits u hu).trans (hq u)⟩

/-- Once a task has stopped, the schedule and the records of waits are in order without it. -/
theorem Owned.stops {detour : Prop} {s : Suspension c} (h : k.Owned suspensions t detour)
    (hi : k.tasks[t].wait = none) (hs : Stops t k s l) : l.Scheduled ∧ l.Waits (suspensions.set t s) none := by
  have others := (h.scheduled.others_of_stops hs).2
  cases hs with
  | yields => exact ⟨h.scheduled, h.waits.stop_yields hi _⟩
  | suspends wait other =>
    refine ⟨h.scheduled.of_setBlocked rfl rfl, ?_⟩
    refine h.waits.stop others (fun _ _ => rfl) rfl rfl rfl (fun o ho => ?_) fun r d he => ?_
    · cases hi.symm.trans ho
    · cases he
      exact absurd rfl (other r d)
  | awaits r deadline refused =>
    have runnable : k.isRunnable t = true := h.waits.active_runnable t rfl
    have scheduled := (settles_setWait h.scheduled runnable (some r.object) r.object).scheduled
    have self := k.wait_setWait_self t (some r.object)
    refine ⟨scheduled.of_setBlocked rfl rfl, ?_⟩
    obtain ⟨s, he, hr⟩ := (k.setWait t (some r.object)).noteWaiters_eq r.object
    rw [he] at others ⊢
    refine h.waits.stop others (fun u hu => ?_) rfl rfl rfl (fun o ho => ?_) fun r' d' hs => ?_
    · exact congrArg TaskState.wait (k.setWait_ne (some r.object) hu)
    · exact ⟨r, deadline, rfl, Option.some.inj (self.symm.trans ho)⟩
    · cases hs
      exact ⟨self, refused.congr (fun _ _ => rfl) (fun _ _ => rfl) fun _ _ => rfl⟩

end Rtos.Kernel
