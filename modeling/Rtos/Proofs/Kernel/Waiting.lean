import Rtos.Kernel.Wait
import Rtos.Proofs.Kernel.Schedule

/-!
# Waiting tasks

* `Kernel.Woken`: what waking the waiters of an object does; nothing else changes.
* `Kernel.Refuses`: a request cannot be granted for now.
* `Kernel.Waits`: the records of the waits, the runnable tasks and the state of the objects agree with where the tasks
  are suspended. A task that is not runnable and waits for a request is on record as a waiter, and its request is
  refused; nobody else is on record.
* `Waits.advance`: what keeps `Waits`: nobody stops being runnable, a record is erased only together with waking the
  task, and a request of a task that goes on waiting stays refused.
-/

namespace Rtos.Kernel
set_option autoImplicit false

variable {c : Config} {k l : Kernel c}

/-! ## Changing the state of a task -/

theorem modifyTask_self (k : Kernel c) (t : c.TaskId) (f : TaskState c → TaskState c) :
    (k.modifyTask t f).tasks[t] = f k.tasks[t] := by
  simp [modifyTask]

theorem modifyTask_ne (k : Kernel c) {t u : c.TaskId} (f : TaskState c → TaskState c) (h : u ≠ t) :
    (k.modifyTask t f).tasks[u] = k.tasks[u] :=
  Table.getElem_set_of_ne k.tasks _ h

theorem wait_setWait_self (k : Kernel c) (t : c.TaskId) (wait : Option (WaitObject c)) :
    (k.setWait t wait).tasks[t].wait = wait := by
  rw [setWait, modifyTask_self]

theorem setWait_ne (k : Kernel c) {t u : c.TaskId} (wait : Option (WaitObject c)) (h : u ≠ t) :
    (k.setWait t wait).tasks[u] = k.tasks[u] := modifyTask_ne k _ h

theorem wait_modifyTask (k : Kernel c) (t u : c.TaskId) (f : TaskState c → TaskState c)
    (hf : ∀ s, (f s).wait = s.wait) : (k.modifyTask t f).tasks[u].wait = k.tasks[u].wait := by
  by_cases hu : u = t
  · rw [hu, modifyTask_self, hf]
  · rw [modifyTask_ne k f hu]

theorem wait_sendSignals (k : Kernel c) (t u : c.TaskId) (set : SignalSet) :
    (k.sendSignals t set).tasks[u].wait = k.tasks[u].wait :=
  wait_modifyTask k t u (fun s => { s with signals := s.signals ||| set }) fun _ => rfl

theorem noteWaiters_eq (k : Kernel c) (o : WaitObject c) :
    ∃ s : Schedule c, k.noteWaiters o = { k with schedule := s } ∧ ∀ u, s.isRunnable u = k.isRunnable u := by
  cases o with
  | mutex x => exact ⟨_, rfl, Schedule.isRunnable_waitersChanged k.schedule⟩
  | semaphore s => exact ⟨_, rfl, fun _ => rfl⟩
  | queue q => exact ⟨_, rfl, fun _ => rfl⟩

/-! ## Waking -/

theorem mem_waiters (k : Kernel c) (o : WaitObject c) (u : c.TaskId) : u ∈ k.waiters o ↔ k.tasks[u].wait = some o := by
  simp [waiters, List.mem_filter, List.mem_finRange]

theorem foldl_wake_eq (k : Kernel c) (ts : List c.TaskId) :
    ∃ s states, ts.foldl wake k = { k with schedule := s, tasks := states } := by
  induction ts generalizing k with
  | nil => exact ⟨k.schedule, k.tasks, rfl⟩
  | cons t ts ih =>
    obtain ⟨s, states, he⟩ := ih (k.wake t)
    exact ⟨s, states, he⟩

theorem foldl_wake_of_notMem (k : Kernel c) {ts : List c.TaskId} {u : c.TaskId} (h : u ∉ ts) :
    (ts.foldl wake k).tasks[u] = k.tasks[u] := by
  induction ts generalizing k with
  | nil => rfl
  | cons t ts ih =>
    rw [List.mem_cons, not_or] at h
    exact (ih (k.wake t) h.2).trans (modifyTask_ne k (fun s => { s with wait := none }) h.1)

theorem foldl_wake_of_mem (k : Kernel c) {ts : List c.TaskId} {u : c.TaskId} (h : u ∈ ts) :
    (ts.foldl wake k).tasks[u] = { k.tasks[u] with wait := none } := by
  induction ts generalizing k with
  | nil => cases h
  | cons t ts ih =>
    rw [List.foldl_cons]
    by_cases hut : u = t
    · subst hut
      have hself : (k.wake u).tasks[u] = { k.tasks[u] with wait := none } :=
        modifyTask_self k u fun s => { s with wait := none }
      by_cases hm : u ∈ ts
      · rw [ih (k.wake u) hm, hself]
      · rw [foldl_wake_of_notMem (k.wake u) hm, hself]
    · have hne : (k.wake t).tasks[u] = k.tasks[u] := modifyTask_ne k (fun s => { s with wait := none }) hut
      rw [ih (k.wake t) ((List.mem_cons.mp h).resolve_left hut), hne]

theorem signals_foldl_wake (k : Kernel c) (ts : List c.TaskId) (u : c.TaskId) :
    (ts.foldl wake k).tasks[u].signals = k.tasks[u].signals := by
  by_cases hu : u ∈ ts
  · rw [foldl_wake_of_mem k hu]
  · rw [foldl_wake_of_notMem k hu]

theorem signals_wakeWaiters (k : Kernel c) (o : WaitObject c) (u : c.TaskId) :
    (k.wakeWaiters o).tasks[u].signals = k.tasks[u].signals := by
  unfold wakeWaiters
  split
  · rfl
  · exact signals_foldl_wake k _ u

theorem signals_wakeLockers (k : Kernel c) (x : c.MutexId) (u : c.TaskId) :
    (k.wakeLockers x).tasks[u].signals = k.tasks[u].signals := by
  unfold wakeLockers
  split
  · rfl
  · exact signals_wakeWaiters k (.mutex x) u

theorem Scheduled.foldl_wake (h : k.Scheduled) (ts : List c.TaskId) : (ts.foldl wake k).Scheduled ∧
    ∀ u, (ts.foldl wake k).isRunnable u = true ↔ u ∈ ts ∨ k.isRunnable u = true := by
  induction ts generalizing k with
  | nil => exact ⟨h, fun u => by simp⟩
  | cons t ts ih =>
    have hw : (k.wake t).Scheduled := h.of_setRunnable rfl rfl
    obtain ⟨hs, hr⟩ := ih hw
    rw [List.foldl_cons]
    refine ⟨hs, fun u => ?_⟩
    have hu : (k.wake t).isRunnable u = (decide (u = t) || k.isRunnable u) := h.fits.isRunnable_setRunnable t u
    rw [hr u, hu, Bool.or_eq_true, decide_eq_true_iff, List.mem_cons, or_left_comm, or_assoc]

/-- Waking changes the schedule and the states of tasks, and it may ask for a task switch. -/
theorem wakeWaiters_eq (k : Kernel c) (o : WaitObject c) : ∃ s states pending,
    k.wakeWaiters o = { k with schedule := s, tasks := states, preemptPending := pending } ∧
      (k.preemptPending = true → pending = true) := by
  unfold wakeWaiters
  split
  · exact ⟨k.schedule, k.tasks, k.preemptPending, rfl, id⟩
  · obtain ⟨s, states, he⟩ := foldl_wake_eq k (k.waiters o)
    rw [he]
    exact ⟨s, states, true, rfl, fun _ => rfl⟩

theorem wakeLockers_eq (k : Kernel c) (x : c.MutexId) : ∃ s states pending,
    k.wakeLockers x = { k with schedule := s, tasks := states, preemptPending := pending } ∧
      (k.preemptPending = true → pending = true) := by
  unfold wakeLockers
  split
  · exact ⟨k.schedule, k.tasks, k.preemptPending, rfl, id⟩
  · obtain ⟨s, states, pending, he, hp⟩ := k.wakeWaiters_eq (.mutex x)
    rw [he]
    exact ⟨_, states, pending, rfl, hp⟩

/-- The waiters of an object become runnable and are not on record any more, and a task switch is asked for if there are
any. -/
structure Woken (o : WaitObject c) (k l : Kernel c) : Prop where
  scheduled : l.Scheduled
  isRunnable : ∀ u : c.TaskId, l.isRunnable u = (decide (k.tasks[u].wait = some o) || k.isRunnable u)
  tasks : ∀ u : c.TaskId, l.tasks[u] = if k.tasks[u].wait = some o then { k.tasks[u] with wait := none } else k.tasks[u]
  holders : l.holders = k.holders
  semaphores : l.semaphores = k.semaphores
  rings : l.rings = k.rings
  pending : l = k ∨ l.preemptPending = true

theorem Woken.of_no_waiters (h : k.Scheduled) {o : WaitObject c} (hn : k.waiters o = []) : Woken o k k := by
  have none_waits : ∀ u : c.TaskId, k.tasks[u].wait ≠ some o := by
    intro u hu
    have hm := (mem_waiters k o u).mpr hu
    rw [hn] at hm
    cases hm
  refine ⟨h, fun u => ?_, fun u => (if_neg (none_waits u)).symm, rfl, rfl, rfl, .inl rfl⟩
  rw [decide_eq_false (none_waits u), Bool.false_or]

theorem preemptPending_wakeWaiters {o : WaitObject c} (hn : k.waiters o ≠ []) :
    (k.wakeWaiters o).preemptPending = true := by
  unfold wakeWaiters
  split
  · next he => exact absurd he hn
  · rfl

theorem Scheduled.wakeWaiters (h : k.Scheduled) (o : WaitObject c) : Woken o k (k.wakeWaiters o) := by
  unfold Kernel.wakeWaiters
  split
  · next hn => exact Woken.of_no_waiters h hn
  · obtain ⟨hs, hr⟩ := h.foldl_wake (k.waiters o)
    obtain ⟨s, states, he⟩ := foldl_wake_eq k (k.waiters o)
    refine ⟨hs.of_schedule_eq rfl rfl rfl, fun u => ?_, fun u => ?_, ?_, ?_, ?_, .inr rfl⟩
    · rw [Bool.eq_iff_iff, Bool.or_eq_true, decide_eq_true_iff, ← mem_waiters]
      exact hr u
    · split
      · next hu => exact foldl_wake_of_mem k ((mem_waiters k o u).mpr hu)
      · next hu => exact foldl_wake_of_notMem k fun hm => hu ((mem_waiters k o u).mp hm)
    all_goals rw [he]; rfl

theorem Scheduled.wakeLockers (h : k.Scheduled) (x : c.MutexId) : Woken (.mutex x) k (k.wakeLockers x) := by
  unfold Kernel.wakeLockers
  split
  · next hn => exact Woken.of_no_waiters h hn
  · next hn =>
    have hw := h.wakeWaiters (.mutex x)
    refine ⟨hw.scheduled.of_waitersChanged rfl rfl, fun u => ?_, hw.tasks, hw.holders, hw.semaphores, hw.rings,
      .inr (preemptPending_wakeWaiters hn)⟩
    exact (Schedule.isRunnable_waitersChanged _ u).trans (hw.isRunnable u)

section Woken
variable {o : WaitObject c}

theorem Woken.isRunnable_of (h : Woken o k l) {u : c.TaskId} (hu : k.isRunnable u = true) : l.isRunnable u = true := by
  rw [h.isRunnable, hu, Bool.or_true]

theorem Woken.wait_of_not_runnable (h : Woken o k l) {u : c.TaskId} (hu : l.isRunnable u = false) :
    k.tasks[u].wait ≠ some o := by
  rw [h.isRunnable, Bool.or_eq_false_iff] at hu
  exact of_decide_eq_false hu.1

theorem Woken.wait (h : Woken o k l) (u : c.TaskId) :
    l.tasks[u].wait = k.tasks[u].wait ∨ (l.tasks[u].wait = none ∧ l.isRunnable u = true) := by
  rw [h.tasks, h.isRunnable]
  by_cases hw : k.tasks[u].wait = some o
  · rw [if_pos hw, decide_eq_true hw]
    exact .inr ⟨rfl, rfl⟩
  · rw [if_neg hw]
    exact .inl rfl

theorem Woken.idle (h : Woken o k l) {u : c.TaskId} (hu : k.tasks[u].wait = none) : l.tasks[u].wait = none := by
  rcases h.wait u with he | ⟨he, _⟩
  · exact he.trans hu
  · exact he

end Woken

/-! ## Refused requests -/

/-- A request of a task cannot be granted for now: the mutex is held by another task, there is no token, the queue is
full, or it is empty. -/
def Refuses (k : Kernel c) (t : c.TaskId) : Request c → Prop
  | .lock x => ∃ h, h ≠ t ∧ k.holders[x] = some h
  | .token s => k.semaphores[s].value = 0
  | .put q _ => k.rings[q].count = capacity q
  | .get q _ => k.rings[q].count = 0

theorem Refuses.congr {t : c.TaskId} {r : Request c} (h : k.Refuses t r)
    (hx : ∀ x, r.object = .mutex x → l.holders[x] = k.holders[x])
    (hs : ∀ s, r.object = .semaphore s → l.semaphores[s].value = k.semaphores[s].value)
    (hq : ∀ q, r.object = .queue q → l.rings[q].count = k.rings[q].count) : l.Refuses t r := by
  cases r with
  | lock x =>
    obtain ⟨u, hu, hh⟩ := h
    exact ⟨u, hu, (hx x rfl).trans hh⟩
  | token s => exact (hs s rfl).trans h
  | put q message => exact (hq q rfl).trans h
  | get q message => exact (hq q rfl).trans h

/-! ## Records of waits -/

/-- The task is suspended in the wait loop of a request. -/
def Awaits (suspensions : Table (Suspension c) c.tasks.size) (t : c.TaskId) (r : Request c) : Prop :=
  ∃ deadline, suspensions[t] = .waiting (.request r deadline)

/-- The records of the waits, the runnable tasks and the state of the objects agree with where the tasks are suspended.
The task that is `active`, if any, is not suspended at all. -/
structure Waits (k : Kernel c) (suspensions : Table (Suspension c) c.tasks.size) (active : Option c.TaskId) :
    Prop where
  active_runnable : ∀ t, active = some t → k.isRunnable t = true
  /-- Who is on record is suspended in a wait for the object. -/
  recorded : ∀ (t : c.TaskId) (o : WaitObject c), active ≠ some t → k.tasks[t].wait = some o →
    ∃ r, Awaits suspensions t r ∧ r.object = o
  /-- Who is suspended in a wait and not runnable is on record, and for a reason. -/
  refused : ∀ (t : c.TaskId) (r : Request c), Awaits suspensions t r → k.isRunnable t = false →
    k.tasks[t].wait = some r.object ∧ k.Refuses t r
  /-- Who is suspended in a wait for a mutex does not hold it. -/
  stranger : ∀ (t : c.TaskId) (x : c.MutexId), active ≠ some t → Awaits suspensions t (.lock x) →
    k.holders[x] ≠ some t

section Waits
variable {suspensions : Table (Suspension c) c.tasks.size} {active : Option c.TaskId}

/-- What keeps the records right while the suspended tasks stay where they are: nobody stops being runnable, a record is
erased only together with making the task runnable, a request of a task that goes on waiting stays refused, and only the
active task gets to hold anything. -/
theorem Waits.advance (h : k.Waits suspensions active) (hr : ∀ u, k.isRunnable u = true → l.isRunnable u = true)
    (hw : ∀ u : c.TaskId, l.tasks[u].wait = k.tasks[u].wait ∨ (l.tasks[u].wait = none ∧ l.isRunnable u = true))
    (hf : ∀ (u : c.TaskId) (r : Request c), l.isRunnable u = false → k.tasks[u].wait = some r.object →
      k.Refuses u r → l.Refuses u r)
    (hh : ∀ (u : c.TaskId) (x : c.MutexId), active ≠ some u → l.holders[x] = some u → k.holders[x] = some u) :
    l.Waits suspensions active where
  active_runnable t ht := hr t (h.active_runnable t ht)
  recorded t o ht ho := by
    rcases hw t with he | ⟨he, _⟩
    · exact h.recorded t o ht (he ▸ ho)
    · rw [he] at ho
      cases ho
  refused t r hs hn := by
    have hk : k.isRunnable t = false := by
      refine Bool.eq_false_iff.mpr fun ht => ?_
      rw [hr t ht] at hn
      cases hn
    obtain ⟨hrec, href⟩ := h.refused t r hs hk
    rcases hw t with he | ⟨_, he⟩
    · exact ⟨he.trans hrec, hf t r hn hrec href⟩
    · rw [he] at hn
      cases hn
  stranger t x ht hs hx := h.stranger t x ht hs (hh t x ht hx)

/-- Making tasks runnable, and nothing that matters to waiting besides, keeps the records right. -/
theorem Waits.of_runnable (h : k.Waits suspensions active) (hr : ∀ u, k.isRunnable u = true → l.isRunnable u = true)
    (hw : ∀ u : c.TaskId, l.tasks[u].wait = k.tasks[u].wait) (hh : l.holders = k.holders)
    (hv : ∀ s : c.SemaphoreId, l.semaphores[s].value = k.semaphores[s].value)
    (hq : ∀ q : c.QueueId, l.rings[q].count = k.rings[q].count) : l.Waits suspensions active := by
  refine h.advance hr (fun u => .inl (hw u)) (fun u r _ _ href => ?_) fun u x _ hx => hh ▸ hx
  exact href.congr (fun x _ => by rw [hh]) (fun s _ => hv s) fun q _ => hq q

/-- Waking the waiters of an object keeps the records right even if their requests are not refused any more. -/
theorem Waits.of_woken {m : Kernel c} {o : WaitObject c} (h : k.Waits suspensions active)
    (hr : ∀ u, m.isRunnable u = k.isRunnable u) (hw : ∀ u : c.TaskId, m.tasks[u].wait = k.tasks[u].wait)
    (hwoken : Woken o m l)
    (hf : ∀ (u : c.TaskId) (r : Request c), r.object ≠ o → k.Refuses u r → l.Refuses u r)
    (hh : ∀ (u : c.TaskId) (x : c.MutexId), active ≠ some u → l.holders[x] = some u → k.holders[x] = some u) :
    l.Waits suspensions active := by
  refine h.advance (fun u hu => hwoken.isRunnable_of ((hr u).trans hu)) (fun u => ?_) (fun u r hu hrec href => ?_) hh
  · rw [← hw u]
    exact hwoken.wait u
  · refine hf u r (fun he => ?_) href
    refine hwoken.wait_of_not_runnable hu ?_
    rw [hw u, hrec, he]

theorem Waits.activate (h : k.Waits suspensions none) {t : c.TaskId} (ht : k.isRunnable t = true) :
    k.Waits suspensions (some t) where
  active_runnable _ hu := Option.some.inj hu ▸ ht
  recorded u o _ := h.recorded u o nofun
  refused := h.refused
  stranger u x _ := h.stranger u x nofun

/-- A task that is not runnable blocks on a mutex only if another task holds it. -/
theorem Waits.holder_of_blocked (h : k.Waits suspensions active) {u : c.TaskId} {x : c.MutexId}
    (hr : k.isRunnable u = false) (hw : k.tasks[u].wait = some (.mutex x)) : ∃ v, v ≠ u ∧ k.holders[x] = some v := by
  have hu : active ≠ some u := by
    intro he
    rw [h.active_runnable u he] at hr
    cases hr
  obtain ⟨r, hs, hx⟩ := h.recorded u _ hu hw
  obtain ⟨_, href⟩ := h.refused u r hs hr
  cases r with
  | lock y =>
    cases hx
    exact href
  | token s => cases hx
  | put q message => cases hx
  | get q message => cases hx

theorem Waits.blocker_takeMutex (h : k.Waits suspensions active) (hs : k.Scheduled) {x : c.MutexId} {t : c.TaskId}
    (hx : k.holders[x] = none) : (k.takeMutex x t).blocker = k.blocker := by
  refine blocker_congr (hs.fits.isRunnable_mutexLocked x t) (fun _ _ => rfl) fun u y hr hw => ?_
  have hne : y ≠ x := by
    rintro rfl
    obtain ⟨v, _, hv⟩ := h.holder_of_blocked hr hw
    rw [hx] at hv
    cases hv
  exact Table.getElem_set_of_ne k.holders (some t) hne

end Waits

end Rtos.Kernel
