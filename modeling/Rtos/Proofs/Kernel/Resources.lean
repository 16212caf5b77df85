import Rtos.Proofs.Kernel.Dispatch

/-!
# The shared objects

* `Resources`: the state of the objects that tasks share: mutexes, semaphores and queues.
* `Answered`: what a request comes to, as far as these are concerned. It either makes the change that grants the
  request, or changes nothing.
* `settle_resources`, `perform_resources` and their siblings: nothing else changes them but posting to a semaphore,
  giving it a maximum, and unlocking a mutex.
-/

namespace Rtos
set_option autoImplicit false

variable {c : Config}

/-- The state of the objects that tasks share. -/
structure Resources (c : Config) where
  holders : Table (Option c.TaskId) c.mutexes.size
  semaphores : Table SemaphoreState c.semaphores.size
  rings : Table Ring c.queues.size
  pool : Array UInt8
  deriving DecidableEq

namespace Kernel

variable {k l : Kernel c} {t : c.TaskId} {r : Request c}

def resources (k : Kernel c) : Resources c := ⟨k.holders, k.semaphores, k.rings, k.pool⟩

@[simp] theorem resources_semaphores (k : Kernel c) : k.resources.semaphores = k.semaphores := rfl

theorem resources_eq_iff : l.resources = k.resources ↔
    l.holders = k.holders ∧ l.semaphores = k.semaphores ∧ l.rings = k.rings ∧ l.pool = k.pool :=
  Iff.of_eq (Resources.mk.injEq ..)

/-! ## Changes -/

@[simp] theorem resources_refresh (k : Kernel c) : k.refresh.resources = k.resources := by
  obtain ⟨s, hs, _⟩ := k.refresh_eq
  rw [hs]
  rfl

@[simp] theorem resources_noteWaiters (k : Kernel c) (o : WaitObject c) :
    (k.noteWaiters o).resources = k.resources := by
  obtain ⟨s, hs, _⟩ := k.noteWaiters_eq o
  rw [hs]
  rfl

@[simp] theorem resources_wakeWaiters (k : Kernel c) (o : WaitObject c) :
    (k.wakeWaiters o).resources = k.resources := by
  obtain ⟨s, states, pending, he, _⟩ := k.wakeWaiters_eq o
  rw [he]
  rfl

@[simp] theorem resources_wakeLockers (k : Kernel c) (x : c.MutexId) : (k.wakeLockers x).resources = k.resources := by
  obtain ⟨s, states, pending, he, _⟩ := k.wakeLockers_eq x
  rw [he]
  rfl

theorem resources_stops {s : Suspension c} (h : Stops t k s l) : l.resources = k.resources := by
  cases h with
  | yields => rfl
  | suspends wait other => rfl
  | awaits r deadline refused => exact (k.setWait t (some r.object)).resources_noteWaiters r.object

theorem refuses_of_stops {deadline : Option Ticks} (h : Stops t k (.waiting (.request r deadline)) l) :
    k.Refuses t r := by
  cases h with
  | suspends wait other => exact absurd rfl (other r deadline)
  | awaits r deadline refused => exact refused

theorem resources_armed (k : Kernel c) (t : c.TaskId) (timer : c.TimerId) (ticks : Ticks) :
    (k.armed t timer ticks).resources = k.resources := rfl

theorem Armed.resources {ticks : Option Ticks} (h : Armed t k ticks l) : l.resources = k.resources := by
  cases h <;> rfl

theorem Disarmed.resources {deadline : Option Ticks} (h : Disarmed t k deadline l) : l.resources = k.resources := by
  cases h <;> rfl

theorem resources_store (k : Kernel c) (q : c.QueueId) (message : Buffer) :
    ((Edit.store q message).apply t k).resources =
      ((k.copyIn message (k.slotStart q (k.tailSlot q))).pushed q).resources := by
  simp only [Edit.apply]
  split <;> simp

theorem resources_fetch (k : Kernel c) (q : c.QueueId) (message : Buffer) :
    ((Edit.fetch q message).apply t k).resources =
      ((k.copyOut message (k.slotStart q k.rings[q].head)).1.popped q).resources := by
  simp only [Edit.apply]
  split <;> simp

theorem resources_release (k : Kernel c) (x : c.MutexId) :
    ((Edit.release x).apply t k).resources = (k.freeMutex x).resources := by
  rw [Edit.apply, requestSwitch]
  exact resources_wakeLockers _ x

/-- What a granted request does to the shared objects depends on nothing else. -/
theorem resources_grant_congr (h : l.resources = k.resources) (r : Request c) :
    (r.edit.apply t l).resources = (r.edit.apply t k).resources := by
  obtain ⟨hh, hs, hq, hp⟩ := resources_eq_iff.mp h
  cases r with
  | lock x => exact resources_eq_iff.mpr ⟨congrArg (·.set x (some t)) hh, hs, hq, hp⟩
  | token s => exact resources_eq_iff.mpr ⟨hh, by simp only [Request.edit, Edit.apply, setValue, hs], hq, hp⟩
  | put q message =>
    rw [Request.edit, resources_store, resources_store]
    have start : l.slotStart q (l.tailSlot q) = k.slotStart q (k.tailSlot q) := by simp only [slotStart, tailSlot, hq]
    rw [start]
    cases message <;>
      exact resources_eq_iff.mpr ⟨hh, hs, by simp only [pushed, copyIn, hq], by simp only [pushed, copyIn, hp]⟩
  | get q message =>
    rw [Request.edit, resources_fetch, resources_fetch]
    have start : l.slotStart q l.rings[q].head = k.slotStart q k.rings[q].head := by simp only [slotStart, hq]
    rw [start]
    cases message <;>
      exact resources_eq_iff.mpr ⟨hh, hs, by simp only [popped, copyOut, hq], by simp only [popped, copyOut, hp]⟩

theorem allowed_congr (h : l.resources = k.resources) {r : Request c} (ha : r.edit.Allowed t l) :
    r.edit.Allowed t k := by
  obtain ⟨hh, hs, hq, _⟩ := resources_eq_iff.mp h
  cases r <;> simpa only [Request.edit, Edit.Allowed, slotStart, tailSlot, hh, hs, hq] using ha

theorem received_congr (h : l.resources = k.resources) (r : Request c) : l.received r = k.received r := by
  obtain ⟨_, _, hq, hp⟩ := resources_eq_iff.mp h
  cases r with
  | get q message => cases message <;> simp only [received, copyOut, slotStart, hq, hp]
  | _ => rfl

theorem refuses_congr (h : l.resources = k.resources) (hr : l.Refuses t r) : k.Refuses t r := by
  obtain ⟨hh, hs, hq, _⟩ := resources_eq_iff.mp h
  exact hr.congr (fun _ _ => by rw [hh]) (fun _ _ => by rw [hs]) fun _ _ => by rw [hq]

theorem denies_congr (h : l.resources = k.resources) (hd : l.Denies t r) : k.Denies t r := by
  refine hd.imp (refuses_congr h) ?_
  rintro ⟨x, rfl, hx⟩
  exact ⟨x, rfl, by rwa [← (resources_eq_iff.mp h).1]⟩

/-! ## Requests -/

/-- What a request comes to, as far as the shared objects are concerned. -/
inductive Answered (t : c.TaskId) (k : Kernel c) (r : Request c) : Progress c → Kernel c → Prop
  | granted {l : Kernel c} (canFail : Bool) (allowed : r.edit.Allowed t k)
    (resources : l.resources = (r.edit.apply t k).resources) :
    Answered t k r (.done (reply r canFail true (k.received r))) l
  | denied {l : Kernel c} (denied : k.Denies t r) (resources : l.resources = k.resources) :
    Answered t k r (.done (reply r true false r.buffer)) l
  | waits {l : Kernel c} (deadline : Option Ticks) (refused : k.Refuses t r) (resources : l.resources = k.resources) :
    Answered t k r (.dispatch (.waiting (.request r deadline))) l

theorem Answered.congr {k' : Kernel c} {p : Progress c} (h : Answered t k' r p l) (hk : k'.resources = k.resources) :
    Answered t k r p l := by
  cases h with
  | granted canFail allowed resources =>
    rw [received_congr hk]
    exact .granted canFail (allowed_congr hk allowed) (resources.trans (resources_grant_congr hk r))
  | denied denied resources => exact .denied (denies_congr hk denied) (resources.trans hk)
  | waits deadline refused resources => exact .waits deadline (refuses_congr hk refused) (resources.trans hk)

theorem Pursued.answered {deadline : Option Ticks} {p : Progress c} (h : Pursued t k r deadline p l) :
    Answered t k r p l := by
  cases h with
  | granted allowed => exact .granted _ allowed rfl
  | expires timed past refused => exact .denied (.inl refused) rfl
  | waits left armed stop =>
    exact .waits deadline (refuses_congr armed.resources (refuses_of_stops stop))
      ((resources_stops stop).trans armed.resources)

theorem Asked.answered {patience : Patience} {p : Progress c} (h : Asked t k r patience p l) : Answered t k r p l := by
  cases patience with
  | never =>
    obtain ⟨granted, message, rfl, attempted⟩ := h
    cases attempted with
    | granted allowed => exact .granted true allowed rfl
    | denied denied => exact .denied denied rfl
  | forever => exact Pursued.answered h
  | upTo timeout => exact Pursued.answered h

/-! ## What leaves the shared objects alone -/

/-- The section leaves the shared objects alone, unless it ends the run. -/
def Keeps {α : Type} (action : Action c α) (k : Kernel c) : Prop :=
  Ends action k (fun _ l => l.resources = k.resources) fun _ _ => True

theorem takePending_resources (k : Kernel c) : Keeps takePending k := by
  simp only [Keeps, takePending, mask, unmask, ends_bind, ends_get, ends_set, ends_ite, ends_throw, ends_pure]
  refine ⟨fun _ => trivial, fun _ => ⟨fun _ => trivial, fun _ => rfl⟩⟩

theorem applyEvent_resources (k : Kernel c) (event : c.EventId) : Keeps (applyEvent event) k := by
  unfold Keeps applyEvent
  split <;> simp only [ends_bind, ends_taskId, ends_modify] <;> exact ⟨fun _ => rfl, fun _ => trivial⟩

theorem fire_resources (k : Kernel c) (timer : c.TimerId) : Keeps (fire timer) k := by
  refine (ends_bind _ _).mpr (ends_get.mpr ?_)
  split
  · rfl
  · simp only [ends_bind, ends_taskId, ends_get, ends_ite, ends_modify]
    exact ⟨fun _ => ⟨fun _ => rfl, fun _ => rfl⟩, fun _ => trivial⟩
  · trivial
  · rfl

theorem fireIfDue_resources (k : Kernel c) (timer : c.TimerId) : Keeps (fireIfDue timer) k := by
  simp only [Keeps, fireIfDue, ends_bind, ends_get, ends_ite, ends_modify, ends_pure]
  exact ⟨fun _ => fire_resources (k.rearm timer) timer, fun _ => trivial⟩

theorem Keeps.forM {α : Type} {body : α → Action c PUnit} (h : ∀ a k, Keeps (body a) k) (items : List α)
    (k : Kernel c) :
    Keeps (items.forM body) k := by
  have round : ∀ a ∈ items, ∀ l, l.resources = k.resources →
      Ends (body a) l (fun _ l' => l'.resources = k.resources) fun _ _ => True :=
    fun a _ l hl => (h a l).mono (fun _ _ he => he.trans hl) fun _ _ _ => trivial
  exact Ends.forM items round k rfl

theorem applyTicks_resources (k : Kernel c) (ticks : Nat) : Keeps (applyTicks ticks) k := by
  match ticks with
  | 0 => exact rfl
  | 1 => exact Keeps.forM (fun timer k => fireIfDue_resources k timer) _ { k with now := k.now + 1 }
  | _ + 2 => exact trivial

theorem settle_resources (k : Kernel c) : Keeps settle k := by
  refine Ends.bind (takePending_resources k) fun ⟨events, ticks⟩ l hl => ?_
  refine Ends.bind (Keeps.forM (fun event k => applyEvent_resources k event) events l) fun _ m hm => ?_
  exact (applyTicks_resources m ticks).mono (fun _ _ he => (he.trans hm).trans hl) fun _ _ _ => trivial

theorem Idled.resources (h : Idled k l) : l.resources = k.resources := by
  obtain ⟨n, ticks, pending, rfl⟩ := h
  rfl

theorem HandedOver.resources (h : HandedOver t k l) : l.resources = k.resources := by
  obtain ⟨p, rfl⟩ := h.rest
  rfl

theorem Sleeps.resources {ticks : Ticks} {p : Progress c} (h : Sleeps t k ticks p l) : l.resources = k.resources := by
  cases h with
  | yields zero => rfl
  | waits positive accepts timer own stop => exact (resources_stops stop).trans (k.resources_armed t timer ticks)

end Kernel

/-- Whether a call changes a mutex or a semaphore otherwise than by making a request. -/
def Call.gives : Call → Bool
  | .unlock _ | .post _ | .initMax _ _ => true
  | _ => false

/-- The request the task waits for from now on, if it comes to wait for one. -/
def Progress.awaited? : Progress c → Option (Request c)
  | .dispatch (.waiting (.request r _)) => some r
  | _ => none

namespace Kernel

variable {k l : Kernel c} {t : c.TaskId}

/-- The section leaves the shared objects alone, and no task comes to wait for a request, unless it ends the run. -/
def Minds (action : Action c (Progress c)) (k : Kernel c) : Prop :=
  Ends action k (fun p l => l.resources = k.resources ∧ p.awaited? = none) fun _ _ => True

theorem raise_resources (h : k.Ready t) (event : Nat) : Minds (raise event) k := by
  refine (ends_bind _ _).mpr ((ends_eventId event).mpr ⟨fun hi => ?_, fun _ => trivial⟩)
  have ready : (k.recorded ⟨event, hi⟩).Ready t := ⟨h.running, h.context, h.unmasked, h.enabled⟩
  rw [ends_bind, ends_recordEvent h.inside h.unmasked, ends_bind, ends_get, ends_ite]
  refine ⟨fun _ => ⟨rfl, rfl⟩, fun _ => ?_⟩
  refine (ends_bind _ _).mpr ((servicePreemption_spec ready).mono (fun b l hl => ?_) fun _ _ _ => trivial)
  rcases hl with ⟨rfl, rfl⟩ | ⟨rfl, rfl, _⟩ <;> exact ⟨rfl, rfl⟩

theorem perform_resources (ht : c.tasks.size ≤ c.timerCount) (h : k.Ready t) {call : Call} (ha : call.asks = false)
    (hg : call.gives = false) (hy : ∀ task, call ≠ .yieldTo task) : Minds (perform call) k := by
  have hr : k.entered.running = some t := h.running
  cases call with
  | lock mutex patience | wait semaphore patience | put queue message patience | get queue message patience => cases ha
  | unlock mutex | post semaphore | initMax semaphore max => cases hg
  | yieldTo task => exact absurd rfl (hy task)
  | sleep ticks =>
    exact (sleep_spec ht h ticks).mono (fun _ _ hs => ⟨hs.resources, by cases hs <;> rfl⟩) fun _ _ _ => trivial
  | raise event => exact raise_resources h event
  | oneShot timer timeout =>
    refine (ends_bind _ _).mpr ((ends_expectTimeout timeout).mpr ⟨fun _ => ?_, fun _ => trivial⟩)
    simp only [ends_bind, h.ends_enter, ends_timerId, ends_modify, ends_pure]
    exact ⟨fun _ => ⟨rfl, rfl⟩, fun _ => trivial⟩
  | waitSignals set =>
    simp only [Minds, perform, takeOrWait, ends_bind, h.ends_enter, ends_takeSignals hr, ends_ite, ends_pure,
      ends_suspend (k := k.entered.clearSignals t set) hr]
    exact ⟨fun _ => ⟨rfl, rfl⟩, fun _ => ⟨rfl, rfl⟩⟩
  | effectivePriority task =>
    simp only [Minds, perform, effectivePriority, ends_bind, h.ends_enter, ends_taskId, ends_modify, ends_get,
      ends_pure]
    exact ⟨fun _ => ⟨resources_refresh _, rfl⟩, fun _ => trivial⟩
  | _ =>
    simp only [Minds, perform, unblock, ends_bind, h.ends_enter, ends_current_of_running hr, ends_taskId, ends_mutexId,
      ends_semaphoreId, ends_queueId, ends_timerId, ends_takeSignals hr, ends_get, ends_modify, ends_pure,
      ends_suspend hr]
    first
    | exact ⟨rfl, rfl⟩
    | exact ⟨fun _ => ⟨rfl, rfl⟩, fun _ => trivial⟩
    | exact ⟨fun _ => ⟨fun _ => ⟨rfl, rfl⟩, fun _ => trivial⟩, fun _ => trivial⟩

theorem resume_resources (hr : k.running = some t) {wait : Wait c} (hw : ∀ r d, wait ≠ .request r d) :
    Minds (resume wait) k := by
  cases wait with
  | block => exact ⟨rfl, rfl⟩
  | sleep =>
    simp only [Minds, resume, sleepOn, ends_bind, ends_current_of_running hr, ends_get, ends_ite, ends_pure,
      ends_suspend hr]
    exact ⟨fun _ => ⟨trivial, rfl⟩, fun _ => ⟨rfl, rfl⟩⟩
  | signals set =>
    simp only [Minds, resume, takeOrWait, ends_bind, ends_takeSignals hr, ends_ite, ends_pure,
      ends_suspend (k := k.clearSignals t set) hr]
    exact ⟨fun _ => ⟨rfl, rfl⟩, fun _ => ⟨rfl, rfl⟩⟩
  | request r d => exact absurd rfl (hw r d)

theorem unlock_spec (h : k.Ready t) (mutex : Nat) : Ends (perform (.unlock mutex)) k
    (fun p l => p = .done .unit ∧ ∃ x : c.MutexId, x.val = mutex ∧ k.holders[x] = some t ∧
      l.resources = (k.freeMutex x).resources) fun _ _ => True := by
  have hr : k.entered.running = some t := h.running
  simp only [perform, ends_bind, h.ends_enter, ends_mutexId, ends_unlock hr, ends_pure]
  refine ⟨fun hx => ⟨fun own => ?_, fun _ => trivial⟩, fun _ => trivial⟩
  exact ⟨trivial, ⟨mutex, hx⟩, rfl, own, resources_release (t := t) k.entered ⟨mutex, hx⟩⟩

theorem post_resources (h : k.Ready t) {call : Call}
    (hc : (∃ semaphore, call = .post semaphore) ∨ ∃ semaphore max, call = .initMax semaphore max) :
    Ends (perform call) k (fun p l => p = .done .unit ∧ l.holders = k.holders ∧ l.rings = k.rings ∧ l.pool = k.pool)
      fun _ _ => True := by
  rcases hc with ⟨semaphore, rfl⟩ | ⟨semaphore, max, rfl⟩
  · simp only [perform, ends_bind, h.ends_enter, ends_semaphoreId]
    refine ⟨fun hs => ?_, fun _ => trivial⟩
    refine (post_spec (t := t) ⟨semaphore, hs⟩).mono (fun _ l hl => ?_) fun _ _ _ => trivial
    obtain ⟨value, _, rfl⟩ := hl
    simp only [ends_pure, Edit.apply]
    split
    · obtain ⟨s, states, pending, he, _⟩ := (k.entered.setValue ⟨semaphore, hs⟩ value).wakeWaiters_eq
        (.semaphore ⟨semaphore, hs⟩)
      rw [he]
      exact ⟨trivial, rfl, rfl, rfl⟩
    · exact ⟨trivial, rfl, rfl, rfl⟩
  · simp only [perform, ends_bind, h.ends_enter, ends_semaphoreId, ends_initMax, ends_pure]
    refine ⟨fun _ => ⟨fun _ => trivial, fun _ => ⟨fun _ => trivial, fun _ => ?_⟩⟩, fun _ => trivial⟩
    exact ⟨trivial, rfl, rfl, rfl⟩

end Kernel

end Rtos
