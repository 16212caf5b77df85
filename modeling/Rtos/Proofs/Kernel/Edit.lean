import Rtos.Kernel.Perform
import Rtos.Proofs.Kernel.Action
import Rtos.Proofs.Kernel.Waiting

/-!
# What a task does to the kernel

Whatever the running task has the kernel do is a sequence of a few elementary changes. What holds of every change holds
of every operation, and the operations have to be looked at only once.

* `Edit`: an elementary change; `Edit.apply` makes it, and `Edit.Allowed` says when the kernel does.
* `Edits`: a sequence of allowed changes.
* `Stops`: how a task stops running, with the place where it goes on.
* `Goes`: how an operation goes: some changes, and then its end or the point where the task stops. It takes no mutex,
  and waits for none, but the one it is about.
-/

namespace Rtos
set_option autoImplicit false

variable {c : Config}

/-- An elementary change to the kernel on behalf of the running task. -/
inductive Edit (c : Config)
  | enter
  | record (event : c.EventId)
  | refresh
  | rouse (task : c.TaskId)
  | send (task : c.TaskId) (set : SignalSet)
  | clear (set : SignalSet)
  /-- Forget that the timeout timer of the running task has fired. -/
  | resetTimeout
  | timer (timer : c.TimerId) (change : TimerState c → TimerState c)
  | take (mutex : c.MutexId)
  | release (mutex : c.MutexId)
  | takeToken (semaphore : c.SemaphoreId)
  /-- Add a token to a semaphore, which then has the given value. -/
  | addToken (semaphore : c.SemaphoreId) (value : UInt32)
  | setMax (semaphore : c.SemaphoreId) (max : UInt32)
  | store (queue : c.QueueId) (message : Buffer)
  | fetch (queue : c.QueueId) (message : Buffer)
  /-- Erase the record of the wait of the running task. -/
  | endWait (object : WaitObject c)

namespace Kernel

def entered (k : Kernel c) : Kernel c := { k with preemptDisabled := true }

def recorded (k : Kernel c) (event : c.EventId) : Kernel c := requestSwitch { k with raised := k.raised.set event true }

end Kernel

namespace Edit
open Kernel

def apply (t : c.TaskId) (k : Kernel c) : Edit c → Kernel c
  | enter => k.entered
  | record event => k.recorded event
  | refresh => k.refresh
  | rouse task => (k.makeRunnable task).requestSwitch
  | send task set => (k.sendSignals task set).requestSwitch
  | clear set => k.clearSignals t set
  | resetTimeout => k.modifyTask t fun s => { s with timedOut := false }
  | timer id change => k.modifyTimer id change
  | take mutex => k.takeMutex mutex t
  | release mutex => ((k.freeMutex mutex).wakeLockers mutex).requestSwitch
  | takeToken semaphore => k.setValue semaphore (k.semaphores[semaphore].value - 1)
  | addToken semaphore value =>
    if k.semaphores[semaphore].value = 0 then (k.setValue semaphore value).wakeWaiters (.semaphore semaphore)
    else k.setValue semaphore value
  | setMax semaphore max => k.setMax semaphore max
  | store queue message =>
    let l := (k.copyIn message (k.slotStart queue (k.tailSlot queue))).pushed queue
    if k.rings[queue].count = 0 then l.wakeWaiters (.queue queue) else l
  | fetch queue message =>
    let l := (k.copyOut message (k.slotStart queue k.rings[queue].head)).1.popped queue
    if k.rings[queue].count = capacity queue then l.wakeWaiters (.queue queue) else l
  | endWait object => (k.setWait t none).noteWaiters object

/-- When the kernel makes a change on behalf of `t`. -/
def Allowed (t : c.TaskId) (k : Kernel c) : Edit c → Prop
  | take mutex => k.holders[mutex] = none
  | release mutex => k.holders[mutex] = some t
  | takeToken semaphore => k.semaphores[semaphore].value ≠ 0
  | addToken semaphore value => SemaphoreState.posted? k.semaphores[semaphore] = some value
  | setMax semaphore max =>
    k.semaphores[semaphore].max = none ∧ max ≠ 0 ∧ k.semaphores[semaphore].value ≤ max
  | store queue message => k.rings[queue].count ≠ capacity queue ∧
    message.overlaps (k.slotStart queue (k.tailSlot queue)) (elementSize queue) = false
  | fetch queue message => k.rings[queue].count ≠ 0 ∧
    message.overlaps (k.slotStart queue k.rings[queue].head) (elementSize queue) = false
  -- The timers of the application never come to end waits, and the timeout timer of the task always ends its wait.
  | timer id change =>
    (id.val < c.userTimers ∧ ∀ s u, (change s).effect = .timeout u → s.effect = .timeout u) ∨
      (id.val = c.userTimers + t ∧ ∀ s, (change s).effect = s.effect ∧ (s.reload = 0 → (change s).reload = 0))
  | _ => True

end Edit

/-- The change that grants a request. -/
def Request.edit : Request c → Edit c
  | .lock x => .take x
  | .token s => .takeToken s
  | .put q message => .store q message
  | .get q message => .fetch q message

/-- The mutex a request is for, if it is one for a mutex. -/
def Request.mutex? : Request c → Option c.MutexId
  | .lock x => some x
  | _ => none

theorem Request.mutex?_of_take (r : Request c) {x : c.MutexId} (h : .take x = r.edit) : r.mutex? = some x := by
  cases r <;> cases h
  rfl

def Wait.mutex? : Wait c → Option c.MutexId
  | .request r _ => r.mutex?
  | _ => none

theorem Wait.of_mutex? (w : Wait c) {x : c.MutexId} (h : w.mutex? = some x) :
    ∃ deadline, w = .request (.lock x) deadline := by
  cases w with
  | request r deadline =>
    cases r <;> cases h
    exact ⟨deadline, rfl⟩
  | block => cases h
  | sleep => cases h
  | signals set => cases h

/-- The mutex a call asks for, if it asks for one that exists. -/
def Call.mutex? (c : Config) : Call → Option c.MutexId
  | .lock mutex _ => if h : mutex < c.mutexes.size then some ⟨mutex, h⟩ else none
  | _ => none

/-- Whether a call makes a request. -/
def Call.asks : Call → Bool
  | .lock _ _ | .wait _ _ | .put _ _ _ | .get _ _ _ => true
  | _ => false

/-- The request a call makes, and with which patience, if it makes one to an object that exists. -/
def Call.request? (c : Config) : Call → Option (Request c × Patience)
  | .lock mutex patience => if h : mutex < c.mutexes.size then some (.lock ⟨mutex, h⟩, patience) else none
  | .wait semaphore patience =>
    if h : semaphore < c.semaphores.size then some (.token ⟨semaphore, h⟩, patience) else none
  | .put queue message patience => if h : queue < c.queues.size then some (.put ⟨queue, h⟩ message, patience) else none
  | .get queue message patience => if h : queue < c.queues.size then some (.get ⟨queue, h⟩ message, patience) else none
  | _ => none

theorem Call.asks_of_request {call : Call} {r : Request c} {patience : Patience}
    (h : call.request? c = some (r, patience)) : call.asks = true := by
  cases call with
  | lock mutex patience | wait semaphore patience | put queue message patience | get queue message patience => rfl
  | _ => cases h

theorem Call.mutex?_of_request {call : Call} {r : Request c} {patience : Patience}
    (h : call.request? c = some (r, patience)) : call.mutex? c = r.mutex? := by
  cases call with
  | lock mutex patience =>
    simp only [Call.request?, Call.mutex?] at h ⊢
    split at h
    · next hx =>
      cases h
      exact dif_pos hx
    · cases h
  | wait semaphore patience | put queue message patience | get queue message patience =>
    simp only [Call.request?] at h
    split at h <;> cases h
    rfl
  | _ => cases h

/-- Some allowed changes, one after the other. -/
inductive Edits (t : c.TaskId) : Kernel c → List (Edit c) → Kernel c → Prop
  | nil (k : Kernel c) : Edits t k [] k
  | cons {k l : Kernel c} {e : Edit c} {es : List (Edit c)} (allowed : e.Allowed t k)
    (rest : Edits t (e.apply t k) es l) : Edits t k (e :: es) l

namespace Edits
variable {t : c.TaskId} {k l m : Kernel c} {es fs : List (Edit c)}

theorem one {e : Edit c} (h : e.Allowed t k) : Edits t k [e] (e.apply t k) := .cons h (.nil _)

theorem trans (h : Edits t k es l) (h' : Edits t l fs m) : Edits t k (es ++ fs) m := by
  induction h with
  | nil k => exact h'
  | cons allowed _ ih => exact .cons allowed (ih h')

end Edits

/-! ## What no change touches -/

/-- The task that owns the processor, the processor and the recorded ticks stay as they are; preemption is not enabled,
a task switch that is asked for stays asked for, and whoever records an event asks for one. -/
structure Frame (k l : Kernel c) : Prop where
  running : l.running = k.running
  processor : l.processor = k.processor
  pendingTicks : l.pendingTicks = k.pendingTicks
  preemptDisabled : k.preemptDisabled = true → l.preemptDisabled = true
  preemptPending : k.preemptPending = true → l.preemptPending = true
  raised : l.raised = k.raised ∨ l.preemptPending = true

namespace Frame
variable {k l m : Kernel c}

theorem refl (k : Kernel c) : Frame k k := ⟨rfl, rfl, rfl, id, id, .inl rfl⟩

theorem trans (h : Frame k l) (h' : Frame l m) : Frame k m where
  running := h'.running.trans h.running
  processor := h'.processor.trans h.processor
  pendingTicks := h'.pendingTicks.trans h.pendingTicks
  preemptDisabled hk := h'.preemptDisabled (h.preemptDisabled hk)
  preemptPending hk := h'.preemptPending (h.preemptPending hk)
  raised := by
    rcases h.raised with he | hp
    · exact h'.raised.imp_left fun he' => he'.trans he
    · exact .inr (h'.preemptPending hp)

theorem thread (h : Frame k l) {task : Option c.TaskId} (ht : k.processor.thread = task) :
    l.processor.thread = task := by
  rw [h.processor]
  exact ht

theorem requestSwitch (k : Kernel c) : Frame k k.requestSwitch := ⟨rfl, rfl, rfl, id, fun _ => rfl, .inr rfl⟩

theorem wakeWaiters (k : Kernel c) (o : WaitObject c) : Frame k (k.wakeWaiters o) := by
  obtain ⟨s, states, pending, he, hp⟩ := k.wakeWaiters_eq o
  rw [he]
  exact ⟨rfl, rfl, rfl, id, hp, .inl rfl⟩

theorem wakeLockers (k : Kernel c) (x : c.MutexId) : Frame k (k.wakeLockers x) := by
  obtain ⟨s, states, pending, he, hp⟩ := k.wakeLockers_eq x
  rw [he]
  exact ⟨rfl, rfl, rfl, id, hp, .inl rfl⟩

end Frame

theorem Edit.frame (t : c.TaskId) (k : Kernel c) (e : Edit c) : Frame k (e.apply t k) := by
  cases e with
  | enter => exact ⟨rfl, rfl, rfl, fun _ => rfl, id, .inl rfl⟩
  | record event => exact ⟨rfl, rfl, rfl, id, fun _ => rfl, .inr rfl⟩
  | refresh =>
    obtain ⟨s, hs, _⟩ := k.refresh_eq
    rw [Edit.apply, hs]
    exact ⟨rfl, rfl, rfl, id, id, .inl rfl⟩
  | rouse task => exact ⟨rfl, rfl, rfl, id, fun _ => rfl, .inr rfl⟩
  | send task set => exact ⟨rfl, rfl, rfl, id, fun _ => rfl, .inr rfl⟩
  | clear set => exact ⟨rfl, rfl, rfl, id, id, .inl rfl⟩
  | resetTimeout => exact ⟨rfl, rfl, rfl, id, id, .inl rfl⟩
  | timer id change => exact ⟨rfl, rfl, rfl, fun h => h, fun h => h, .inl rfl⟩
  | take mutex => exact ⟨rfl, rfl, rfl, id, id, .inl rfl⟩
  | release mutex =>
    have free : Frame k (k.freeMutex mutex) := ⟨rfl, rfl, rfl, id, id, .inl rfl⟩
    exact (free.trans (Frame.wakeLockers _ mutex)).trans (Frame.requestSwitch _)
  | takeToken semaphore => exact ⟨rfl, rfl, rfl, id, id, .inl rfl⟩
  | addToken semaphore value =>
    have set : Frame k (k.setValue semaphore value) := ⟨rfl, rfl, rfl, id, id, .inl rfl⟩
    rw [Edit.apply]
    split
    · exact set.trans (Frame.wakeWaiters _ _)
    · exact set
  | setMax semaphore max => exact ⟨rfl, rfl, rfl, id, id, .inl rfl⟩
  | store queue message =>
    have push : Frame k ((k.copyIn message (k.slotStart queue (k.tailSlot queue))).pushed queue) := by
      cases message <;> exact ⟨rfl, rfl, rfl, id, id, .inl rfl⟩
    simp only [Edit.apply]
    split
    · exact push.trans (Frame.wakeWaiters _ _)
    · exact push
  | fetch queue message =>
    have pop : Frame k ((k.copyOut message (k.slotStart queue k.rings[queue].head)).1.popped queue) := by
      cases message <;> exact ⟨rfl, rfl, rfl, id, id, .inl rfl⟩
    simp only [Edit.apply]
    split
    · exact pop.trans (Frame.wakeWaiters _ _)
    · exact pop
  | endWait object => cases object <;> exact ⟨rfl, rfl, rfl, id, id, .inl rfl⟩

theorem Edits.frame {t : c.TaskId} {k l : Kernel c} {es : List (Edit c)} (h : Edits t k es l) : Frame k l := by
  induction h with
  | nil k => exact Frame.refl k
  | cons _ _ ih => exact (Edit.frame t _ _).trans ih

/-! ## How a critical section goes -/

/-- How a task stops running: it goes on at the given place when it is given the processor. -/
inductive Stops (t : c.TaskId) (k : Kernel c) : Suspension c → Kernel c → Prop
  /-- It gives way, but stays runnable. -/
  | yields : Stops t k (.returning (some .unit)) k
  /-- It waits, but not for a request. -/
  | suspends (wait : Wait c) (other : ∀ r d, wait ≠ .request r d) :
    Stops t k (.waiting wait) { k with schedule := k.schedule.setBlocked t }
  /-- It waits for a request that is refused. -/
  | awaits (r : Request c) (deadline : Option Ticks) (refused : k.Refuses t r) :
    Stops t k (.waiting (.request r deadline))
      { (k.setWait t (some r.object)).noteWaiters r.object with
        schedule := ((k.setWait t (some r.object)).noteWaiters r.object).schedule.setBlocked t }

def Suspension.mutex? : Suspension c → Option c.MutexId
  | .waiting wait => wait.mutex?
  | _ => none

/-- How an operation of `t` goes that starts from `k`: after some changes it comes to its end, or to where the task
stops. It takes no mutex, and waits for none, but the given one. -/
inductive Goes (t : c.TaskId) (k : Kernel c) (mutex : Option c.MutexId) : Progress c → Kernel c → Prop
  | done {l : Kernel c} {es : List (Edit c)} (value : Value) (edits : Edits t k es l)
    (takes : ∀ x, .take x ∈ es → mutex = some x) : Goes t k mutex (.done value) l
  | stops {l m : Kernel c} {es : List (Edit c)} {s : Suspension c} (edits : Edits t k es m)
    (takes : ∀ x, .take x ∈ es → mutex = some x) (stop : Stops t m s l)
    (waits : ∀ x, s.mutex? = some x → mutex = some x) : Goes t k mutex (.dispatch s) l

theorem Stops.frame {t : c.TaskId} {k l : Kernel c} {s : Suspension c} (h : Stops t k s l) : Frame k l := by
  cases h with
  | yields => exact Frame.refl k
  | suspends wait other => exact ⟨rfl, rfl, rfl, id, id, .inl rfl⟩
  | awaits r deadline refused => cases r <;> exact ⟨rfl, rfl, rfl, id, id, .inl rfl⟩

namespace Goes
variable {t : c.TaskId} {k l : Kernel c} {mutex : Option c.MutexId} {p : Progress c}

theorem frame (h : Goes t k mutex p l) : Frame k l := by
  cases h with
  | done value edits takes => exact edits.frame
  | stops edits takes stop waits => exact edits.frame.trans stop.frame

theorem unchanged (value : Value) : Goes t k mutex (.done value) k := .done value (.nil k) nofun

theorem after {e : Edit c} (h : e.Allowed t k) (he : ∀ x, .take x = e → mutex = some x) (value : Value) :
    Goes t k mutex (.done value) (e.apply t k) :=
  .done value (.one h) fun x hx => he x (List.mem_singleton.mp hx)

theorem timer {id : c.TimerId} (hi : id.val < c.userTimers) {change : TimerState c → TimerState c}
    (hc : ∀ s u, (change s).effect = .timeout u → s.effect = .timeout u) (value : Value) :
    Goes t k mutex (.done value) (k.modifyTimer id change) :=
  after (e := .timer id change) (.inl ⟨hi, hc⟩) nofun value

theorem stop {s : Suspension c} (h : Stops t k s l) (hs : ∀ x, s.mutex? = some x → mutex = some x) :
    Goes t k mutex (.dispatch s) l :=
  .stops (.nil k) nofun h hs

theorem of_edits {m : Kernel c} {es : List (Edit c)} (h : Edits t k es l) (he : ∀ x, .take x ∉ es)
    (hg : Goes t l mutex p m) : Goes t k mutex p m := by
  have takes : ∀ {fs : List (Edit c)}, (∀ x, .take x ∈ fs → mutex = some x) →
      ∀ x, .take x ∈ es ++ fs → mutex = some x := by
    intro fs hfs x hx
    rcases List.mem_append.mp hx with hx | hx
    · exact absurd hx (he x)
    · exact hfs x hx
  cases hg with
  | done value edits only => exact .done value (h.trans edits) (takes only)
  | stops edits only stop waits => exact .stops (h.trans edits) (takes only) stop waits

theorem of_entered (h : Goes t k.entered mutex p l) : Goes t k mutex p l ∧ l.preemptDisabled = true :=
  ⟨h.of_edits (.one (e := .enter) trivial) (by simp), h.frame.preemptDisabled rfl⟩

end Goes

end Rtos
