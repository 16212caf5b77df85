import Rtos.Kernel.Perform
import Rtos.Proofs.Kernel.Schedule

/-!
# The same system under another policy

* `Config.under`: the same objects in the same pools, scheduled by another policy.
* `Kernel.recast`: the state of a system as a state of the same system under another policy, which keeps a schedule of
  its own.
* `modifyTask_recast` and its siblings: what is changed without regard to the schedule is changed in the same way.
-/

namespace Rtos
set_option autoImplicit false

/-- The same objects in the same pools, under the given policy. -/
abbrev Config.under (c : Config) (p : Policy) : Config := { c with policy := p }

variable {c : Config} {p : Policy}

/-! ## Objects -/

def WaitObject.recast (p : Policy) : WaitObject c → WaitObject (c.under p)
  | .mutex x => .mutex x
  | .semaphore s => .semaphore s
  | .queue q => .queue q

def TaskState.recast (p : Policy) (s : TaskState c) : TaskState (c.under p) where
  signals := s.signals
  wait := s.wait.map (·.recast p)
  timedOut := s.timedOut

def TimerEffect.recast (p : Policy) : TimerEffect c → TimerEffect (c.under p)
  | .user action => .user action
  | .timeout task => .timeout task

def TimerState.recast (p : Policy) (s : TimerState c) : TimerState (c.under p) where
  enabled := s.enabled
  expiry := s.expiry
  reload := s.reload
  overflow := s.overflow
  effect := s.effect.recast p

/-- The same position in the timer pool. -/
def sameTimer (p : Policy) (id : c.TimerId) : (c.under p).TimerId := id

theorem WaitObject.recast_inj {o o' : WaitObject c} : o.recast p = o'.recast p ↔ o = o' := by
  constructor
  · intro h
    cases o <;> cases o' <;> cases h <;> rfl
  · exact congrArg _

/-! ## Waits -/

def Request.recast (p : Policy) : Request c → Request (c.under p)
  | .lock x => .lock x
  | .token s => .token s
  | .put q message => .put q message
  | .get q message => .get q message

def Wait.recast (p : Policy) : Wait c → Wait (c.under p)
  | .block => .block
  | .sleep => .sleep
  | .signals set => .signals set
  | .request r deadline => .request (r.recast p) deadline

def Suspension.recast (p : Policy) : Suspension c → Suspension (c.under p)
  | .entry => .entry
  | .returning reply => .returning reply
  | .waiting wait => .waiting (wait.recast p)

def Progress.recast (p : Policy) : Progress c → Progress (c.under p)
  | .done value => .done value
  | .returned value => .returned value
  | .dispatch s => .dispatch (s.recast p)
  | .handOver t s => .handOver t (s.recast p)

theorem Request.object_recast (r : Request c) : (r.recast p).object = r.object.recast p := by
  cases r <;> rfl

/-! ## Tables -/

namespace Table

variable {α β : Type} {n : Nat}

/-- Apply a function to every entry. -/
def map (f : α → β) (t : Table α n) : Table β n := ofFn fun i => f t[i]

theorem getElem_map (f : α → β) (t : Table α n) (i : Fin n) : (t.map f)[i] = f t[i] := getElem_ofFn ..

theorem map_set (f : α → β) (t : Table α n) (i : Fin n) (value : α) :
    (t.set i value).map f = (t.map f).set i (f value) := by
  ext j
  by_cases h : j = i
  · subst h
    rw [getElem_map, getElem_set_self, getElem_set_self]
  · rw [getElem_map, getElem_set_of_ne _ _ h, getElem_set_of_ne _ _ h, getElem_map]

theorem map_replicate (f : α → β) (value : α) : (replicate n value).map f = replicate n (f value) := by
  ext i
  rw [getElem_map, getElem_replicate, getElem_replicate]

theorem map_ofFn (f : Fin n → α) (g : α → β) : (ofFn f).map g = ofFn fun i => g (f i) := by
  ext i
  rw [getElem_map, getElem_ofFn, getElem_ofFn]

end Table

namespace Kernel

/-! ## States -/

/-- The state as one of the same system under another policy, which keeps the given schedule. -/
def recast (k : Kernel c) (s : Schedule (c.under p)) : Kernel (c.under p) where
  preemptDisabled := k.preemptDisabled
  preemptPending := k.preemptPending
  raised := k.raised
  pendingTicks := k.pendingTicks
  running := k.running
  now := k.now
  schedule := s
  tasks := k.tasks.map (·.recast p)
  holders := k.holders
  semaphores := k.semaphores
  rings := k.rings
  pool := k.pool
  timers := k.timers.map (·.recast p)
  processor := k.processor

section
variable (k : Kernel c) (s : Schedule (c.under p)) (t : c.TaskId) (id : c.TimerId)

theorem task_recast : (k.recast s).tasks[t] = k.tasks[t].recast p := Table.getElem_map ..

theorem timer_recast :
    (k.recast s).timers[sameTimer p id] = k.timers[id].recast p := Table.getElem_map (TimerState.recast p) k.timers id

theorem pendingSignals_recast (set : SignalSet) : (k.recast s).pendingSignals t set = k.pendingSignals t set := by
  rw [pendingSignals, task_recast]
  rfl

theorem isDue_recast : (k.recast s).isDue (sameTimer p id) = k.isDue id := by
  rw [isDue, timer_recast]
  rfl

theorem ticksToFiring_recast : (k.recast s).ticksToFiring (sameTimer p id) = k.ticksToFiring id := by
  rw [ticksToFiring, timer_recast]
  rfl

theorem wait_recast (o : WaitObject c) : (k.recast s).tasks[t].wait = some (o.recast p) ↔ k.tasks[t].wait = some o := by
  rw [task_recast]
  constructor
  · intro h
    obtain ⟨o', wait, he⟩ := Option.map_eq_some_iff.mp h
    rw [wait, WaitObject.recast_inj.mp he]
  · intro h
    rw [TaskState.recast, h]
    rfl

theorem waiters_recast (o : WaitObject c) : (k.recast s).waiters (o.recast p) = k.waiters o :=
  List.filter_congr fun t _ => by rw [Bool.eq_iff_iff, decide_eq_true_iff, decide_eq_true_iff, wait_recast]

theorem waitsConsistent_recast : (k.recast s).waitsConsistent = k.waitsConsistent := by
  unfold waitsConsistent
  refine congrArg (List.all _) (funext fun t => ?_)
  rw [task_recast]
  unfold TaskState.recast
  match k.tasks[t].wait with
  | none => rfl
  | some (.mutex x) => rfl
  | some (.semaphore s) => rfl
  | some (.queue q) => rfl

theorem isConsistent_recast : (k.recast s).isConsistent = k.isConsistent := by
  rw [isConsistent, waitsConsistent_recast]
  rfl

theorem modifyTask_recast {f : TaskState c → TaskState c} {g : TaskState (c.under p) → TaskState (c.under p)}
    (hf : ∀ s, g (s.recast p) = (f s).recast p) : (k.recast s).modifyTask t g = (k.modifyTask t f).recast s := by
  have tasks : (k.tasks.map (·.recast p)).set t (g (k.tasks.map (·.recast p))[t]) =
      (k.modifyTask t f).tasks.map (·.recast p) := by
    rw [Table.getElem_map, hf]
    exact (Table.map_set ..).symm
  exact congrArg (fun tasks => { k.recast s with tasks := tasks }) tasks

theorem modifyTimer_recast {f : TimerState c → TimerState c} {g : TimerState (c.under p) → TimerState (c.under p)}
    (hf : ∀ s, g (s.recast p) = (f s).recast p) :
    (k.recast s).modifyTimer (sameTimer p id) g = (k.modifyTimer id f).recast s := by
  have timers : (k.timers.map (·.recast p)).set id (g (k.timers.map (·.recast p))[id]) =
      (k.modifyTimer id f).timers.map (·.recast p) := by
    rw [Table.getElem_map, hf]
    exact (Table.map_set ..).symm
  exact congrArg (fun timers => { k.recast s with timers := timers }) timers

theorem rearm_recast : (k.recast s).rearm (sameTimer p id) = (k.rearm id).recast s := by
  refine k.modifyTimer_recast s id fun timer => ?_
  rw [apply_ite (TimerState.recast p)]
  rfl

theorem startTimer_recast : (k.recast s).startTimer (sameTimer p id) = (k.startTimer id).recast s := by
  refine k.modifyTimer_recast s id fun timer => ?_
  rw [apply_ite (TimerState.recast p)]
  rfl

end

/-! ## Before the kernel starts -/

theorem initialTimer_recast (id : c.TimerId) :
    initialTimer (c.under p) (sameTimer p id) = (initialTimer c id).recast p := by
  unfold initialTimer
  by_cases h : id.val < c.timers.size
  · rw [dif_pos h, dif_pos (show (sameTimer p id).val < (c.under p).timers.size from h)]
    rfl
  · rw [dif_neg h, dif_neg (show ¬ (sameTimer p id).val < (c.under p).timers.size from h)]
    rfl

theorem initial_recast : initial (c.under p) = (initial c).recast (Schedule.initial (c.under p)) := by
  have tasks : Table.replicate c.tasks.size ({} : TaskState (c.under p)) =
      (Table.replicate c.tasks.size ({} : TaskState c)).map (·.recast p) :=
      (Table.map_replicate (TaskState.recast p) {}).symm
  have timers : Table.ofFn (initialTimer (c.under p)) = (Table.ofFn (initialTimer c)).map (·.recast p) := by
    rw [Table.map_ofFn]
    exact congrArg Table.ofFn (funext fun id => initialTimer_recast (c := c) id)
  unfold initial recast
  congr 1

end Kernel

end Rtos
