import Rtos.Proofs.Kernel.Timeout
import Rtos.Proofs.Ticks

/-!
# Plain calls

Most calls neither make a request nor sleep. Such a call makes one change to the kernel at most.

* `TimerState.started` and its siblings: what the operations on a timer make of it.
* `Call.change?`, `Call.edit?`: the change a call makes to a timer, and to the kernel.
* `perform_plain`: that is all a plain call does, except that the task may stop being runnable.
-/

namespace Rtos
set_option autoImplicit false

variable {c : Config}

/-! ## Changes of timers -/

namespace TimerState

def started (now : Ticks) (s : TimerState c) : TimerState c :=
  if s.reload = 0 then { s with enabled := false } else { s with expiry := now + s.reload, enabled := true }

def stopped (s : TimerState c) : TimerState c := { s with enabled := false }

def once (now timeout : Ticks) (s : TimerState c) : TimerState c :=
  { s with reload := 0, expiry := now + max timeout 1, enabled := true }

/-- If the timer is enabled, it is not set to the current tick. -/
def Ahead (now : Ticks) (s : TimerState c) : Prop := s.enabled = true → s.expiry ≠ now

end TimerState

/-- The number of the timer a call is about, and what the call makes of it. -/
def Call.change? (now : Ticks) : Call → Option (Nat × (TimerState c → TimerState c))
  | .enableTimer timer => some (timer, .started now)
  | .disableTimer timer => some (timer, .stopped)
  | .oneShot timer timeout => some (timer, .once now timeout)
  | .setReload timer reload => some (timer, fun s => { s with reload := reload })
  | .setTimerSignal timer task set => some (timer, fun s => { s with effect := .user (.signal task set) })
  | .setTimerError timer error => some (timer, fun s => { s with effect := .user (.error error) })
  | .takeOverflow timer => some (timer, fun s => { s with overflow := false })
  | _ => none

/-- What a call makes of a timer of the application. -/
def Call.retimed (now : Ticks) (id : c.TimerId) (call : Call) (s : TimerState c) : TimerState c :=
  match call.change? now with
  | some (timer, change) => if timer = id then change s else s
  | none => s

/-- However the application sets a timer, it is not set to the current tick. -/
theorem TimerState.Ahead.change? {now : Ticks} {s : TimerState c} (h : s.Ahead now) {call : Call} {timer : Nat}
    {change : TimerState c → TimerState c} (hc : call.change? now = some (timer, change)) : (change s).Ahead now := by
  cases call with
  | enableTimer timer =>
    cases hc
    unfold started
    split
    · exact nofun
    · next reload => exact fun _ => add_ne now reload
  | disableTimer timer =>
    cases hc
    exact nofun
  | oneShot timer timeout =>
    cases hc
    refine fun _ => add_ne now fun none => ?_
    have positive : (max timeout 1).toNat = 0 := congrArg UInt32.toNat none
    rw [toNat_max, UInt32.toNat_one] at positive
    omega
  | setReload timer reload | setTimerSignal timer task set | setTimerError timer error | takeOverflow timer =>
    cases hc
    exact h
  | _ => cases hc

/-! ## Changes of the kernel -/

/-- A call that neither makes a request nor sleeps, and that hands the processor to no task of its choice. -/
structure Call.IsPlain (call : Call) : Prop where
  asks : call.asks = false
  sleeps : ∀ ticks, call ≠ .sleep ticks
  yields : ∀ task, call ≠ .yieldTo task

/-- Any other call but yielding to a task makes a request or sleeps. -/
theorem Call.waits_or_plain (call : Call) (hy : ∀ task, call ≠ .yieldTo task) :
    (call.asks = true ∨ ∃ ticks, call = .sleep ticks) ∨ call.IsPlain := by
  by_cases waits : call.asks = true ∨ ∃ ticks, call = .sleep ticks
  · exact .inl waits
  · rw [not_or] at waits
    exact .inr ⟨Bool.eq_false_iff.mpr waits.1, fun ticks he => waits.2 ⟨ticks, he⟩, hy⟩

/-- The change that a plain call makes if it succeeds. -/
def Call.edit? (k : Kernel c) (call : Call) : Option (Edit c) :=
  match call.change? k.now with
  | some (timer, change) =>
    if h : timer < c.userTimers then some (.timer ⟨timer, Config.lt_timerCount h⟩ change) else none
  | none =>
    match call with
    | .unblock task | .start task => if h : task < c.tasks.size then some (.rouse ⟨task, h⟩) else none
    | .effectivePriority _ => some .refresh
    | .waitSignals set | .pollSignals set => some (.clear set)
    | .sendSignals task set => if h : task < c.tasks.size then some (.send ⟨task, h⟩ set) else none
    | .unlock mutex => if h : mutex < c.mutexes.size then some (.release ⟨mutex, h⟩) else none
    | .post semaphore =>
      if h : semaphore < c.semaphores.size then
        let id : c.SemaphoreId := ⟨semaphore, h⟩
        (Kernel.SemaphoreState.posted? k.semaphores[id]).map (.addToken id)
      else none
    | .initMax semaphore max => if h : semaphore < c.semaphores.size then some (.setMax ⟨semaphore, h⟩ max) else none
    | .raise event => if h : event < c.events.size then some (.record ⟨event, h⟩) else none
    | _ => none

namespace Kernel

variable {k l : Kernel c} {t u : c.TaskId} {call : Call} {e : Edit c}

/-- The kernel after a plain call. -/
def changed (k : Kernel c) (t : c.TaskId) (call : Call) : Kernel c :=
  match call.edit? k with
  | some e => e.apply t k.entered
  | none => k.entered

theorem changed_of_edit (h : call.edit? k = some e) : k.changed t call = e.apply t k.entered := by rw [changed, h]

theorem changed_of_none (h : call.edit? k = none) : k.changed t call = k.entered := by rw [changed, h]

theorem changed_timer (k : Kernel c) (t : c.TaskId) {timer : Nat} {change : TimerState c → TimerState c}
    (hc : call.change? k.now = some (timer, change)) (hi : timer < c.userTimers) :
    k.changed t call = k.entered.modifyTimer ⟨timer, Nat.lt_of_lt_of_le hi (Nat.sub_le _ _)⟩ change :=
  changed_of_edit (e := .timer ⟨timer, _⟩ change) (by simp only [Call.edit?, hc, dif_pos hi])

theorem changed_of_missing (k : Kernel c) (t : c.TaskId) {timer : Nat} {change : TimerState c → TimerState c}
    (hc : call.change? k.now = some (timer, change)) (hi : ¬ timer < c.userTimers) : k.changed t call = k.entered :=
  changed_of_none (by simp only [Call.edit?, hc, dif_neg hi])

theorem times_edit? (hc : call.change? (c := c) k.now = none) (he : call.edit? k = some e) : e.times = false := by
  cases call with
  | enableTimer timer | disableTimer timer | oneShot timer timeout | setReload timer reload
  | setTimerSignal timer task set
  | setTimerError timer error | takeOverflow timer => cases hc
  | unblock task | start task | sendSignals task set | unlock mutex | initMax semaphore max | raise event =>
    obtain ⟨_, he⟩ := Option.dite_none_right_eq_some.mp he
    cases he
    rfl
  | post semaphore =>
    obtain ⟨_, he⟩ := Option.dite_none_right_eq_some.mp he
    obtain ⟨value, _, rfl⟩ := Option.map_eq_some_iff.mp he
    rfl
  | effectivePriority task | waitSignals set | pollSignals set =>
    cases he
    rfl
  | _ => cases he

/-- A call that is about no timer takes no time, and nothing happens to a timer. -/
theorem timeless_changed (t : c.TaskId) (hc : call.change? (c := c) k.now = none) : Timeless k (k.changed t call) := by
  have entered : Timeless k k.entered := .of_eq rfl rfl rfl
  cases he : call.edit? k with
  | none => rw [changed_of_none he]; exact entered
  | some e => rw [changed_of_edit he]; exact entered.trans (timeless_edit _ t (times_edit? hc he))

/-- A call that is about a timer changes that timer and no other. -/
theorem timers_changed (k : Kernel c) (t : c.TaskId) {timer : Nat} {change : TimerState c → TimerState c}
    (hc : call.change? k.now = some (timer, change)) (id : c.TimerId) : (k.changed t call).timers[id] =
      if timer = id ∧ timer < c.userTimers then change k.timers[id] else k.timers[id] := by
  by_cases hi : timer < c.userTimers
  · rw [changed_timer k t hc hi]
    by_cases he : timer = id
    · subst he
      rw [if_pos ⟨rfl, hi⟩]
      exact Table.getElem_set_self ..
    · rw [if_neg fun h => he h.1]
      exact Table.getElem_set_of_ne k.timers _ fun h => he (congrArg Fin.val h).symm
  · rw [if_neg fun h => hi h.2, changed_of_missing k t hc hi]
    rfl

/-- Plain calls spare the timeout timers. -/
theorem spares_changed (k : Kernel c) (t u : c.TaskId) (call : Call) : Spares u k (k.changed t call) := by
  cases hc : call.change? (c := c) k.now with
  | none => exact (timeless_changed t hc).spares u
  | some made =>
    obtain ⟨timer, change⟩ := made
    have entered : Spares u k k.entered := .of_eq rfl rfl rfl
    by_cases hi : timer < c.userTimers
    · rw [changed_timer k t hc hi]
      exact entered.trans (Spares.modifyTimer k.entered (show timer ≠ c.userTimers + u by omega) change)
    · rw [changed_of_missing k t hc hi]
      exact entered

/-- A plain call makes its change, and then the task may stop being runnable. -/
theorem perform_plain (h : k.Ready t) (plain : call.IsPlain) : Ends (perform call) k
    (fun _ l => l = k.changed t call ∨
      l = { k.changed t call with schedule := (k.changed t call).schedule.setBlocked t })
    fun _ _ => True := by
  have hr : k.entered.running = some t := h.running
  cases call with
  | lock mutex patience | wait semaphore patience | put queue message patience | get queue message patience =>
    cases plain.asks
  | sleep ticks => exact absurd rfl (plain.sleeps ticks)
  | yieldTo task => exact absurd rfl (plain.yields task)
  | currentTask | yield | block | peekSignals set | now =>
    simp only [perform, ends_bind, h.ends_enter, ends_current_of_running hr, ends_get, ends_pure, ends_suspend hr]
    simp [changed, Call.edit?, Call.change?]
  | holds mutex | isLocked mutex | tokens semaphore | messages queue | ticksToFiring timer =>
    simp only [perform, ends_bind, h.ends_enter, ends_mutexId, ends_semaphoreId, ends_queueId, ends_timerId,
      ends_current_of_running hr, ends_get, ends_pure]
    exact ⟨fun _ => .inl rfl, fun _ => trivial⟩
  | unblock task | start task | sendSignals task set =>
    simp only [perform, unblock, ends_bind, h.ends_enter, ends_taskId, ends_modify, ends_pure]
    refine ⟨fun hi => .inl ?_, fun _ => trivial⟩
    simp only [changed, Call.edit?, Call.change?, dif_pos hi]
    rfl
  | effectivePriority task =>
    simp only [perform, effectivePriority, ends_bind, h.ends_enter, ends_taskId, ends_modify, ends_get, ends_pure]
    exact ⟨fun _ => .inl rfl, fun _ => trivial⟩
  | waitSignals set =>
    simp only [perform, takeOrWait, ends_bind, h.ends_enter, ends_takeSignals hr, ends_ite, ends_pure,
      ends_suspend (k := k.entered.clearSignals t set) hr]
    exact ⟨fun _ => .inr rfl, fun _ => .inl rfl⟩
  | pollSignals set =>
    simp only [perform, ends_bind, h.ends_enter, ends_takeSignals hr, ends_pure]
    exact .inl rfl
  | unlock mutex =>
    simp only [perform, ends_bind, h.ends_enter, ends_mutexId, ends_unlock hr, ends_pure]
    refine ⟨fun hx => ⟨fun _ => .inl ?_, fun _ => trivial⟩, fun _ => trivial⟩
    simp only [changed, Call.edit?, Call.change?, dif_pos hx]
    rfl
  | post semaphore =>
    simp only [perform, ends_bind, h.ends_enter, ends_semaphoreId]
    refine ⟨fun hi => (post_spec (t := t) ⟨semaphore, hi⟩).mono (fun _ l hl => .inl ?_) fun _ _ _ => trivial,
      fun _ => trivial⟩
    obtain ⟨value, posted, rfl⟩ := hl
    have posted : SemaphoreState.posted? k.semaphores[(⟨semaphore, hi⟩ : c.SemaphoreId)] = some value := posted
    simp only [changed, Call.edit?, Call.change?, dif_pos hi, posted, Option.map_some]
  | initMax semaphore max =>
    simp only [perform, ends_bind, h.ends_enter, ends_semaphoreId, ends_initMax, ends_pure]
    refine ⟨fun hi => ⟨fun _ => trivial, fun _ => ⟨fun _ => trivial, fun _ => .inl ?_⟩⟩, fun _ => trivial⟩
    simp only [changed, Call.edit?, Call.change?, dif_pos hi]
    rfl
  | enableTimer timer | disableTimer timer | setReload timer reload | setTimerError timer error | takeOverflow timer =>
    simp only [perform, ends_bind, h.ends_enter, ends_timerId, ends_get, ends_modify, ends_pure]
    exact ⟨fun hi => .inl (changed_timer k t rfl hi).symm, fun _ => trivial⟩
  | oneShot timer timeout =>
    simp only [perform, ends_bind, ends_expectTimeout, h.ends_enter, ends_timerId, ends_modify, ends_pure]
    exact ⟨fun _ => ⟨fun hi => .inl (changed_timer k t rfl hi).symm, fun _ => trivial⟩, fun _ => trivial⟩
  | setTimerSignal timer task set =>
    simp only [perform, ends_bind, h.ends_enter, ends_taskId, ends_timerId, ends_modify, ends_pure]
    exact ⟨fun _ => ⟨fun hi => .inl (changed_timer k t rfl hi).symm, fun _ => trivial⟩, fun _ => trivial⟩
  | raise event =>
    refine (ends_bind _ _).mpr ((ends_eventId event).mpr ⟨fun hi => ?_, fun _ => trivial⟩)
    have ready : (k.recorded ⟨event, hi⟩).Ready t := ⟨h.running, h.context, h.unmasked, h.enabled⟩
    have task : ¬ (k.recorded ⟨event, hi⟩).processor.context = .interrupt := by
      rw [ready.context]
      rintro ⟨⟩
    rw [ends_bind, ends_recordEvent h.inside h.unmasked, ends_bind, ends_get, ends_ite]
    refine ⟨fun handler => absurd handler task, fun _ => ?_⟩
    refine (ends_bind _ _).mpr ((servicePreemption_spec ready).mono (fun b l hl => ?_) fun _ _ _ => trivial)
    rcases hl with ⟨rfl, rfl⟩ | ⟨_, _, idle⟩
    · refine .inl ?_
      simp only [changed, Call.edit?, Call.change?, dif_pos hi]
      rfl
    · cases idle

end Kernel

end Rtos
