import Rtos.Proofs.Kernel.Boot
import Rtos.Proofs.Run

/-!
# Orderly machines

* `Kernel.Executes`, `Kernel.Resumes`: the code of a task is executing, or goes on where it was suspended, in a state
  that is in order.
* `Machine.Orderly`: what is known of a machine, given what it is about to do. While the code of a task is executing,
  the policy would choose that task, unless a task switch is asked for or the task has been given the processor on a
  detour: by another task that yielded to it. `Orderly.dispatching`, `Orderly.application` and their siblings tell it
  for each control.
* `Orderly.between_or_executes`: in short, the dispatcher is at work or the code of a task is executing.
-/

namespace Rtos
set_option autoImplicit false

variable {c : Config}

namespace Kernel

variable {k l : Kernel c} {suspensions : Table (Suspension c) c.tasks.size} {t : c.TaskId} {detour detour' : Prop}

/-- The code of `t` is executing, in a state that is in order. -/
structure Executes (k : Kernel c) (suspensions : Table (Suspension c) c.tasks.size) (t : c.TaskId) (detour : Prop) :
    Prop where
  owned : k.Owned suspensions t detour
  idle : k.tasks[t].wait = none

/-- The task `t` has been given the processor, in a state that is in order, and goes on where it is suspended. -/
structure Resumes (k : Kernel c) (suspensions : Table (Suspension c) c.tasks.size) (t : c.TaskId) (detour : Prop) :
    Prop where
  between : k.Between suspensions
  running : k.running = some t
  runnable : k.isRunnable t = true
  settled : k.hasPending = false
  decided : k.preemptPending = true ∨ detour ∨ k.decision = .ok (some t)

theorem Owned.mono (h : k.Owned suspensions t detour) (hd : detour → detour') : k.Owned suspensions t detour' :=
  ⟨h.running, h.thread, h.unmasked, h.scheduled, h.waits, h.pended, h.decided.imp_right (Or.imp_left hd)⟩

theorem Executes.mono (h : k.Executes suspensions t detour) (hd : detour → detour') :
    k.Executes suspensions t detour' :=
  ⟨h.owned.mono hd, h.idle⟩

theorem Resumes.mono (h : k.Resumes suspensions t detour) (hd : detour → detour') : k.Resumes suspensions t detour' :=
  ⟨h.between, h.running, h.runnable, h.settled, h.decided.imp_right (Or.imp_left hd)⟩

theorem Executes.edits (h : k.Executes suspensions t detour) {es : List (Edit c)} (he : Edits t k es l) :
    l.Executes suspensions t detour :=
  ⟨(h.owned.edits he).1, (h.owned.edits he).2 h.idle⟩

/-- What waiting and scheduling do not depend on may change, as long as a task switch that is due stays asked for. -/
theorem Executes.of_quiet (h : k.Executes suspensions t detour) (hq : Quiet k l) (hr : l.running = k.running)
    (ht : l.processor.thread = k.processor.thread) (hm : l.processor.masked = k.processor.masked)
    (hv : l.semaphores = k.semaphores) (hn : l.rings = k.rings)
    (hp : l.hasPending = true → l.preemptPending = true)
    (hd : k.preemptPending = true → l.preemptPending = true) : l.Executes suspensions t detour where
  owned := by
    have ho := h.owned
    refine ⟨hr.trans ho.running, ht.trans ho.thread, hm.trans ho.unmasked, hq.scheduled ho.scheduled, ?_, hp, ?_⟩
    · exact hq.waits ho.waits (fun _ => by rw [hv]) fun _ => by rw [hn]
    · rw [hq.decision]
      exact ho.decided.imp_left hd
  idle := (hq.wait t).trans h.idle

theorem Resumes.owned (h : k.Resumes suspensions t detour) : k.Owned suspensions t detour where
  running := h.running
  thread := h.between.thread.trans h.running
  unmasked := h.between.unmasked
  scheduled := h.between.scheduled
  waits := h.between.waits.activate h.runnable
  pended hp := by cases h.settled.symm.trans hp
  decided := h.decided

theorem Resumes.context (h : k.Resumes suspensions t detour) : k.processor.context = .task := by
  rw [h.between.context, h.running]
  rfl

theorem Resumes.idle (h : k.Resumes suspensions t detour) (hs : ∀ r, ¬ Awaits suspensions t r) :
    k.tasks[t].wait = none := by
  cases hw : k.tasks[t].wait with
  | none => rfl
  | some o =>
    obtain ⟨r, hr, _⟩ := h.between.waits.recorded t o nofun hw
    exact absurd hr (hs r)

theorem Resumes.stranger (h : k.Resumes suspensions t detour) {wait : Wait c} (hs : suspensions[t] = .waiting wait)
    (x : c.MutexId) (hx : wait.mutex? = some x) : k.holders[x] ≠ some t := by
  obtain ⟨d, rfl⟩ := wait.of_mutex? hx
  exact h.between.waits.stranger t x nofun ⟨d, hs⟩

theorem Resumes.resume_spec (h : k.Resumes suspensions t detour) (ht : c.tasks.size ≤ c.timerCount) {wait : Wait c}
    (hs : suspensions[t] = .waiting wait) :
    Ends (resume wait) k (fun p m => ∃ es l, Edits t k es l ∧ (∀ x, .take x ∉ es) ∧ l.tasks[t].wait = none ∧
      l.holders = k.holders ∧ Goes t l wait.mutex? p m) (Fails t k) := by
  refine Kernel.resume_spec ht h.running wait (h.stranger hs) fun hw => h.idle fun r ⟨d, hd⟩ => ?_
  cases hs.symm.trans hd
  exact hw r d rfl

theorem Executes.stops (h : k.Executes suspensions t detour) (hc : k.processor.context = .task)
    {s : Suspension c} (hs : Stops t k s l) (hd : l.preemptDisabled = true) : l.Between (suspensions.set t s) := by
  obtain ⟨scheduled, waits⟩ := h.owned.stops h.idle hs
  have frame := hs.frame
  constructor
  · rw [frame.processor, frame.running, h.owned.thread, h.owned.running]
  · rw [frame.processor, frame.running, h.owned.running]
    exact hc
  · rw [frame.processor]
    exact h.owned.unmasked
  · exact hd
  · exact scheduled
  · exact waits

/-- The dispatcher, or a task that yields, hands the processor over to a runnable task. -/
theorem HandedOver.resumes (h : HandedOver t k l) (hb : k.Between suspensions) (hr : k.isRunnable t = true)
    (hp : k.hasPending = false) (hd : k.preemptPending = true ∨ detour ∨ k.decision = .ok (some t)) :
    l.Resumes suspensions t detour := by
  obtain ⟨⟨p, rfl⟩, thread, context, masked⟩ := h
  have quiet : Quiet k { k with running := some t, processor := p } := ⟨rfl, rfl, fun _ => rfl⟩
  refine ⟨⟨thread, context, masked.trans hb.unmasked, hb.disabled, quiet.scheduled hb.scheduled, ?_⟩, rfl, hr, hp, ?_⟩
  · exact hb.waits.of_runnable (fun _ hu => hu) (fun _ => rfl) rfl (fun _ => rfl) fun _ => rfl
  · rw [quiet.decision]
    exact hd

end Kernel

namespace Machine
open Kernel

variable {m : Machine c} {detour detour' : Prop}

/-! ## What is known of a machine -/

/-- What is known of a machine, given what it is about to do. -/
def Orderly (m : Machine c) (detour : Prop) : Prop :=
  match m.control with
  | .dispatching => m.kernel.Between m.suspensions
  | .choosing => m.kernel.Between m.suspensions ∧ m.kernel.hasPending = false
  | .resuming => ∃ t, m.kernel.Resumes m.suspensions t detour
  | .leaving _ => ∃ t, m.kernel.Executes m.suspensions t detour ∧ m.kernel.processor.context = .task ∧
      m.kernel.preemptDisabled = true
  | .application _ => ∃ t, m.kernel.Executes m.suspensions t detour ∧ m.kernel.Ready t ∧
      m.kernel.preemptPending = false
  | .handling => ∃ t, m.kernel.Executes m.suspensions t detour ∧ m.kernel.processor.context = .interrupt ∧
      m.kernel.preemptDisabled = false
  | .ended _ => c.policy = .inheritance → m.kernel.Scheduled

theorem Orderly.mono (h : m.Orderly detour) (hd : m.control ≠ .dispatching → detour → detour') : m.Orderly detour' := by
  unfold Orderly at h ⊢
  split at h
  · exact h
  · exact h
  · next hc =>
    obtain ⟨t, ht⟩ := h
    exact ⟨t, ht.mono (hd (by rw [hc]; exact nofun))⟩
  · next hc =>
    obtain ⟨t, ht, h⟩ := h
    exact ⟨t, ht.mono (hd (by rw [hc]; exact nofun)), h⟩
  · next hc =>
    obtain ⟨t, ht, h⟩ := h
    exact ⟨t, ht.mono (hd (by rw [hc]; exact nofun)), h⟩
  · next hc =>
    obtain ⟨t, ht, h⟩ := h
    exact ⟨t, ht.mono (hd (by rw [hc]; exact nofun)), h⟩
  · exact h

section Control
variable {reply : Option Value}

theorem Orderly.dispatching (h : m.Orderly detour) (hc : m.control = .dispatching) :
    m.kernel.Between m.suspensions := by
  unfold Orderly at h
  rwa [hc] at h

theorem Orderly.choosing (h : m.Orderly detour) (hc : m.control = .choosing) :
    m.kernel.Between m.suspensions ∧ m.kernel.hasPending = false := by
  unfold Orderly at h
  rwa [hc] at h

theorem Orderly.resuming (h : m.Orderly detour) (hc : m.control = .resuming) :
    ∃ t, m.kernel.Resumes m.suspensions t detour := by
  unfold Orderly at h
  rwa [hc] at h

theorem Orderly.leaving (h : m.Orderly detour) (hc : m.control = .leaving reply) :
    ∃ t, m.kernel.Executes m.suspensions t detour ∧
    m.kernel.processor.context = .task ∧ m.kernel.preemptDisabled = true := by
  unfold Orderly at h
  rwa [hc] at h

theorem Orderly.application (h : m.Orderly detour) (hc : m.control = .application reply) :
    ∃ t, m.kernel.Executes m.suspensions t detour ∧ m.kernel.Ready t ∧ m.kernel.preemptPending = false := by
  unfold Orderly at h
  rwa [hc] at h

theorem Orderly.handling (h : m.Orderly detour) (hc : m.control = .handling) :
    ∃ t, m.kernel.Executes m.suspensions t detour ∧
    m.kernel.processor.context = .interrupt ∧ m.kernel.preemptDisabled = false := by
  unfold Orderly at h
  rwa [hc] at h

theorem Orderly.program (h : m.Orderly detour) (hc : m.control = .application reply) {t : c.TaskId}
    (hr : m.kernel.running = some t) : m.kernel.Executes m.suspensions t detour ∧ m.kernel.Ready t := by
  obtain ⟨u, executes, ready, _⟩ := h.application hc
  obtain rfl : t = u := Option.some.inj (hr.symm.trans ready.running)
  exact ⟨executes, ready⟩

theorem Orderly.resumes (h : m.Orderly detour) (hc : m.control = .resuming) {t : c.TaskId}
    (hr : m.kernel.running = some t) : m.kernel.Resumes m.suspensions t detour := by
  obtain ⟨u, resumes⟩ := h.resuming hc
  obtain rfl : t = u := Option.some.inj (hr.symm.trans resumes.running)
  exact resumes

end Control

/-- The task whose code is executing, if any. While the dispatcher is at work all tasks are suspended. -/
def active (m : Machine c) : Option c.TaskId :=
  match m.control with
  | .leaving _ => m.kernel.running
  | .application _ => m.kernel.running
  | .handling => m.kernel.running
  | _ => none

theorem inactive_of_dispatching {t : c.TaskId} (hc : m.control = .dispatching) : m.active ≠ some t := by
  cases m
  cases hc
  exact nofun

/-- Until the run is over, the dispatcher is at work or the code of a task is executing. -/
theorem Orderly.between_or_executes (h : m.Orderly detour) (hn : ∀ ending, m.control ≠ .ended ending) :
    (m.active = none ∧ m.kernel.Between m.suspensions) ∨
      ∃ t, m.active = some t ∧ m.kernel.Executes m.suspensions t detour := by
  unfold Orderly at h
  unfold active
  split at h
  · next hc => exact .inl ⟨by rw [hc], h⟩
  · next hc => exact .inl ⟨by rw [hc], h.1⟩
  · next hc =>
    obtain ⟨t, resumes⟩ := h
    exact .inl ⟨by rw [hc], resumes.between⟩
  · next hc =>
    obtain ⟨t, executes, _⟩ := h
    exact .inr ⟨t, by rw [hc]; exact executes.owned.running, executes⟩
  · next hc =>
    obtain ⟨t, executes, _⟩ := h
    exact .inr ⟨t, by rw [hc]; exact executes.owned.running, executes⟩
  · next hc =>
    obtain ⟨t, executes, _⟩ := h
    exact .inr ⟨t, by rw [hc]; exact executes.owned.running, executes⟩
  · next ending hc => exact absurd hc (hn ending)

/-- Until the run is over, the schedule agrees with the rest of the state, and the records of waits are right. -/
theorem Orderly.scheduled (h : m.Orderly detour) (hn : ∀ ending, m.control ≠ .ended ending) : m.kernel.Scheduled := by
  rcases h.between_or_executes hn with ⟨_, between⟩ | ⟨t, _, executes⟩
  · exact between.scheduled
  · exact executes.owned.scheduled

theorem Orderly.waits (h : m.Orderly detour) (hn : ∀ ending, m.control ≠ .ended ending) :
    m.kernel.Waits m.suspensions m.active := by
  rcases h.between_or_executes hn with ⟨ha, between⟩ | ⟨t, ha, executes⟩
  · rw [ha]
    exact between.waits
  · rw [ha]
    exact executes.owned.waits

end Machine

end Rtos
