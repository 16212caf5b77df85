import Rtos.Proofs.Clock

/-!
# Timed operations

A timed operation is a call that sleeps, or makes a request, until a deadline.

* `Machine.Underway`: a task is suspended in a timed operation. Its timeout timer is set to fire at the deadline, or has
  fired.
* `Machine.Continues`: what one step of the operation comes to; `continues_call` and `continues_wait` are about the
  first step and about all later ones.
* `Underway.act`: what happens between two of these steps.
* `Machine.Answered`: the operation is over, but its value has not arrived yet.
-/

namespace Rtos
set_option autoImplicit false

variable {c : Config}

/-- The timeout of a timed operation. A task that sleeps for no time at all only gives way. -/
def Call.timeout? : Call → Option Ticks
  | .lock _ (.upTo timeout) => some timeout
  | .wait _ (.upTo timeout) => some timeout
  | .put _ _ (.upTo timeout) => some timeout
  | .get _ _ (.upTo timeout) => some timeout
  | .sleep ticks => if ticks = 0 then none else some ticks
  | _ => none

theorem Call.of_timeout? {call : Call} {timeout : Ticks} (h : call.timeout? = some timeout) :
    (call = .sleep timeout ∧ timeout ≠ 0) ∨ (call.asks = true ∧
      ∀ (r : Request c) patience, call.request? c = some (r, patience) → patience = .upTo timeout) := by
  cases call with
  | sleep ticks =>
    obtain ⟨positive, he⟩ := Option.ite_none_left_eq_some.mp h
    cases he
    exact .inl ⟨rfl, positive⟩
  | lock mutex patience | wait semaphore patience | put queue message patience | get queue message patience =>
    cases patience with
    | upTo time =>
      cases h
      refine .inr ⟨rfl, fun r patience hr => ?_⟩
      obtain ⟨_, he⟩ := Option.dite_none_right_eq_some.mp hr
      cases he
      rfl
    | never | forever => cases h
  | _ => cases h

/-- How an operation ends: it makes the change that grants its request, or it is late and changes nothing. A request
that is given up has just been refused once more. -/
structure Verdict (late : Prop) (e : Completion c) (k l : Kernel c) : Prop where
  granted : ∀ r, e.granted? = some r → r.edit.Allowed e.task k ∧ l.resources = (r.edit.apply e.task k).resources
  denied : e.granted? = none →
    late ∧ l.resources = k.resources ∧ ∀ r, e.operation.request? = some r → k.Refuses e.task r

namespace Machine
open Kernel

variable {m m' : Machine c} {detour : Prop} {t : c.TaskId} {a : Act} {n deadline : Nat} {wait : Wait c}
    {op : Operation c}
  {r : Request c}

/-! ## One step of a timed operation -/

/-- The task is suspended in a wait that ends by the deadline: its timeout timer is set to fire at the deadline, which
lies ahead, or has fired. -/
structure Underway (m : Machine c) (n : Nat) (t : c.TaskId) (wait : Wait c) (deadline : Nat) : Prop where
  suspended : m.suspensions[t] = .waiting wait
  inactive : m.active ≠ some t
  timer : (m.kernel.On t (.ofNat deadline) ∧ n < deadline ∧ deadline ≤ n + maxTimeout.toNat) ∨
    (Expired t m.kernel ∧ deadline ≤ n)

/-- What one step of a timed operation comes to. -/
inductive Continues (m m' : Machine c) (n : Nat) (t : c.TaskId) (op : Operation c) (wait : Wait c)
    (deadline : Nat) : Prop
  | waits (underway : m'.Underway n t wait deadline) (control : m'.control = .dispatching)
    (resources : m'.kernel.resources = m.kernel.resources)
  | ends (value : Value) (control : m'.control = .leaving (some value)) (running : m'.kernel.running = some t)
    (off : m'.kernel.Off t) (verdict : Verdict (deadline ≤ n) ⟨t, op, value⟩ m.kernel m'.kernel)

theorem continues_of_round {p : Progress c} {l : Kernel c} (h : Round t m.kernel r (.ofNat deadline) p l)
    (thread : l.processor.thread = some t) (running : l.running = some t) (hr : op.request? = some r)
    (now : m.kernel.now = .ofNat n) (near : n < deadline + 2 ^ 31) (far : deadline ≤ n + maxTimeout.toNat) :
    m.Continues (proceed p { m with kernel := l }) n t op (.request r (some (.ofNat deadline))) deadline := by
  cases h with
  | granted allowed resources _ off =>
    refine .ends _ rfl running off ⟨fun r' hr' => ?_, fun hn => ?_⟩
    · cases (granted?_reply hr true _).symm.trans hr'
      exact ⟨allowed, resources⟩
    · cases (granted?_reply hr true _).symm.trans hn
  | expires past refused resources _ off =>
    refine .ends _ rfl running off ⟨fun r' hr' => ?_, fun _ => ⟨?_, resources, fun r' hr' => ?_⟩⟩
    · cases granted?_denied.symm.trans hr'
    · -- The tick counter wraps around, so a deadline too far ahead would look as if it had passed.
      by_contra ahead
      rw [now, remaining?_of_lt (Nat.lt_of_not_le ahead) far] at past
      cases past
    · cases hr.symm.trans hr'
      exact refused
  | waits ahead resources _ on =>
    rw [proceed_dispatch thread]
    refine .waits ⟨Table.getElem_set_self .., inactive_of_dispatching rfl, .inl ⟨on, ?_, far⟩⟩ rfl resources
    by_contra past
    obtain ⟨left, hl⟩ := ahead
    rw [now, remaining?_of_le (Nat.le_of_not_lt past) (Nat.le_of_lt near)] at hl
    cases hl

theorem continues_call (h : m.Orderly detour) (ht : c.tasks.size ≤ c.timerCount) (timely : m.Timely n t)
    {reply : Option Value} (hc : m.control = .application reply) (running : m.kernel.running = some t) {call : Call}
    {timeout : Ticks} (timed : call.timeout? = some timeout)
    (hn : ∀ ending, (m.act (.move (.call call))).control ≠ .ended ending) :
    ∃ wait : Wait c, wait.EndsAt (.ofNat (n + timeout.toNat)) ∧
      (Operation.wait wait).request? = (Operation.call (c := c) call).request? ∧
      m.Continues (m.act (.move (.call call))) n t (.call call) wait (n + timeout.toNat) := by
  obtain ⟨executes, ready⟩ := h.program hc running
  have off : m.kernel.Off t := timely.timer.resolve_right fun h => h.1 (by simp only [active, hc, running])
  rw [act_call hc] at hn ⊢
  rcases call.of_timeout? (c := c) timed with ⟨rfl, positive⟩ | ⟨asks, patient⟩
  · refine ⟨.sleep, .inl rfl, rfl, ?_⟩
    refine run_of_alive (P := fun m' => m.Continues m' n t _ .sleep _) (sleep_spec ht ready timeout) hn fun p l hl => ?_
    cases hl with
    | yields zero => exact absurd zero positive
    | waits _ accepts timer own stop =>
      have stopped := timeless_stops stop
      have thread := stop.frame.thread executes.owned.thread
      have on : l.On t (.ofNat (n + timeout.toNat)) := by
        rw [← ofNat_add_toNat, ← timely.now]
        exact (stopped.spares t).on (on_armed m.kernel.entered own timeout)
      have unchanged := resources_stops stop
      rw [proceed_dispatch thread]
      refine .waits ⟨Table.getElem_set_self .., inactive_of_dispatching rfl, .inl ⟨on, ?_, ?_⟩⟩ rfl unchanged
      · have := UInt32.lt_iff_toNat_lt.mp (UInt32.pos_iff_ne_zero.mpr positive)
        rw [UInt32.toNat_zero] at this
        omega
      · exact Nat.add_le_add_left (UInt32.le_iff_toNat_le.mp accepts) n
  · refine run_of_alive (P := fun m' => ∃ wait : Wait c, wait.EndsAt _ ∧ (Operation.wait wait).request? = _ ∧
      m.Continues m' n t _ wait _) (asks_spec ht ready asks) hn fun p l hl => ?_
    obtain ⟨r, patience, request, accepts, _, _⟩ := id hl
    obtain rfl := patient r patience request
    have round := hl.round request off
    rw [timely.now, ofNat_add_toNat] at round
    have requested : (Operation.call (c := c) call).request? = some r := by
      rw [Operation.request?, request]
      rfl
    refine ⟨.request r (some (.ofNat (n + timeout.toNat))), .inr ⟨r, rfl⟩, requested.symm, ?_⟩
    have frame := hl.section.1.frame
    refine continues_of_round round ?_ (frame.running.trans running) requested timely.now (by omega) ?_
    · exact frame.thread executes.owned.thread
    · exact Nat.add_le_add_left (UInt32.le_iff_toNat_le.mp (accepts timeout rfl)) n

/-- A later step, which must not come too late after the deadline. -/
theorem continues_wait (h : m.Orderly detour) (ht : c.tasks.size ≤ c.timerCount) (now : m.kernel.now = .ofNat n)
    (underway : m.Underway n t wait deadline) (ends : wait.EndsAt (.ofNat deadline))
    (ho : m.operation? .step = some (t, .wait wait)) (near : n < deadline + 2 ^ 31)
    (hn : ∀ ending, (m.act .step).control ≠ .ended ending) :
    m.Continues (m.act .step) n t (.wait wait) wait deadline := by
  obtain ⟨running, ⟨_, _, _, he, _⟩ | ⟨_, _, _, hc, _⟩⟩ := operation?_cases ho
  · cases he
  have suspended := underway.suspended
  have resumes := h.resumes hc running
  have thread := resumes.between.thread.trans running
  rw [act_wait hc thread suspended] at hn ⊢
  rcases ends with rfl | ⟨r, rfl⟩
  · rcases underway.timer with ⟨on, ahead, far⟩ | ⟨expired, late⟩
    · refine run_of_alive (P := fun m' => m.Continues m' n t _ _ _) (sleepOn_early running on.early) hn fun p l hl => ?_
      obtain ⟨rfl, rfl⟩ := hl
      rw [proceed_dispatch (l := { m.kernel with schedule := m.kernel.schedule.setBlocked t }) thread]
      exact .waits ⟨Table.getElem_set_self .., inactive_of_dispatching rfl,
        .inl ⟨⟨on.timer, on.early⟩, ahead, far⟩⟩ rfl rfl
    · refine run_of_alive (P := fun m' => m.Continues m' n t _ _ _) (sleepOn_late running expired.late) hn
        fun p l hl => ?_
      obtain ⟨rfl, rfl⟩ := hl
      exact .ends .unit rfl running expired.off ⟨nofun, fun _ => ⟨late, rfl, nofun⟩⟩
  · have round := round_spec ht running (resumes.stranger suspended) (.ofNat deadline)
    refine run_of_alive (P := fun m' => m.Continues m' n t _ _ _) ((resumes.resume_spec ht suspended).and round) hn
      fun p l hl => ?_
    obtain ⟨⟨es, k, edits, _, _, _, goes⟩, round⟩ := hl
    have frame := edits.frame.trans goes.frame
    refine continues_of_round round ?_ (frame.running.trans running) rfl now near ?_
    · exact frame.thread thread
    · rcases underway.timer with ⟨_, _, far⟩ | ⟨_, late⟩
      · exact far
      · omega

/-! ## In between -/

/-- An act that is no operation of a task brings none to its end, and leaves the shared objects alone while the task
owns the processor. -/
theorem quiet_of_no_operation (h : m.Orderly detour) (ht : c.tasks.size ≤ c.timerCount)
    (hn : ∀ ending, (m.act a).control ≠ .ended ending) (ho : ∀ op, m.operation? a ≠ some (t, op))
    (running : m.kernel.running = some t) :
    m.completion? a = none ∧ (m.act a).kernel.resources = m.kernel.resources := by
  have none : m.operation? a = none := by
    refine Option.eq_none_iff_forall_not_mem.mpr fun ⟨u, op⟩ hu => ho op ?_
    obtain rfl : t = u := Option.some.inj (running.symm.trans (operation?_cases hu).1)
    exact hu
  constructor
  · unfold completion?
    rw [none]
  · rcases h.untouched (fun _ => ht) a (by simp [none]) (by simp [none]) with ⟨ending, hc⟩ | untouched
    · exact absurd hc (hn ending)
    · exact untouched.resources

/-- What the others do, and the dispatcher, leaves the operation underway. Its timeout timer fires at the deadline. -/
theorem Underway.act (underway : m.Underway n t wait deadline) (h : m.Orderly detour) (ht : c.tasks.size ≤ c.timerCount)
    (timely : m.Timely n t) (hn : ∀ ending, (m.act a).control ≠ .ended ending)
    (ho : ∀ op, m.operation? a ≠ some (t, op)) :
    (m.act a).Underway (n + m.ticks a) t wait deadline := by
  by_cases same : m.act a = m
  · rw [same, ticks_of_eq (by rw [same])]
    exact underway
  obtain ⟨id, own⟩ := exists_timeoutTimer ht t
  obtain ⟨_, passed⟩ := h.passed ht timely.wired hn own
  have passed := passed fun op operation => absurd operation (ho op)
  have away : m.Away t := away_of_act underway.inactive underway.suspended (ho _) same
  have apart := (h.transition (fun _ => ht) a).apart hn away
  refine ⟨apart.suspension.trans underway.suspended, apart.inactive, ?_⟩
  rcases underway.timer with ⟨on, ahead, far⟩ | ⟨expired, late⟩
  · rcases passed.on own on with ⟨still, on⟩ | ⟨tick, ⟨early, on⟩ | ⟨due, expired⟩⟩
    · rw [ticks_of_eq still]
      exact .inl ⟨on, ahead, far⟩
    · rw [timely.now] at early
      rw [ticks_of_tick tick]
      refine .inl ⟨on, Nat.lt_of_le_of_ne ahead fun he => early ?_, by omega⟩
      rw [← he, ofNat_succ]
    · rw [timely.now] at due
      rw [ticks_of_tick tick]
      refine .inr ⟨expired, Nat.le_of_eq ((ofNat_eq_iff ahead (by omega)).mp ?_)⟩
      rw [due, Nat.succ_eq_add_one, ofNat_succ]
  · exact .inr ⟨passed.expired own expired (apart.runnable expired.runnable), Nat.le_add_right_of_le late⟩

/-! ## On the way back -/

/-- The operation is over, and its value is on the way to the program of the task. -/
structure Answered (m : Machine c) (t : c.TaskId) (value : Value) : Prop where
  off : m.kernel.Off t
  place : (m.control = .leaving (some value) ∧ m.kernel.running = some t) ∨
    (m.active ≠ some t ∧ m.suspensions[t] = .returning (some value) ∧ m.kernel.isRunnable t = true)

theorem Answered.no_operation {value : Value} (h : m.Answered t value) (op : Operation c) :
    m.operation? a ≠ some (t, op) := by
  intro ho
  obtain ⟨running, ⟨_, _, _, _, hc⟩ | ⟨_, _, _, hc, hs⟩⟩ := operation?_cases ho
  · rcases h.place with ⟨hl, _⟩ | ⟨inactive, _⟩
    · cases hl.symm.trans hc
    · exact inactive (by simp only [active, hc, running])
  · rcases h.place with ⟨hl, _⟩ | ⟨_, suspended, _⟩
    · cases hl.symm.trans hc
    · cases suspended.symm.trans hs

theorem Answered.runnable {value : Value} (h : m.Answered t value) (orderly : m.Orderly detour)
    (hn : ∀ ending, m.control ≠ .ended ending) : m.kernel.isRunnable t = true := by
  rcases h.place with ⟨hl, running⟩ | ⟨_, _, runnable⟩
  · exact (orderly.waits hn).active_runnable t (by simp only [active, hl, running])
  · exact runnable

/-- The value stays on its way until it arrives. -/
theorem Answered.act {value : Value} (h : m.Answered t value) (orderly : m.Orderly detour)
    (ht : c.tasks.size ≤ c.timerCount) (hw : m.kernel.Wired) (hn : ∀ ending, (m.act a).control ≠ .ended ending) :
    (m.act a).Answered t value ∨
      ((m.act a).control = .application (some value) ∧ (m.act a).kernel.running = some t ∧ (m.act a).kernel.Off t) := by
  by_cases same : m.act a = m
  · rw [same]
    exact .inl h
  obtain ⟨id, own⟩ := exists_timeoutTimer ht t
  have off := ((orderly.passed ht hw hn own).2 fun op operation => absurd operation (h.no_operation op)).off own h.off
  have runnable := h.runnable orderly (not_ended_of_act hn)
  rcases h.place with ⟨hc, running⟩ | ⟨inactive, suspended, _⟩
  · cases a with
    | move move => exact absurd (act_move_of_kernel (.inr (.inr ⟨_, hc⟩)) move) same
    | step =>
      obtain ⟨u, executes, _⟩ := orderly.leaving hc
      obtain rfl : t = u := Option.some.inj (running.symm.trans executes.owned.running)
      rw [act_leaves hc] at off ⊢
      unfold leave at off ⊢
      split at off
      · next asked =>
        rw [if_pos asked]
        have remembered := remember_eq (m := { m with
          kernel := { m.kernel with preemptDisabled := true, preemptPending := false } }) executes.owned.thread
        simp only [remembered] at off ⊢
        exact .inl ⟨off, .inr ⟨inactive_of_dispatching rfl, Table.getElem_set_self .., runnable⟩⟩
      · next unasked =>
        rw [if_neg unasked]
        exact .inr ⟨rfl, running, off⟩
  · by_cases resuming : m.control = .resuming ∧ m.kernel.running = some t
    · obtain ⟨hc, running⟩ := resuming
      cases a with
      | move move => exact absurd (act_move_of_kernel (.inr (.inl hc)) move) same
      | step =>
        rw [act_returns hc ((orderly.resumes hc running).between.thread.trans running) suspended] at off ⊢
        exact .inl ⟨off, .inl ⟨rfl, running⟩⟩
    · have apart := (orderly.transition (fun _ => ht) a).apart hn ⟨inactive, fun hc running => resuming ⟨hc, running⟩⟩
      exact .inl ⟨off, .inr ⟨apart.inactive, apart.suspension.trans suspended, apart.runnable runnable⟩⟩

end Machine

end Rtos
