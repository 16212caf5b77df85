import Rtos.Proofs.Kernel.Rejection

/-!
# How the dispatcher fails

* `settle_upset`: what the dispatcher may find wrong while it applies what was recorded. It leaves the processor alone.
* `ends_switchTo`: what there is to show of a task switch in a consistent state.
* `choose_total`, `startFirst_total`, `switchTo_total`: in a consistent state, with a thread for every task, everything
  else goes well that the dispatcher does; `idle_starves`: only it may happen that it has nothing to do for too long.
-/

namespace Rtos
set_option autoImplicit false

variable {c : Config}

/-! ## Applying what was recorded -/

/-- Every event concerns a task that exists. -/
def Config.Aimed (c : Config) : Prop := ∀ event : c.EventId, (c.eventAction event).task < c.tasks.size

namespace Kernel

variable {k l m : Kernel c} {t : c.TaskId} {suspensions : Table (Suspension c) c.tasks.size}

/-- A timer raises an error, or is to signal a task that does not exist. -/
def Faulty (k : Kernel c) (ending : Ending) : Prop :=
  (∃ (timer : c.TimerId) (error : FatalError), k.timers[timer].effect = .user (.error error) ∧ ending = .fatal error) ∨
    ∃ (timer : c.TimerId) (task : Nat) (set : SignalSet), k.timers[timer].effect = .user (.signal task set) ∧
      c.tasks.size ≤ task ∧ ending = .fatal .badId

/-- What the dispatcher may find wrong: more than one tick, or, once the only tick has passed, a timer. -/
def Upset (k : Kernel c) (ending : Ending) (l : Kernel c) : Prop :=
  l.processor = k.processor ∧ ((2 ≤ k.pendingTicks ∧ ending = .fatal .tickOverflow ∧ l.now = k.now) ∨
    (k.pendingTicks = 1 ∧ k.Faulty ending ∧ l.now = k.now + 1))

/-- The processor stays as it is, no time passes, no task switch becomes due, and no timer gets another action. -/
structure Applied (k l : Kernel c) : Prop where
  processor : l.processor = k.processor
  running : l.running = k.running
  asked : l.preemptPending = k.preemptPending
  now : l.now = k.now
  effect : ∀ timer : c.TimerId, l.timers[timer].effect = k.timers[timer].effect

namespace Applied

theorem modifyTimer (h : Applied k l) (timer : c.TimerId) (f : TimerState c → TimerState c)
    (hf : ∀ s, (f s).effect = s.effect) : Applied k (l.modifyTimer timer f) where
  processor := h.processor
  running := h.running
  asked := h.asked
  now := h.now
  effect other := by
    rw [← h.effect other]
    by_cases ho : other = timer
    · subst ho
      simp [Kernel.modifyTimer, hf]
    · exact congrArg TimerState.effect (Table.getElem_set_of_ne l.timers (f l.timers[timer]) ho)

/-- What happens to tasks, and to what is recorded, does not matter. -/
theorem of_timers (h : Applied k l) (hp : m.processor = l.processor) (hr : m.running = l.running)
    (ha : m.preemptPending = l.preemptPending) (hn : m.now = l.now) (ht : m.timers = l.timers) : Applied k m :=
  ⟨hp.trans h.processor, hr.trans h.running, ha.trans h.asked, hn.trans h.now, fun timer => ht ▸ h.effect timer⟩

theorem applyEvent (h : Applied k l) (aimed : c.Aimed) (event : c.EventId) :
    Ends (applyEvent event) l (fun _ => Applied k) fun _ _ => False := by
  have target := aimed event
  unfold Kernel.applyEvent
  split <;> next he =>
    rw [he] at target
    simp only [ends_bind, ends_taskId, ends_modify]
    exact ⟨fun _ => h.of_timers rfl rfl rfl rfl rfl, fun hn => hn target⟩

theorem fire (h : Applied k l) (timer : c.TimerId) : Ends (fire timer) l (fun _ => Applied k)
    fun ending m => k.Faulty ending ∧ m.now = k.now ∧ m.processor = k.processor := by
  have effect := h.effect timer
  refine (ends_bind _ _).mpr (ends_get.mpr ?_)
  split
  · exact h
  · next task set he =>
    simp only [ends_bind, ends_taskId, ends_get, ends_ite, ends_modify]
    refine ⟨fun _ => ⟨fun _ => ?_, fun _ => h.of_timers rfl rfl rfl rfl rfl⟩,
      fun missing => ⟨.inr ?_, h.now, h.processor⟩⟩
    · exact (h.modifyTimer timer (fun s => { s with overflow := true }) fun _ => rfl).of_timers rfl rfl rfl rfl rfl
    · exact ⟨timer, task, set, effect.symm.trans he, Nat.le_of_not_lt missing, rfl⟩
  · next error he => exact ⟨.inl ⟨timer, error, effect.symm.trans he, rfl⟩, h.now, h.processor⟩
  · exact h.of_timers rfl rfl rfl rfl rfl

theorem fireIfDue (h : Applied k l) (timer : c.TimerId) : Ends (fireIfDue timer) l (fun _ => Applied k)
    fun ending m => k.Faulty ending ∧ m.now = k.now ∧ m.processor = k.processor := by
  simp only [Kernel.fireIfDue, ends_bind, ends_get, ends_ite, ends_modify, ends_pure]
  refine ⟨fun _ => fire (h.modifyTimer timer _ fun s => ?_) timer, fun _ => h⟩
  split <;> rfl

end Applied

theorem applyTicks_upset (h : Applied k l) : Ends (applyTicks k.pendingTicks) l
    (fun _ m => Applied { k with now := k.now + .ofNat k.pendingTicks } m ∧ k.pendingTicks ≤ 1) (Upset k) := by
  match hp : k.pendingTicks with
  | 0 => exact ⟨⟨h.processor, h.running, h.asked, h.now.trans (UInt32.add_zero _).symm, h.effect⟩, Nat.zero_le 1⟩
  | 1 =>
    have start : Applied { k with now := k.now + 1 } { l with now := l.now + 1 } :=
      ⟨h.processor, h.running, h.asked, congrArg (· + 1) h.now, h.effect⟩
    refine (Ends.forM _ (fun timer _ _ hl => Applied.fireIfDue hl timer) _ start).mono (fun _ m hm => ?_)
      fun _ _ ⟨faulty, now, processor⟩ => ⟨processor, .inr ⟨hp, faulty, now⟩⟩
    exact ⟨⟨hm.processor, hm.running, hm.asked, hm.now, hm.effect⟩, Nat.le_refl 1⟩
  | n + 2 => exact ⟨h.processor, .inl ⟨by omega, rfl, h.now⟩⟩

/-- If the events concern tasks that exist, only a second tick or a timer can go wrong. -/
theorem settle_upset (h : k.Between suspensions) (aimed : c.Aimed) : Ends settle k
    (fun _ l => Applied { k with now := k.now + .ofNat k.pendingTicks } l ∧ k.pendingTicks ≤ 1) (Upset k) := by
  rw [settle, ends_bind, ends_takePending h.context_ne_outside h.unmasked, ends_bind]
  have taken : Applied k { k with raised := Table.replicate _ false, pendingTicks := 0 } :=
    ⟨rfl, rfl, rfl, rfl, fun _ => rfl⟩
  refine (Ends.forM _ (fun event _ _ hl => Applied.applyEvent hl aimed event) _ taken).mono (fun _ l hl => ?_)
    fun _ _ => False.elim
  exact applyTicks_upset hl

/-! ## Choosing and idling -/

theorem ends_check_of_consistent (h : k.isConsistent = true) {ok : Unit → Kernel c → Prop}
    {bad : Ending → Kernel c → Prop} :
    Ends check k ok bad ↔ ok () k := by
  simp [check, ends_bind, ends_get, ends_ite, ends_fail, ends_pure, h]

theorem choose_total (h : k.Scheduled) (consistent : k.isConsistent = true) :
    Ends (do check; choose) k (fun task l => l = k.refresh ∧ k.decision = .ok task) fun _ _ => False := by
  obtain ⟨task, hd⟩ := h.exists_decision
  rw [ends_bind, ends_check_of_consistent consistent]
  exact ends_of_eq_ok (choose_eq h hd) ⟨rfl, hd⟩

/-- The state after an idle tick. -/
def idled (k : Kernel c) : Kernel c :=
  { k with
    processor := { k.processor with idleTicks := k.processor.idleTicks + 1 }, pendingTicks := k.pendingTicks + 1
    preemptPending := true }

/-- The system has been idle for too long. -/
def starved : Ending :=
  .panic ("deadlock: no task became runnable after " ++ toString maxIdleTicks ++ " idle ticks")

/-- The state that the report of a deadlock leaves behind. -/
def wedged (k : Kernel c) : Kernel c :=
  { k with processor := { k.processor with masked := true, idleTicks := k.processor.idleTicks + 1 } }

/-- If nothing is recorded, the processor idles until a tick comes, unless it did so too often. -/
theorem idle_starves (h : k.Between suspensions) (hp : k.hasPending = false) : Ends idle k
    (fun _ l => l = k.idled ∧ k.processor.idleTicks < maxIdleTicks)
    fun ending l => ending = starved ∧ maxIdleTicks ≤ k.processor.idleTicks ∧ l = k.wedged := by
  have hc := h.context_ne_outside
  have hm := h.unmasked
  have still : ({ k with processor := { k.processor with masked := true } } : Kernel c).hasPending = false := hp
  simp only [idle, ends_bind, ends_mask hc hm, ends_get, ends_ite, still, waitForInterrupt, ends_throw, ends_set,
    ends_modify]
  refine ⟨fun _ =>
    ⟨fun hn => absurd trivial hn, fun _ => ⟨fun long => ⟨rfl, Nat.le_of_lt_succ long, rfl⟩, fun short => ?_⟩⟩,
    fun hn => absurd rfl hn⟩
  rw [ends_deliverTick (by rintro ⟨⟩) (by rfl), ends_unmask (by exact hc) (by rfl)]
  refine ⟨?_, Nat.lt_of_succ_le (Nat.le_of_not_lt short)⟩
  simp only [requestSwitch, idled, ← hm]

end Kernel

/-! ## Handing the processor over -/

namespace Processor

variable {n : Nat} {p q : Processor n} {t : Fin n}

/-- The entries of all tasks are known, and the thread whose code is executed is the one that runs. -/
structure Manned (p : Processor n) : Prop where
  ready : ∀ t : Fin n, p.ready[t] = true
  worker : ∀ t : Fin n, p.thread = some t → p.workers[t] ≠ none
  runs : p.group.running = p.worker

theorem Manned.worker_ne_none (h : p.Manned) : p.worker ≠ none := by
  unfold Processor.worker
  split
  · exact nofun
  · next t ht => exact h.worker t ht

theorem Manned.spawn (h : p.Manned) (t : Fin n) : ∃ number q, p.spawn t = .ok (number, q) ∧ q.ready = p.ready ∧
    q.workers[t] = some number ∧ q.group.running = p.group.running := by
  unfold Processor.spawn
  split
  · next number hw => exact ⟨number, p, rfl, rfl, hw, rfl⟩
  · rw [if_pos (h.ready t)]
    exact ⟨_, _, rfl, rfl, Table.getElem_set_self .., rfl⟩

theorem Manned.switch (h : p.Manned) (t : Fin n) : ∃ q, p.switch t = .ok q ∧ q.Manned := by
  obtain ⟨number, q, hq, ready, worker, running⟩ := h.spawn t
  have pass : q.group.pass p.worker number = .ok (q.group.give number) :=
    if_pos ⟨h.worker_ne_none, running.trans h.runs⟩
  refine ⟨_, by rw [Processor.switch, hq]; simp only [bind, Except.bind, pass]; rfl,
    ⟨fun u => ?_, fun u hu => ?_, worker.symm⟩⟩
  · exact (congrArg (·[u]) ready).trans (h.ready u)
  · obtain rfl : t = u := Option.some.inj hu
    exact fun hn => nomatch worker.symm.trans hn

end Processor

namespace Kernel

variable {k l : Kernel c} {t old : c.TaskId} {suspensions : Table (Suspension c) c.tasks.size}

theorem handOver_total (manned : k.processor.Manned) (t : c.TaskId) :
    Ends (handOver t) k (fun _ l => l.processor.Manned) fun _ _ => False := by
  refine (ends_bind _ _).mpr (ends_get.mpr ?_)
  obtain ⟨q, hq, hm⟩ := manned.switch t
  rw [hq]
  exact hm

/-- The task that keeps the processor goes on, and otherwise the processor is handed over, after some assertions. -/
theorem ends_switchTo (hr : k.running = some old) (consistent : k.isConsistent = true) (t : c.TaskId)
    {ok : Unit → Kernel c → Prop} {bad : Ending → Kernel c → Prop} (keeps : t = old → ok () k)
    (misplaced : t ≠ old → k.processor.context ≠ .task → bad .assertionFailed { k with running := some t })
    (unmanned : t ≠ old → k.processor.workers[old] = none ∨ k.processor.workers[old] ≠ k.processor.worker →
      bad .assertionFailed { k with running := some t })
    (handed : t ≠ old → Ends (handOver t) { k with running := some t } ok bad) :
    Ends (switchTo t) k ok bad := by
  rw [switchTo, ends_bind, ends_current_of_running hr, ends_ite]
  refine ⟨fun other => ?_, fun same => keeps (Classical.not_not.mp same)⟩
  have consistent : ({ k with running := some t } : Kernel c).isConsistent = true := consistent
  simp only [ends_bind, ends_modify, ends_check_of_consistent consistent, ends_get, ends_ite, ends_throw]
  exact ⟨misplaced other, fun _ => ⟨unmanned other, fun _ => handed other⟩⟩

theorem startFirst_total (h : k.Between suspensions) (manned : k.processor.Manned) (hr : k.running = none)
    (t : c.TaskId) :
    Ends (startFirst t) k (fun _ l => l.processor.Manned) fun _ _ => False := by
  have context : k.processor.context = .boot := by
    rw [h.context, hr]
    rfl
  simp only [startFirst, ends_bind, ends_modify, ends_get, ends_ite, ends_throw]
  exact ⟨fun hn => hn context, fun _ => handOver_total (k := { k with running := some t }) manned t⟩

theorem switchTo_total (manned : k.processor.Manned) (consistent : k.isConsistent = true) (hr : k.running = some old)
    (ht : k.processor.thread = some old) (hc : k.processor.context = .task) (t : c.TaskId) :
    Ends (switchTo t) k (fun _ l => l.processor.Manned) fun _ _ => False := by
  have same : ¬ (k.processor.workers[old] = none ∨ k.processor.workers[old] ≠ k.processor.worker) := by
    rintro (missing | other)
    · exact manned.worker old ht missing
    · exact other (by rw [Processor.worker, ht])
  refine ends_switchTo hr consistent t (fun _ => manned) (fun _ misplaced => misplaced hc)
    (fun _ unmanned => same unmanned) fun _ => ?_
  exact handOver_total (k := { k with running := some t }) manned t

end Kernel

end Rtos
