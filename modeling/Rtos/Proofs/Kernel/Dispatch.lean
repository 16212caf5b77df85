import Rtos.Proofs.Kernel.Ownership
import Rtos.Proofs.Kernel.Perform

/-!
# The dispatcher

* `Kernel.Between`: the state of the kernel while no task is at work, which is when the dispatcher is.
* `settle_spec`: the dispatcher applies what interrupts have recorded, after which nothing is recorded.
* `choose_spec`: it asks for the decision of the policy, and gets it.
* `idle_spec`, `startFirst_spec`, `switchTo_spec`: it lets time pass, or hands the processor over, and changes nothing
  else.
-/

namespace Rtos.Kernel
set_option autoImplicit false

variable {c : Config} {k l : Kernel c} {suspensions : Table (Suspension c) c.tasks.size}

/-- No task is at work: all of them are suspended. The processor is held by the thread of the task that ran last. -/
structure Between (k : Kernel c) (suspensions : Table (Suspension c) c.tasks.size) : Prop where
  thread : k.processor.thread = k.running
  context : k.processor.context = if k.running.isSome then .task else .boot
  unmasked : k.processor.masked = false
  disabled : k.preemptDisabled = true
  scheduled : k.Scheduled
  waits : k.Waits suspensions none

theorem Between.context_ne_outside (h : k.Between suspensions) : k.processor.context ≠ .outside := by
  rw [h.context]
  split <;> exact nofun

/-! ## Applying what was recorded -/

/-- While the dispatcher applies what was recorded before `k`, nothing is recorded any more, tasks become runnable but
hold what they held, and no timer gets another action. -/
structure Settling (k : Kernel c) (suspensions : Table (Suspension c) c.tasks.size) (l : Kernel c) : Prop where
  between : l.Between suspensions
  narrows : Narrows k l
  settled : l.hasPending = false
  effect : ∀ timer : c.TimerId, l.timers[timer].effect = k.timers[timer].effect

/-- How applying what was recorded may fail: with the error of a timer, or else not for being in the wrong place. -/
def Stalls (k : Kernel c) (ending : Ending) (l : Kernel c) : Prop :=
  l.Scheduled ∧ (ending = .fatal .badContext → ∃ timer : c.TimerId, k.timers[timer].effect = .user (.error .badContext))

namespace Settling

theorem stalls (h : Settling k suspensions l) {error : FatalError} (he : error ≠ .badContext) :
    Stalls k (.fatal error) l :=
  ⟨h.between.scheduled, fun heq => absurd (Ending.fatal.inj heq) he⟩

theorem makeRunnable (h : Settling k suspensions l) (u : c.TaskId) : Settling k suspensions (l.makeRunnable u) where
  between := by
    have hb := h.between
    exact ⟨hb.thread, hb.context, hb.unmasked, hb.disabled, hb.scheduled.of_setRunnable rfl rfl,
      waits_setRunnable hb.scheduled hb.waits rfl (fun _ => rfl) rfl rfl rfl⟩
  narrows := h.narrows.trans (.of_setRunnable h.between.scheduled (u := u) rfl rfl)
  settled := h.settled
  effect := h.effect

theorem modifyTask (h : Settling k suspensions l) (u : c.TaskId) (f : TaskState c → TaskState c)
    (hf : ∀ s, (f s).wait = s.wait) : Settling k suspensions (l.modifyTask u f) where
  between := by
    have hb := h.between
    have quiet : Quiet l (l.modifyTask u f) := ⟨rfl, rfl, fun v => wait_modifyTask l u v f hf⟩
    exact ⟨hb.thread, hb.context, hb.unmasked, hb.disabled, quiet.scheduled hb.scheduled,
      hb.waits.of_runnable (fun _ hu => hu) quiet.wait rfl (fun _ => rfl) fun _ => rfl⟩
  narrows := h.narrows.trans (.of_eq rfl fun _ => rfl)
  settled := h.settled
  effect := h.effect

theorem modifyTimer (h : Settling k suspensions l) (timer : c.TimerId) (f : TimerState c → TimerState c)
    (hf : ∀ s, (f s).effect = s.effect) : Settling k suspensions (l.modifyTimer timer f) where
  between := by
    have hb := h.between
    exact ⟨hb.thread, hb.context, hb.unmasked, hb.disabled, (quiet_modifyTimer l timer f).scheduled hb.scheduled,
      hb.waits.of_runnable (fun _ hu => hu) (fun _ => rfl) rfl (fun _ => rfl) fun _ => rfl⟩
  narrows := h.narrows.trans (.of_eq rfl fun _ => rfl)
  settled := h.settled
  effect other := by
    rw [← h.effect other]
    by_cases ho : other = timer
    · subst ho
      simp [Kernel.modifyTimer, hf]
    · exact congrArg TimerState.effect (Table.getElem_set_of_ne l.timers (f l.timers[timer]) ho)

theorem sendSignals (h : Settling k suspensions l) (u : c.TaskId) (set : SignalSet) :
    Settling k suspensions (l.sendSignals u set) :=
  (h.modifyTask u (fun s => { s with signals := s.signals ||| set }) fun _ => rfl).makeRunnable u

theorem timeOut (h : Settling k suspensions l) (u : c.TaskId) : Settling k suspensions (l.timeOut u) :=
  (h.modifyTask u (fun s => { s with timedOut := true }) fun _ => rfl).makeRunnable u

theorem tick (h : Settling k suspensions l) : Settling k suspensions { l with now := l.now + 1 } where
  between := by
    have hb := h.between
    have quiet : Quiet l { l with now := l.now + 1 } := ⟨rfl, rfl, fun _ => rfl⟩
    exact ⟨hb.thread, hb.context, hb.unmasked, hb.disabled, quiet.scheduled hb.scheduled,
      hb.waits.of_runnable (fun _ hu => hu) (fun _ => rfl) rfl (fun _ => rfl) fun _ => rfl⟩
  narrows := h.narrows.trans (.of_eq rfl fun _ => rfl)
  settled := h.settled
  effect := h.effect

theorem fire (h : Settling k suspensions l) (timer : c.TimerId) :
    Ends (fire timer) l (fun _ => Settling k suspensions) (Stalls k) := by
  refine (ends_bind _ _).mpr ((ends_get).mpr ?_)
  split
  · exact h
  · next task set _ =>
    simp only [ends_bind, ends_taskId, ends_get, ends_ite, ends_modify]
    refine ⟨fun hi => ⟨fun _ => ?_, fun _ => ?_⟩, fun _ => h.stalls nofun⟩
    · exact (h.modifyTimer timer (fun t => { t with overflow := true }) fun _ => rfl).sendSignals _ set
    · exact h.sendSignals _ set
  · next error he =>
    refine ⟨h.between.scheduled, fun heq => ⟨timer, ?_⟩⟩
    rw [← h.effect timer, he, Ending.fatal.inj heq]
  · next task _ => exact h.timeOut task

theorem rearm (h : Settling k suspensions l) (timer : c.TimerId) : Settling k suspensions (l.rearm timer) := by
  refine h.modifyTimer timer _ fun s => ?_
  split <;> rfl

theorem fireIfDue (h : Settling k suspensions l) (timer : c.TimerId) :
    Ends (fireIfDue timer) l (fun _ => Settling k suspensions) (Stalls k) := by
  simp only [Kernel.fireIfDue, ends_bind, ends_get, ends_ite, ends_modify, ends_pure]
  exact ⟨fun _ => (h.rearm timer).fire timer, fun _ => h⟩

theorem applyEvent (h : Settling k suspensions l) (event : c.EventId) :
    Ends (applyEvent event) l (fun _ => Settling k suspensions) (Stalls k) := by
  unfold Kernel.applyEvent
  split
  · simp only [ends_bind, ends_taskId, ends_modify]
    exact ⟨fun hi => h.makeRunnable _, fun _ => h.stalls nofun⟩
  · simp only [ends_bind, ends_taskId, ends_modify]
    exact ⟨fun hi => h.sendSignals _ _, fun _ => h.stalls nofun⟩

theorem applyTicks (h : Settling k suspensions l) (ticks : Nat) :
    Ends (applyTicks ticks) l (fun _ => Settling k suspensions) (Stalls k) := by
  match ticks with
  | 0 => exact h
  | 1 => exact Ends.forM _ (fun timer _ l hl => fireIfDue hl timer) _ h.tick
  | _ + 2 => exact h.stalls nofun

end Settling

theorem ends_takePending (hc : k.processor.context ≠ .outside) (hm : k.processor.masked = false)
    {ok : List c.EventId × Nat → Kernel c → Prop} {bad : Ending → Kernel c → Prop} :
    Ends takePending k ok bad ↔
      ok (k.raisedEvents, k.pendingTicks) { k with raised := Table.replicate _ false, pendingTicks := 0 } := by
  have unmasked : { k.processor with masked := false } = k.processor := by rw [← hm]
  simp only [takePending, ends_bind, ends_mask hc hm, ends_get, ends_set]
  rw [ends_unmask (by exact hc) (by rfl), unmasked]
  exact Iff.rfl

theorem hasPending_eq_false_iff (k : Kernel c) :
    k.hasPending = false ↔ (∀ event : c.EventId, k.raised[event] = false) ∧ k.pendingTicks = 0 := by
  simp [hasPending, List.any_eq_false, List.mem_finRange]

theorem Settling.taken (h : k.Between suspensions) :
    Settling k suspensions { k with raised := Table.replicate _ false, pendingTicks := 0 } := by
  have quiet : Quiet k { k with raised := Table.replicate _ false, pendingTicks := 0 } := ⟨rfl, rfl, fun _ => rfl⟩
  refine ⟨⟨h.thread, h.context, h.unmasked, h.disabled, quiet.scheduled h.scheduled, ?_⟩, quiet.narrows, ?_,
    fun _ => rfl⟩
  · exact h.waits.of_runnable (fun _ hu => hu) (fun _ => rfl) rfl (fun _ => rfl) fun _ => rfl
  · simp [hasPending_eq_false_iff]

/-- Where nothing is recorded, there is nothing to apply. -/
theorem settle_settled (h : k.Between suspensions) (settled : k.hasPending = false) : settle k = .ok () k := by
  obtain ⟨noEvent, noTick⟩ := (hasPending_eq_false_iff k).mp settled
  have none : k.raisedEvents = [] := by simp [raisedEvents, noEvent]
  have raised : Table.replicate _ false = k.raised := Table.ext fun event => by simp [noEvent event]
  have same : { k with raised := Table.replicate _ false, pendingTicks := 0 } = k := by rw [raised, ← noTick]
  refine Ends.eq_ok ?_
  rw [settle, ends_bind, ends_takePending h.context_ne_outside h.unmasked, ends_bind, same, none, noTick]
  exact ⟨rfl, rfl⟩

/-- The dispatcher applies what interrupts have recorded, after which nothing is recorded. -/
theorem settle_spec (h : k.Between suspensions) :
    Ends settle k (fun _ l => l.Between suspensions ∧ l.hasPending = false ∧ Narrows k l) (Stalls k) := by
  rw [settle, ends_bind, ends_takePending h.context_ne_outside h.unmasked, ends_bind]
  refine (Ends.forM _ (fun event _ l hl => Settling.applyEvent hl event) _ (Settling.taken h)).mono (fun _ l hl => ?_)
    fun _ _ hb => hb
  exact (hl.applyTicks k.pendingTicks).mono (fun _ m hm => ⟨hm.between, hm.settled, hm.narrows⟩) fun _ _ hb => hb

/-! ## Choosing -/

/-- What ends the run for another reason than being in the wrong place leaves the schedule in agreement. -/
def Halts (ending : Ending) (l : Kernel c) : Prop := l.Scheduled ∧ ending ≠ .fatal .badContext

theorem ends_check (h : k.Scheduled) {ok : Unit → Kernel c → Prop} (hok : ok () k) : Ends check k ok Halts := by
  simp only [check, ends_bind, ends_get, ends_ite, ends_fail, ends_pure]
  exact ⟨fun _ => ⟨h, nofun⟩, fun _ => hok⟩

theorem choose_eq (h : k.Scheduled) {task : Option c.TaskId} (hd : k.decision = .ok task) :
    choose k = .ok task k.refresh := by
  have hn : k.refresh.next = .ok task := h.next_refresh.trans hd
  refine Ends.eq_ok ?_
  simp only [choose, ends_bind, ends_modify, ends_get, hn, ends_pure, and_self]

theorem Scheduled.choose_iff (h : k.Scheduled) (task : Option c.TaskId) :
    choose k = .ok task k.refresh ↔ k.decision = .ok task := by
  obtain ⟨task', hd⟩ := h.exists_decision
  rw [choose_eq h hd, hd]
  exact ⟨fun he => by cases he; rfl, fun he => by cases he; rfl⟩

theorem Between.refresh (h : k.Between suspensions) : k.refresh.Between suspensions := by
  have scheduled := h.scheduled.refresh
  obtain ⟨s, hs, hr⟩ := k.refresh_eq
  rw [hs] at scheduled ⊢
  exact ⟨h.thread, h.context, h.unmasked, h.disabled, scheduled,
    h.waits.of_runnable (fun u hu => (hr u).trans hu) (fun _ => rfl) rfl (fun _ => rfl) fun _ => rfl⟩

theorem choose_spec (h : k.Between suspensions) :
    Ends (do check; choose) k (fun task l => l = k.refresh ∧ k.decision = .ok task) Halts := by
  obtain ⟨task, hd⟩ := h.scheduled.exists_decision
  exact (ends_bind _ _).mpr (ends_check h.scheduled (ends_of_eq_ok (choose_eq h.scheduled hd) ⟨rfl, hd⟩))

/-! ## Idling -/

theorem ends_deliverTick (hc : k.processor.context ≠ .outside) (hm : k.processor.masked = false)
    {ok : Unit → Kernel c → Prop} {bad : Ending → Kernel c → Prop} :
    Ends deliverTick k ok bad ↔ ok () (requestSwitch { k with pendingTicks := k.pendingTicks + 1 }) := by
  have unmasked : { k.processor with masked := false } = k.processor := by rw [← hm]
  simp only [deliverTick, ends_bind, ends_mask hc hm, ends_modify]
  rw [ends_unmask (by exact hc) (by rfl), unmasked]

theorem deliverTick_spec (hc : k.processor.context ≠ .outside) (hm : k.processor.masked = false) : Ends deliverTick k
    (fun _ l => l = requestSwitch { k with pendingTicks := k.pendingTicks + 1 }) fun _ _ => False :=
  (ends_deliverTick hc hm).mpr rfl

/-- Time passes, or nothing happens: nothing but the recorded ticks and the count of idle ticks changes, and a task
switch may be asked for. -/
def Idled (k l : Kernel c) : Prop := ∃ idleTicks ticks pending,
  l = { k with
    processor := { k.processor with idleTicks := idleTicks }, pendingTicks := ticks, preemptPending := pending }

theorem waitForInterrupt_spec (h : k.Scheduled) (hm : k.processor.masked = true) :
    Ends waitForInterrupt k (fun _ l => Idled k l) Halts := by
  have scheduled : ∀ p, ({ k with processor := p } : Kernel c).Scheduled := fun p => h.of_schedule_eq rfl rfl rfl
  simp only [waitForInterrupt, ends_bind, ends_get, ends_ite, ends_throw, ends_set, ends_modify]
  refine ⟨fun hn => absurd hm hn, fun _ => ⟨fun _ => ⟨scheduled _, nofun⟩, fun _ => ?_⟩⟩
  rw [ends_deliverTick (by exact nofun) (by rfl)]
  refine ⟨k.processor.idleTicks + 1, k.pendingTicks + 1, true, ?_⟩
  have masked : { k.processor with idleTicks := k.processor.idleTicks + 1, masked := true } =
      { k.processor with idleTicks := k.processor.idleTicks + 1 } := by rw [← hm]
  simp only [requestSwitch, ← masked]

theorem idle_spec (h : k.Between suspensions) : Ends idle k (fun _ l => Idled k l) Halts := by
  have hc := h.context_ne_outside
  have hm := h.unmasked
  have unmasked : { k.processor with masked := false } = k.processor := by rw [← hm]
  have scheduled : ({ k with processor := { k.processor with masked := true } } : Kernel c).Scheduled :=
    h.scheduled.of_schedule_eq rfl rfl rfl
  simp only [idle, ends_bind, ends_mask hc hm, ends_get, ends_ite]
  constructor
  · intro _
    refine (waitForInterrupt_spec scheduled rfl).mono (fun _ l hl => ?_) fun _ _ hb => hb
    obtain ⟨n, ticks, pending, rfl⟩ := hl
    rw [ends_unmask (by exact hc) (by rfl)]
    exact ⟨n, ticks, pending, by simp only [← hm]⟩
  · intro _
    rw [ends_unmask (by exact hc) (by rfl), unmasked]
    exact ⟨k.processor.idleTicks, k.pendingTicks, k.preemptPending, rfl⟩

theorem Idled.between (h : Idled k l) (hk : k.Between suspensions) : l.Between suspensions := by
  obtain ⟨n, ticks, pending, rfl⟩ := h
  exact ⟨hk.thread, hk.context, hk.unmasked, hk.disabled, hk.scheduled.of_schedule_eq rfl rfl rfl,
    hk.waits.of_runnable (fun _ hu => hu) (fun _ => rfl) rfl (fun _ => rfl) fun _ => rfl⟩

theorem Idled.narrows (h : Idled k l) : Narrows k l := by
  obtain ⟨n, ticks, pending, rfl⟩ := h
  exact .of_eq rfl fun _ => rfl

/-! ## Handing the processor over -/

end Rtos.Kernel

namespace Rtos.Processor

variable {n : Nat} {p p' q : Processor n} {t : Fin n}

/-- Which task has which thread, and which thread runs. -/
def seats (p : Processor n) : Option (Fin n) × Table (Option Nat) n × ThreadGroup := (p.thread, p.workers, p.group)

/-- The processor is handed to the thread of `t`, which is spawned unless it exists. -/
structure HandsTo (t : Fin n) (p q : Processor n) : Prop where
  thread : q.thread = some t
  workers : q.workers = p.workers.set t (some (p.workers[t].getD p.group.spawned))
  spawned : q.group.spawned = p.group.spawned + if p.workers[t] = none then 1 else 0
  shutdown : q.group.shutdown = p.group.shutdown

theorem spawn_spec {number : Nat} (h : p.spawn t = .ok (number, q)) : q.masked = p.masked ∧
    q.workers = p.workers.set t (some (p.workers[t].getD p.group.spawned)) ∧
    (q.group.spawned = p.group.spawned + if p.workers[t] = none then 1 else 0) ∧
    q.group.shutdown = p.group.shutdown := by
  unfold spawn at h
  split at h
  · next worker hw =>
    cases h
    rw [hw, Option.getD_some, ← hw, Table.set_getElem]
    exact ⟨rfl, rfl, by simp [hw], rfl⟩
  · next hw =>
    split at h <;> cases h
    rw [hw, Option.getD_none, if_pos rfl]
    exact ⟨rfl, rfl, rfl, rfl⟩

theorem switch_spec (h : p.switch t = .ok q) : HandsTo t p q ∧ q.context = .task ∧ q.masked = p.masked := by
  unfold switch at h
  cases hs : p.spawn t with
  | error message => simp [hs, bind, Except.bind] at h
  | ok found =>
    obtain ⟨worker, r⟩ := found
    obtain ⟨masked, workers, spawned, shutdown⟩ := spawn_spec hs
    cases hg : r.group.pass p.worker worker with
    | error message => simp [hs, hg, bind, Except.bind] at h
    | ok group =>
      simp only [hs, hg, bind, Except.bind, pure, Except.pure] at h
      cases h
      unfold ThreadGroup.pass at hg
      split at hg <;> cases hg
      exact ⟨⟨rfl, workers, spawned, shutdown⟩, rfl, masked⟩

end Rtos.Processor

namespace Rtos.Kernel

variable {c : Config} {k l : Kernel c}

/-- The processor is handed to the thread of `t`, and nothing else changes. -/
structure HandedOver (t : c.TaskId) (k l : Kernel c) : Prop where
  rest : ∃ p, l = { k with running := some t, processor := p }
  thread : l.processor.thread = some t
  context : l.processor.context = .task
  masked : l.processor.masked = k.processor.masked

theorem HandedOver.narrows {t : c.TaskId} (h : HandedOver t k l) : Narrows k l := by
  obtain ⟨p, rfl⟩ := h.rest
  exact .of_eq rfl fun _ => rfl

theorem handOver_spec (h : k.Scheduled) {t : c.TaskId} (hr : k.running = some t) :
    Ends (handOver t) k (fun _ l => HandedOver t k l) Halts := by
  refine (ends_bind _ _).mpr (ends_get.mpr ?_)
  split
  · next p hp =>
    obtain ⟨hands, hc, hm⟩ := Processor.switch_spec hp
    exact ⟨⟨p, by rw [← hr]⟩, hands.thread, hc, hm⟩
  · exact ⟨h, nofun⟩

theorem startFirst_spec (h : k.Scheduled) (t : c.TaskId) :
    Ends (startFirst t) k (fun _ l => HandedOver t k l) Halts := by
  have scheduled : ({ k with running := some t } : Kernel c).Scheduled := h.of_schedule_eq rfl rfl rfl
  simp only [startFirst, ends_bind, ends_modify, ends_get, ends_ite, ends_throw]
  refine ⟨fun _ => ⟨scheduled, nofun⟩, fun _ => ?_⟩
  refine (handOver_spec scheduled rfl).mono (fun _ l hl => ?_) fun _ _ hb => hb
  exact ⟨hl.rest, hl.thread, hl.context, hl.masked⟩

theorem switchTo_spec (h : k.Scheduled) {old : c.TaskId} (hr : k.running = some old)
    (ht : k.processor.thread = some old) (hc : k.processor.context = .task) (t : c.TaskId) :
    Ends (switchTo t) k (fun _ l => HandedOver t k l) Halts := by
  have scheduled : ({ k with running := some t } : Kernel c).Scheduled := h.of_schedule_eq rfl rfl rfl
  rw [switchTo, ends_bind, ends_current_of_running hr, ends_ite]
  refine ⟨fun _ => ?_, fun he => ?_⟩
  · refine (ends_bind _ _).mpr (ends_modify _ |>.mpr ?_)
    refine (ends_bind _ _).mpr (ends_check scheduled ?_)
    simp only [ends_bind, ends_get, ends_ite, ends_throw]
    refine ⟨fun _ => ⟨scheduled, nofun⟩, fun _ => ⟨fun _ => ⟨scheduled, nofun⟩, fun _ => ?_⟩⟩
    refine (handOver_spec scheduled rfl).mono (fun _ l hl => ?_) fun _ _ hb => hb
    exact ⟨hl.rest, hl.thread, hl.context, hl.masked⟩
  · have he : t = old := Classical.not_not.mp he
    subst he
    exact ⟨⟨k.processor, by rw [← hr]⟩, ht, hc, rfl⟩

end Rtos.Kernel
