import Rtos.Proofs.Kernel.Firing
import Rtos.Proofs.Threads
import Rtos.Proofs.TickAccount

/-!
# Idle time

The processor counts the ticks it delivers while idle, and starts over when it is handed to another thread.

* `Machine.idleCount`: the number of idle ticks in a run since the processor was last handed over.
* `idleTicks_play`: this is what the processor counts.
* `Orderly.idles_of_decision`, `Orderly.dispatches_of_decision`: what comes of a choice.
* `play_idleRounds`: as long as no timer is due, the processor idles, and nothing but time passes.
-/

namespace Rtos
set_option autoImplicit false

/-! ## Handing the processor over -/

theorem Processor.switch_idleTicks {n : Nat} {p q : Processor n} {t : Fin n} (h : p.switch t = .ok q) :
    q.idleTicks = 0 := by
  unfold switch at h
  cases hs : p.spawn t with
  | error message => simp [hs, bind, Except.bind] at h
  | ok found =>
    obtain ⟨worker, r⟩ := found
    cases hg : r.group.pass p.worker worker with
    | error message => simp [hs, hg, bind, Except.bind] at h
    | ok group =>
      simp only [hs, hg, bind, Except.bind, pure, Except.pure] at h
      cases h
      rfl

variable {c : Config}

namespace Kernel

variable {k l : Kernel c} {t old : c.TaskId} {suspensions : Table (Suspension c) c.tasks.size}

/-- Idle time is counted anew just if the processor is handed to another thread. -/
def Recounts (k l : Kernel c) : Prop :=
  l.processor.idleTicks = if l.processor.thread = k.processor.thread then k.processor.idleTicks else 0

theorem Recounts.of_eq (h : l.processor = k.processor) : Recounts k l := by rw [Recounts, h, if_pos rfl]

theorem handOver_recounts (h : k.processor.thread ≠ some t) :
    Ends (handOver t) k (fun _ l => Recounts k l) fun _ _ => True := by
  refine (ends_bind _ _).mpr (ends_get.mpr ?_)
  split
  · next p hp =>
    have thread : p.thread = some t := (Processor.switch_spec hp).1.thread
    have fresh : p.idleTicks = 0 := Processor.switch_idleTicks hp
    refine fresh.trans (if_neg fun same => h ?_).symm
    exact same.symm.trans thread
  · trivial

theorem startFirst_recounts (ht : k.processor.thread = none) (t : c.TaskId) :
    Ends (startFirst t) k (fun _ l => Recounts k l) fun _ _ => True := by
  have other : ({ k with running := some t } : Kernel c).processor.thread ≠ some t := by
    rw [ht]
    exact nofun
  simp only [startFirst, ends_bind, ends_modify, ends_get, ends_ite, ends_throw]
  exact ⟨fun _ => trivial, fun _ => handOver_recounts other⟩

theorem switchTo_recounts (hr : k.running = some old) (ht : k.processor.thread = some old)
    (consistent : k.isConsistent = true) (t : c.TaskId) :
    Ends (switchTo t) k (fun _ l => Recounts k l) fun _ _ => True := by
  refine ends_switchTo hr consistent t (fun _ => .of_eq rfl) (fun _ _ => trivial) (fun _ _ => trivial) fun other => ?_
  refine handOver_recounts (k := { k with running := some t }) fun same => other ?_
  exact Option.some.inj (same.symm.trans ht)

end Kernel

namespace Machine
open Kernel

variable {m m' : Machine c} {detour : Prop} {t : c.TaskId} {a : Act}

/-! ## Choices -/

/-- What an idle tick changes. -/
theorem Orderly.idles_of_idle (h : m.Orderly detour) (sane : m.Sane) (hi : m.IdlesIn a) :
    m.kernel.processor.idleTicks < maxIdleTicks ∧
      m.act a = { m with kernel := m.kernel.refresh.idled, control := .dispatching } := by
  obtain ⟨rfl, hc, hd⟩ := hi
  cases h.chooses sane hc with
  | idles decision control kernel patient =>
    refine ⟨patient, ?_⟩
    rw [← kernel, ← control, ← suspensions_choosing hc]
  | dispatches t decision control => cases hd.symm.trans control
  | starves long control => cases hd.symm.trans control

/-- If there is no task to choose, an idle tick is delivered, unless there were too many. -/
theorem Orderly.idles_of_decision (h : m.Orderly detour) (sane : m.Sane) (hc : m.control = .choosing)
    (hd : m.kernel.decision = .ok none) :
    m.IdlesIn .step ∨ (maxIdleTicks ≤ m.kernel.processor.idleTicks ∧ (m.act .step).control = .ended starved) := by
  cases h.chooses sane hc with
  | idles decision control => exact .inl ⟨rfl, hc, control⟩
  | dispatches t decision => cases hd.symm.trans decision
  | starves long control => exact .inr ⟨long, control⟩

theorem recounts_dispatch (between : m.kernel.Between m.suspensions) (manned : m.kernel.processor.Manned)
    (consistent : m.kernel.isConsistent = true) (t : c.TaskId) :
    (dispatch (some t) m).control = .resuming ∧ Recounts m.kernel (dispatch (some t) m).kernel := by
  have thread := between.thread
  have context := between.context
  cases hr : m.kernel.running with
  | none =>
    rw [hr] at thread
    simp only [dispatch, hr]
    exact run_of_ends (P := fun m' => m'.control = .resuming ∧ Recounts m.kernel m'.kernel)
      ((startFirst_recounts thread t).and (startFirst_total between manned hr t)) (fun _ _ hl => ⟨rfl, hl.1⟩)
      fun _ _ hl => hl.2.elim
  | some old =>
    rw [hr] at thread context
    simp only [dispatch, hr]
    exact run_of_ends (P := fun m' => m'.control = .resuming ∧ Recounts m.kernel m'.kernel)
      ((switchTo_recounts hr thread consistent t).and (switchTo_total manned consistent hr thread context t))
      (fun _ _ hl => ⟨rfl, hl.1⟩) fun _ _ hl => hl.2.elim

/-- The task that is chosen goes on. -/
theorem Orderly.dispatches_of_decision (h : m.Orderly detour) (sane : m.Sane) (hc : m.control = .choosing)
    (hd : m.kernel.decision = .ok (some t)) :
    (m.act .step).control = .resuming ∧ Recounts m.kernel (m.act .step).kernel := by
  obtain ⟨_, manned, consistent⟩ := sane
  replace h := h.choosing hc
  have chosen : (do check; choose : Action c _) m.kernel = .ok (some t) m.kernel.refresh := by
    refine Ends.eq_ok ((choose_total h.1.scheduled consistent).mono ?_ fun _ _ => id)
    rintro task l ⟨rfl, decision⟩
    cases hd.symm.trans decision
    exact ⟨rfl, rfl⟩
  have choosing : m.act .step = dispatch (some t) { m with kernel := m.kernel.refresh } := by
    simp only [Machine.act, step, hc, run, chosen]
  rw [← isConsistent_refresh] at consistent
  rw [← processor_refresh] at manned
  obtain ⟨control, recounts⟩ :=
    recounts_dispatch (m := { m with kernel := m.kernel.refresh }) h.1.refresh manned consistent t
  rw [choosing]
  refine ⟨control, ?_⟩
  rwa [Recounts, processor_refresh] at recounts

/-! ## One act -/

/-- By the act, the processor is handed to another thread. -/
def HandsOver (m : Machine c) (a : Act) : Prop := (m.act a).kernel.processor.thread ≠ m.kernel.processor.thread

instance (m : Machine c) (a : Act) : Decidable (m.HandsOver a) := inferInstanceAs (Decidable (_ ≠ _))

instance (m : Machine c) (a : Act) : Decidable (m.IdlesIn a) := inferInstanceAs (Decidable (_ ∧ _))

/-- Count an idle tick, or start over when the processor is handed over. -/
def countIdle (m : Machine c) (n : Nat) (a : Act) : Nat :=
  if m.HandsOver a then 0 else if m.IdlesIn a then n + 1 else n

/-- The number of idle ticks in a run since the processor was last handed over. -/
def idleCount (c : Config) (acts : List Act) : Nat := watch (c := c) countIdle 0 acts

theorem idleCount_concat (acts : List Act) (a : Act) :
    idleCount c (acts ++ [a]) = (play c acts).countIdle (idleCount c acts) a := watch_concat _ 0 acts a

/-- Outside the dispatcher the processor goes on counting, unless a task yields to another one. -/
theorem Transition.recounts (h : Transition m detour a m') (hn : ∀ ending, m'.control ≠ .ended ending)
    (hd : m.control ≠ .dispatching) (hc : m.control ≠ .choosing)
    (hy : ∀ reply task, m.control = .application reply → a ≠ .move (.call (.yieldTo task))) :
    Recounts m.kernel m'.kernel := by
  cases h with
  | stops ending scheduled => exact absurd rfl (hn ending)
  | fails scheduled misplaced => exact absurd rfl (hn _)
  | settles control => exact absurd control hd
  | idles control | dispatches control => exact absurd control hc
  | wakes control resumes suspended edits takes executes goes result =>
    rw [kernel_proceed goes]
    exact .of_eq (goes.frame.processor.trans edits.frame.processor)
  | calls control executes ready unasked call other result goes disabled =>
    rw [kernel_proceed goes]
    exact .of_eq goes.frame.processor
  | yields control executes ready task | yieldsTo control executes ready task | strays control executes task =>
    exact absurd rfl (hy _ task control)
  | rests | returns | leaves | preempts | interrupts | raises | ticks | services | continues => exact (if_pos rfl).symm

theorem Orderly.recounts_yieldTo (h : m.Orderly detour) (sane : m.Sane) {reply : Option Value}
    (hc : m.control = .application reply) (task : Nat)
    (hn : ∀ ending, (m.act (.move (.call (.yieldTo task)))).control ≠ .ended ending) :
    Recounts m.kernel (m.act (.move (.call (.yieldTo task)))).kernel := by
  obtain ⟨t, executes, ready, _⟩ := h.application hc
  rw [act_call hc] at hn ⊢
  refine run_of_alive (P := fun m' => (∀ ending, m'.control ≠ .ended ending) → Recounts m.kernel m'.kernel)
    (yieldTo_spec ready task) hn (fun p l hl hn => ?_) hn
  obtain ⟨rfl, rfl | ⟨u, rfl, _⟩⟩ := hl
  · simp only [proceed, goto, kernel_remember]
    exact .of_eq rfl
  · have remembered :=
      remember_eq (m := { m with kernel := m.kernel.entered }) executes.owned.thread (.returning (some .unit))
    simp only [proceed, remembered] at hn ⊢
    exact run_of_alive (P := fun m' => Recounts m.kernel m'.kernel)
      (switchTo_recounts (k := m.kernel.entered) ready.running executes.owned.thread sane.consistent u) hn
      fun _ _ hl => hl

/-- Apart from idle ticks, the processor counts on or starts over. -/
theorem Orderly.recounts (h : m.Orderly detour) (sane : m.Sane) (hn : ∀ ending, (m.act a).control ≠ .ended ending)
    (busy : ¬ m.IdlesIn a) : Recounts m.kernel (m.act a).kernel := by
  have transition := h.transition (fun _ => sane.accepted.timers) a
  cases hc : m.control with
  | dispatching =>
    cases a with
    | move move =>
      rw [act_move_of_kernel (.inl hc)]
      exact .of_eq rfl
    | step =>
      cases h.settles sane.accepted.aimed hc with
      | overflows many control => exact absurd control (hn _)
      | faults one ending faulty control => exact absurd control (hn _)
      | passes few control now settled processor => exact .of_eq processor
  | choosing =>
    cases a with
    | move move =>
      simp only [Machine.act, Machine.move, hc]
      exact .of_eq rfl
    | step =>
      obtain ⟨task, hd⟩ := (h.scheduled fun ending he => by cases hc.symm.trans he).exists_decision
      cases task with
      | some t => exact (h.dispatches_of_decision sane hc hd).2
      | none =>
        rcases h.idles_of_decision sane hc hd with idles | ⟨_, ended⟩
        · exact absurd idles busy
        · exact absurd ended (hn _)
  | application reply =>
    by_cases hy : ∃ task, a = .move (.call (.yieldTo task))
    · obtain ⟨task, rfl⟩ := hy
      exact h.recounts_yieldTo sane hc task hn
    · exact transition.recounts hn (by simp [hc]) (by simp [hc]) fun _ task _ he => hy ⟨task, he⟩
  | resuming | leaving reply | handling | ended ending =>
    refine transition.recounts hn (by simp [hc]) (by simp [hc]) fun _ _ control => ?_
    cases hc.symm.trans control

theorem not_handsOver_of_idle (h : m.Orderly detour) (sane : m.Sane) (hi : m.IdlesIn a) : ¬ m.HandsOver a := by
  rw [HandsOver, (h.idles_of_idle sane hi).2, not_not, idled, processor_refresh]

/-- What the processor counts. -/
theorem Orderly.countIdle (h : m.Orderly detour) (sane : m.Sane) (hn : ∀ ending, (m.act a).control ≠ .ended ending) :
    (m.act a).kernel.processor.idleTicks = m.countIdle m.kernel.processor.idleTicks a := by
  unfold Machine.countIdle
  by_cases idle : m.IdlesIn a
  · rw [if_neg (not_handsOver_of_idle h sane idle), if_pos idle, (h.idles_of_idle sane idle).2, idled,
      processor_refresh]
  · have recounts := h.recounts sane hn idle
    unfold Recounts at recounts
    rw [recounts, if_neg idle]
    by_cases handed : m.HandsOver a
    · rw [if_pos handed, if_neg handed]
    · rw [if_neg handed, if_pos (not_not.mp handed)]

/-! ## Runs -/

/-- The processor counts the idle ticks since it was last handed over, and it never counts too many. -/
theorem idleTicks_play (acts : List Act) (hn : ∀ ending, (play c acts).control ≠ .ended ending) :
    (play c acts).kernel.processor.idleTicks = idleCount c acts ∧ idleCount c acts ≤ maxIdleTicks := by
  induction acts using play_induction with
  | boot =>
    refine run_of_alive (P := fun m => m.kernel.processor.idleTicks = 0 ∧ 0 ≤ maxIdleTicks) (boot_accepts rfl rfl) hn
      fun _ l hl => ?_
    obtain ⟨ready, hp⟩ := hl.2.1.processor
    exact ⟨congrArg Processor.idleTicks hp, Nat.zero_le _⟩
  | act acts a ih =>
    have before := not_ended_of_act hn
    have orderly := (orderly_play (c := c) acts).1
    have sane := sane_play acts before
    obtain ⟨counts, few⟩ := ih before
    rw [orderly.countIdle sane hn, counts, idleCount_concat]
    refine ⟨rfl, ?_⟩
    unfold Machine.countIdle
    split
    · exact Nat.zero_le _
    · split
      · next idle => exact counts ▸ (orderly.idles_of_idle sane idle).1
      · exact few

/-! ## Idling on -/

end Machine

namespace Kernel

variable {k : Kernel c} {suspensions : Table (Suspension c) c.tasks.size}

/-- If nothing but a tick is recorded and no timer is due, time passes, and nothing else happens. -/
theorem settle_tick (h : k.Between suspensions) (noEvent : ∀ event : c.EventId, k.raised[event] = false)
    (one : k.pendingTicks = 1)
    (early : ∀ id : c.TimerId, k.timers[id].enabled = true → k.timers[id].expiry ≠ k.now + 1) :
    settle k = .ok () { k with now := k.now + 1, pendingTicks := 0 } := by
  have none : k.raisedEvents = [] := by simp [raisedEvents, noEvent]
  have raised : Table.replicate _ false = k.raised := Table.ext fun event => by simp [noEvent event]
  refine Ends.eq_ok ?_
  rw [settle, ends_bind, ends_takePending h.context_ne_outside h.unmasked, ends_bind, none, one, raised]
  refine (ends_bind _ _).mpr ((ends_modify _).mpr ?_)
  refine (Ends.forM (I := fun l => l = { k with now := k.now + 1, pendingTicks := 0 }) _ (fun id _ l hl => ?_)
    _ rfl).mono
    (fun _ _ hl => ⟨rfl, hl⟩) fun _ _ => id
  have quiet : l.isDue id = false := by
    rw [Bool.eq_false_iff, ne_eq, isDue_iff, hl]
    rintro ⟨enabled, expiry⟩
    exact early id enabled expiry
  simp only [fireIfDue, ends_bind, ends_get, quiet, ends_ite, ends_pure]
  exact ⟨fun hn => absurd hn Bool.false_ne_true, fun _ => hl⟩

/-- No timer is due within the given number of ticks. -/
def NoneDue (k : Kernel c) (n : Nat) : Prop :=
  ∀ id : c.TimerId, k.timers[id].enabled = true → n < (k.timers[id].expiry - k.now).toNat

instance (k : Kernel c) (n : Nat) : Decidable (k.NoneDue n) :=
  inferInstanceAs (Decidable (∀ id : c.TimerId, k.timers[id].enabled = true → n < (k.timers[id].expiry - k.now).toNat))

theorem NoneDue.sooner {n : Nat} (h : k.NoneDue (n + 1)) :
    k.NoneDue n := fun id enabled => Nat.lt_of_succ_lt (h id enabled)

theorem NoneDue.ne {n : Nat} (h : k.NoneDue (n + 1)) (id : c.TimerId) (enabled : k.timers[id].enabled = true) :
    k.timers[id].expiry ≠ k.now + .ofNat n + 1 := fun due => by
  have later := h id enabled
  rw [due, UInt32.add_assoc, ← ofNat_succ, UInt32.add_comm, UInt32.add_sub_cancel, UInt32.toNat_ofNat'] at later
  exact absurd (Nat.mod_le _ _) (Nat.not_le.mpr later)

/-- The state after a number of idle ticks. -/
def aged (n : Nat) (k : Kernel c) : Kernel c :=
  { k with
    now := k.now + .ofNat n, processor := { k.processor with idleTicks := k.processor.idleTicks + n }
    preemptPending := k.preemptPending || decide (0 < n) }

theorem aged_zero (k : Kernel c) : k.aged 0 = k := by simp [aged]

theorem aged_aged (i j : Nat) (k : Kernel c) : (k.aged i).aged j = k.aged (i + j) := by
  have asked : (decide (0 < i) || decide (0 < j)) = decide (0 < i + j) := by
    rw [← Bool.decide_or, decide_eq_decide, Nat.add_pos_iff_pos_or_pos]
  simp only [aged, UInt32.add_assoc, Nat.add_assoc, UInt32.ofNat_add, Bool.or_assoc, asked]

theorem decision_aged (n : Nat) (k : Kernel c) : (k.aged n).decision = k.decision := by
  have quiet : Quiet k (k.aged n) := ⟨rfl, rfl, fun _ => rfl⟩
  exact quiet.decision

/-- Where there is nothing to compute anew, the passing of time does not change that. -/
theorem refresh_aged (n : Nat) (fresh : k.refresh = k) : (k.aged n).refresh = k.aged n := by
  unfold refresh
  split
  · next runnable priorities stale =>
    have stale : k.schedule = .inheritance runnable priorities true := stale
    have computed := congrArg Kernel.schedule (fresh.symm.trans (refresh_of_stale stale))
    cases stale.symm.trans computed
  · rfl

end Kernel

namespace Machine
open Kernel

variable {m : Machine c} {detour : Prop}

/-- The policy finds no task to choose, and has nothing to compute for that. -/
structure Idling (m : Machine c) : Prop where
  choosing : m.control = .choosing
  decision : m.kernel.decision = .ok none
  fresh : m.kernel.refresh = m.kernel

/-- The machine after a number of idle ticks. -/
def aged (n : Nat) (m : Machine c) : Machine c := { m with kernel := m.kernel.aged n }

theorem Idling.aged (h : m.Idling) (n : Nat) : (m.aged n).Idling :=
  ⟨h.choosing, (decision_aged n m.kernel).trans h.decision, refresh_aged n h.fresh⟩

theorem Idling.not_ended (h : m.Idling) (ending : Ending) : m.control ≠ .ended ending := by
  rw [h.choosing]
  exact nofun

theorem Idling.idlesIn (idling : m.Idling) (h : m.Orderly detour) (sane : m.Sane)
    (patient : m.kernel.processor.idleTicks < maxIdleTicks) : m.IdlesIn .step :=
  (h.idles_of_decision sane idling.choosing idling.decision).resolve_right
  fun starves => Nat.not_lt.mpr starves.1 patient

theorem Idling.round (idling : m.Idling) (h : m.Orderly detour) (sane : m.Sane)
    (patient : m.kernel.processor.idleTicks < maxIdleTicks)
    (early : ∀ id : c.TimerId, m.kernel.timers[id].enabled = true → m.kernel.timers[id].expiry ≠ m.kernel.now + 1) :
    (m.act .step).act .step = m.aged 1 := by
  have idles := (h.idles_of_idle sane (idling.idlesIn h sane patient)).2
  obtain ⟨hc, _, fresh⟩ := idling
  rw [fresh] at idles
  replace h := h.choosing hc
  obtain ⟨noEvent, noTick⟩ := (hasPending_eq_false_iff _).mp h.2
  have between : m.kernel.idled.Between m.suspensions := Idled.between ⟨_, _, _, rfl⟩ h.1
  have one : m.kernel.idled.pendingTicks = 1 := congrArg (· + 1) noTick
  have settled := settle_tick between noEvent one early
  have older : { m.kernel.idled with now := m.kernel.idled.now + 1, pendingTicks := 0 } = m.kernel.aged 1 := by
    simp only [idled, Kernel.aged, noTick, Nat.one_pos, decide_true, Bool.or_true]
    rfl
  rw [older] at settled
  rw [idles, act_settles rfl]
  simp only [run, settled, goto, Machine.aged, hc]

/-- Idle ticks, and what the dispatcher makes of each of them. -/
def idleRounds : Nat → List Act
  | 0 => []
  | n + 1 => idleRounds n ++ [.step, .step]

/-- As long as no timer is due, the processor idles, and nothing but time passes. -/
theorem play_idleRounds {acts : List Act} (idling : (play c acts).Idling) (n : Nat)
    (patient : (play c acts).kernel.processor.idleTicks + n ≤ maxIdleTicks) (early : (play c acts).kernel.NoneDue n) :
    play c (acts ++ idleRounds n) = (play c acts).aged n := by
  induction n with
  | zero =>
    rw [idleRounds, List.append_nil, Machine.aged, aged_zero]
  | succ n ih =>
    have before := ih (by omega) early.sooner
    have still := idling.aged n
    rw [← before] at still
    have round := still.round (orderly_play _).1 (sane_play _ still.not_ended)
    rw [before] at round
    rw [idleRounds, ← List.append_assoc, play_append, before]
    refine (round patient early.ne).trans ?_
    simp only [Machine.aged, aged_aged]

end Machine

end Rtos
