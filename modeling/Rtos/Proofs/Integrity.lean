import Mathlib.Data.Fintype.Sum
import Rtos.Proofs.Unwinding

/-!
# The integrity of the kernel

Whatever the application does, the kernel does not fall over its own feet: what it checks about itself is true whenever
it checks it, what it looks up is there, and what it counts stays within its range. Only where a deadlock is reported
does it stumble: the panic unwinds into the dispatcher, whose assertion on the interrupt mask then fails.

* `Kernel.InRange`: every place the kernel reads or writes exists.
* `Machine.Checks`: the states in which the kernel checks itself.
* `Machine.integral_play`: the main result.
* `Machine.deadlock_aborts`: a task that blocks is enough for the assertion to fail.
-/

namespace Rtos
set_option autoImplicit false

variable {c : Config}

/-! ## The row of slots -/

namespace SlotTable

variable {n m : Nat} {s : SlotTable n m} {holders : Table (Option (Fin n)) m}

/-- There is one slot for each task and each mutex, whatever the order. -/
theorem Laid.size_eq (h : s.Laid) : s.lockedBy.size = n + m := by
  let place : Fin n ⊕ Fin m → Fin s.lockedBy.size :=
    Sum.elim (fun t => ⟨s.taskSlot[t], h.taskSlot_lt t⟩) fun x => ⟨s.mutexSlot[x], h.mutexSlot_lt x⟩
  have injective : Function.Injective place := by
    rintro (t | x) (u | y) he <;> have he := congrArg Fin.val he
    · exact congrArg Sum.inl (h.taskSlot_inj he)
    · exact absurd he (h.taskSlot_ne_mutexSlot t y)
    · exact absurd he.symm (h.taskSlot_ne_mutexSlot u x)
    · exact congrArg Sum.inr (h.mutexSlot_inj he)
  have surjective : Function.Surjective place := by
    intro slot
    rcases h.slot_cases slot.isLt with ⟨t, ht⟩ | ⟨x, hx⟩
    · exact ⟨.inl t, Fin.ext ht.symm⟩
    · exact ⟨.inr x, Fin.ext hx.symm⟩
  have card := Fintype.card_of_bijective ⟨injective, surjective⟩
  rw [Fintype.card_sum, Fintype.card_fin, Fintype.card_fin, Fintype.card_fin] at card
  exact card.symm

/-- Whatever the row refers to is a slot of a row of the given length, and only tasks speak. -/
structure InRow (s : SlotTable n m) (length : Nat) : Prop where
  owners : s.owners.size = length
  lockedBy : s.lockedBy.size = length
  task : ∀ t : Fin n, s.taskSlot[t] < length
  mutex : ∀ x : Fin m, s.mutexSlot[x] < length
  locked : ∀ slot other, s.lockedBy.getD slot none = some other → other < length
  speaks : ∀ slot speaker, slot < length → s.spokesman? slot = some speaker → ∃ t, s.owners[speaker]? = some (.task t)

theorem Tracks.inRow (h : s.Tracks holders) (hl : s.Laid) : s.InRow (n + m) := by
  have size := hl.size_eq
  have task : ∀ t : Fin n, s.taskSlot[t] < n + m := fun t => size ▸ hl.taskSlot_lt t
  refine ⟨hl.size.symm.trans size, size, task, fun x => size ▸ hl.mutexSlot_lt x, fun slot other locked => ?_,
    fun slot speaker inside speaks => ?_⟩
  · have inside : slot < s.lockedBy.size := by
      by_contra outside
      simp [Nat.le_of_not_lt outside] at locked
    rcases hl.slot_cases inside with ⟨t, rfl⟩ | ⟨x, rfl⟩
    · rcases h.task t with free | own
      · cases free.symm.trans locked
      · cases own.symm.trans locked
        exact task t
    · rw [h.mutex x] at locked
      obtain ⟨t, _, rfl⟩ := Option.map_eq_some_iff.mp locked
      exact task t
  · obtain ⟨t, rfl, _⟩ := h.spokesman?_eq_some hl (size ▸ inside) speaks
    exact ⟨t, hl.owner_task t⟩

end SlotTable

/-! ## Ranges -/

namespace Kernel

variable {k l : Kernel c} {t : c.TaskId}

/-- Every place the kernel reads or writes exists, and its sums and products of sizes fit into 64 bits. -/
structure InRange (k : Kernel c) : Prop where
  pool : k.pool.size = c.queueBytes.toNat
  /-- The bytes of a slot lie in the buffer pool. -/
  slice : ∀ (q : c.QueueId) (slot : Nat), slot < capacity q →
    k.slotStart q slot + elementSize q ≤ k.pool.size ∧ k.pool.size < 2 ^ 63
  head : ∀ q : c.QueueId, k.rings[q].head < capacity q
  count : ∀ q : c.QueueId, k.rings[q].count ≤ capacity q
  sum : ∀ q : c.QueueId, k.rings[q].head + k.rings[q].count < 2 ^ 64
  tail : ∀ q : c.QueueId, k.tailSlot q < capacity q
  /-- Every event has a bit of its own in a word. -/
  event : ∀ event : c.EventId, event.val < 32
  /-- The timeout timers of the tasks lie in the timer pool, behind those of the application. -/
  timeout : c.userTimers + c.tasks.size = c.timerCount
  row : ∀ slots, k.schedule = .ceiling slots → slots.InRow c.slotEntries

theorem Pooled.inRange (h : k.Pooled) (accepted : c.Accepted) (hs : k.Scheduled) (small : c.queueBytes.toNat < 2 ^ 63) :
    k.InRange := by
  have size := h.size
  have stop : ∀ q : c.QueueId, k.rings[q].offset + capacity q * elementSize q ≤ k.pool.size := h.fit.inside
  refine ⟨size, fun q slot hslot => ⟨?_, size ▸ small⟩, h.fit.head, h.fit.count, fun q => ?_,
    fun q => Nat.mod_lt _ (accepted.queues q).2, fun event => Nat.lt_of_lt_of_le event.isLt accepted.events, ?_,
    fun slots schedule => ?_⟩
  · calc k.slotStart q slot + elementSize q
      _ ≤ k.slotStart q (capacity q) := slotStart_lt k q hslot
      _ ≤ k.pool.size := stop q
  · -- A queue has no more slots than the pool has bytes.
    have few : capacity q ≤ capacity q * elementSize q := Nat.le_mul_of_pos_right _ (accepted.queues q).1
    have := stop q
    have := h.fit.head q
    have := h.fit.count q
    omega
  · have := accepted.timers
    unfold Config.userTimers
    omega
  · have fits := hs.fits
    have agrees := hs.agrees
    rw [schedule] at fits agrees
    rw [accepted.slots fits.1]
    exact SlotTable.Tracks.inRow agrees fits.2.1

end Kernel

namespace Machine
open Kernel

variable {m m' : Machine c} {detour : Prop} {a : Act}

/-! ## Checks -/

/-- The kernel checks itself in a state: before the policy is asked, and when it is about to switch to another task. -/
inductive Checks (m : Machine c) : Kernel c → Prop
  | choosing (control : m.control = .choosing) : Checks m m.kernel
  | switching {t old : c.TaskId} {k : Kernel c} (control : m.control = .choosing)
      (chosen : choose m.kernel = .ok (some t) k)
    (running : k.running = some old) (other : t ≠ old) : Checks m { k with running := some t }
  | yielding {t old : c.TaskId} {k : Kernel c} {s : Suspension c} {reply : Option Value}
      (control : m.control = .application reply)
    (task : Nat) (yielded : perform (.yieldTo task) m.kernel = .ok (.handOver t s) k) (running : k.running = some old)
    (other : t ≠ old) : Checks m { k with running := some t }

theorem Orderly.checks (h : m.Orderly detour) (consistent : m.kernel.isConsistent = true) {k : Kernel c}
    (hk : m.Checks k) :
    k.isConsistent = true := by
  cases hk with
  | choosing control => exact consistent
  | switching control chosen running other =>
    replace h := h.choosing control
    obtain ⟨task, decision⟩ := h.1.scheduled.exists_decision
    cases (choose_eq h.1.scheduled decision).symm.trans chosen
    exact (isConsistent_refresh m.kernel).trans consistent
  | yielding control task yielded running other =>
    obtain ⟨t, _, ready, _⟩ := h.application control
    obtain ⟨rfl, _⟩ := (yieldTo_spec ready task).of_result yielded
    exact consistent

/-! ## Errors -/

theorem Call.invariantViolation_not_mem (call : Call) : .invariantViolation ∉ call.errors := by
  cases call <;> simp [Call.errors]

/-- The kernel itself never finds a check of its own violated. -/
theorem Cause.of_invariantViolation (h : m.Cause a (.fatal .invariantViolation)) :
    a = .move (.stop (.fatal .invariantViolation)) ∨ (m.control = .dispatching ∧
      ∃ timer : c.TimerId, m.kernel.timers[timer].effect = .user (.error .invariantViolation)) := by
  generalize he : Ending.fatal .invariantViolation = ending at h
  cases h with
  | stopped => exact .inl rfl
  | refused control call listed =>
    cases he
    exact absurd listed (Call.invariantViolation_not_mem call)
  | misplaced control call listed =>
    cases he
    exact absurd ((List.mem_cons.mp listed).resolve_left nofun) (Call.invariantViolation_not_mem call)
  | faulty control one faulty =>
    rcases faulty with ⟨timer, error, effect, rfl⟩ | ⟨_, _, _, _, _, rfl⟩
    · cases he
      exact .inr ⟨control, timer, effect⟩
    · cases he
  | collides | nested | late | starved => cases he

/-- No assertion about the interrupt mask fails. -/
theorem Cause.of_assertionFailed (h : m.Cause a .assertionFailed) :
    a = .move (.stop .assertionFailed) ∨ (m.control = .handling ∧ a = .move .beginInterrupt) := by
  generalize he : Ending.assertionFailed = ending at h
  cases h with
  | stopped => exact .inl rfl
  | nested control => exact .inr ⟨control, rfl⟩
  | faulty control one faulty => rcases faulty with ⟨_, _, _, rfl⟩ | ⟨_, _, _, _, _, rfl⟩ <;> cases he
  | starved control long => exact absurd he (by decide)
  | refused | misplaced | collides | late => cases he

/-! ## The result -/

/-- Interrupts are let through, and the code that is executed is that of the simulated processor. -/
theorem Orderly.unmasked (h : m.Orderly detour) (hn : ∀ ending, m.control ≠ .ended ending) :
    m.kernel.processor.masked = false ∧ m.kernel.processor.context ≠ .outside := by
  unfold Orderly at h
  split at h
  · exact ⟨h.unmasked, h.context_ne_outside⟩
  · exact ⟨h.1.unmasked, h.1.context_ne_outside⟩
  · obtain ⟨t, resumes⟩ := h
    exact ⟨resumes.between.unmasked, resumes.between.context_ne_outside⟩
  · obtain ⟨t, executes, context, _⟩ := h
    exact ⟨executes.owned.unmasked, by rw [context]; exact nofun⟩
  · obtain ⟨t, executes, ready, _⟩ := h
    exact ⟨executes.owned.unmasked, ready.inside⟩
  · obtain ⟨t, executes, context, _⟩ := h
    exact ⟨executes.owned.unmasked, by rw [context]; exact nofun⟩
  · next ending hc => exact absurd hc (hn ending)

theorem Plays.nears {x y : SemaphoreState} {part : Option Part} (h : Plays x y part) :
    Nears x.value.toNat y.value.toNat := by
  cases part with
  | none => exact .inl (congrArg (·.value.toNat) h)
  | some part =>
    cases part with
    | take =>
      obtain ⟨left, rfl⟩ := h
      exact .inr (.inr (toNat_sub_one left))
    | add =>
      obtain ⟨value, room, rfl⟩ := h
      exact .inr (.inl (SemaphoreState.posted?_eq_some room).1)
    | limit max =>
      obtain ⟨_, _, rfl⟩ := h
      exact .inl rfl

/-- The kernel of the machine is intact, and stays so in the next act. -/
structure Integral (m : Machine c) : Prop where
  checks : ∀ k, m.Checks k → k.isConsistent = true
  /-- The policy has an answer whenever it is asked. -/
  chooses : m.control = .choosing → ∃ task, choose m.kernel = .ok task m.kernel.refresh
  ranges : m.kernel.InRange
  /-- What is counted changes by at most one, so it neither wraps nor falls below zero. -/
  counts : ∀ a, (∀ ending, (m.act a).control ≠ .ended ending) →
    (∀ s : c.SemaphoreId, Nears m.kernel.semaphores[s].value.toNat (m.act a).kernel.semaphores[s].value.toNat) ∧
      ∀ q : c.QueueId, Nears m.kernel.rings[q].count (m.act a).kernel.rings[q].count
  unmasked : m.kernel.processor.masked = false ∧ m.kernel.processor.context ≠ .outside
  causes : ∀ a ending, (m.act a).control = .ended ending → m.Cause a ending
  /-- Only the application can end the run as if a check had failed: itself, or by a timer. -/
  violations : ∀ a, (m.act a).control = .ended (.fatal .invariantViolation) →
    a = .move (.stop (.fatal .invariantViolation)) ∨ (m.control = .dispatching ∧
      ∃ timer : c.TimerId, m.kernel.timers[timer].effect = .user (.error .invariantViolation))
  /-- Only an interrupt within an interrupt handler makes an assertion about the processor fail. -/
  assertions : ∀ a, (m.act a).control = .ended .assertionFailed →
    a = .move (.stop .assertionFailed) ∨ (m.control = .handling ∧ a = .move .beginInterrupt)
  /-- Nor does one fail while a panic unwinds the stack, unless it is the report of a deadlock: how the run ends is what
  the starter is told. -/
  told : ∀ a ending, (m.act a).control = .ended ending → ¬ m.Reports a → (m.act a).notice? = some ending.notice

theorem integral_of_not_ended (small : c.queueBytes.toNat < 2 ^ 63) {acts : List Act}
    (hn : ∀ ending, (play c acts).control ≠ .ended ending) : (play c acts).Integral := by
  obtain ⟨orderly, timers⟩ := orderly_play (c := c) acts
  have sane := sane_play acts hn
  have causes : ∀ a ending, ((play c acts).act a).control = .ended ending → (play c acts).Cause a ending := by
    intro a ending control
    rcases outcome_play acts hn a with ⟨alive, _⟩ | ⟨ending', control', cause⟩
    · exact absurd control (alive ending)
    · cases control.symm.trans control'
      exact cause
  refine ⟨fun k hk => orderly.checks sane.consistent hk, fun hc => ?_,
    (pooled_play acts hn).inRange sane.accepted (orderly.scheduled hn) small, fun a alive => ⟨fun s => ?_, ?_⟩,
    orderly.unmasked hn, causes, fun a control => (causes a _ control).of_invariantViolation,
    fun a control => (causes a _ control).of_assertionFailed, fun a ending => told_play acts hn⟩
  · obtain ⟨task, decision⟩ := (orderly.scheduled hn).exists_decision
    exact ⟨task, choose_eq (orderly.scheduled hn) decision⟩
  · exact ((orderly.supply timers a).plays alive s).nears
  · exact ((orderly.effect timers a).pooled alive (pooled_play acts hn)).2

/-- Whatever the tasks do and whenever the interrupts come: a configuration is refused as invalid or not at all, and
from then on the kernel is intact until the run is over. Its assertions on the interrupt mask never fail either, unless
the run ends with the report of a deadlock. In this case one does, just if the report interrupts the wait of a task
while a task switch is due. -/
theorem integral_play (c : Config) (small : c.queueBytes.toNat < 2 ^ 63) (acts : List Act) :
    (∀ ending, (boot c).control = .ended ending → ending = .fatal .invalidConfig) ∧
      ((∀ ending, (play c acts).control ≠ .ended ending) → (play c acts).Integral) ∧
      ∀ a, (play c acts).Reports a → (play c acts).Unwinds a := by
  refine ⟨?_, integral_of_not_ended small, fun a => unwinds_of_reports⟩
  refine run_of_ends (P := fun m => ∀ ending, m.control = .ended ending → ending = .fatal .invalidConfig)
    (boot_accepts rfl rfl)
    (fun _ l hl => nofun) fun ending l refused ending' he => ?_
  cases he
  exact refused

/-- The most urgent task locks a mutex and waits for a token, so the policy is to be asked again. -/
def lockAndWait : List Act :=
  [.step, .step, .step, .step, .move (.call (.lock 1 .forever)), .step, .move (.call (.wait 0 .forever)), .step]

theorem integral_lockAndWait :
    (play (Showcase.full .ceiling).scenario.config lockAndWait).control = .choosing ∧
      (play (Showcase.full .ceiling).scenario.config lockAndWait).kernel.isConsistent = true ∧
      (∃ task, choose (play (Showcase.full .ceiling).scenario.config lockAndWait).kernel =
        .ok task (play (Showcase.full .ceiling).scenario.config lockAndWait).kernel.refresh) ∧
      (play (Showcase.full .ceiling).scenario.config lockAndWait).kernel.InRange := by
  have here : (play (Showcase.full .ceiling).scenario.config lockAndWait).control = .choosing := by decide +kernel
  have integral := (integral_play (Showcase.full .ceiling).scenario.config (by decide +kernel) lockAndWait).2.1
    fun ending he => by cases here.symm.trans he
  exact ⟨here, integral.checks _ (.choosing here), integral.chooses here, integral.ranges⟩

/-- The only task blocks, so a deadlock is reported. While the report unwinds the stack, the assertion on the interrupt
mask fails, and the host gives up the process. -/
theorem deadlock_aborts : (play lone (blocked ++ idleRounds maxIdleTicks)).Reports .step ∧
    (∃ l, release (play lone (blocked ++ idleRounds maxIdleTicks ++ [.step])).kernel = .error .assertionFailed l) ∧
    (play lone (blocked ++ idleRounds maxIdleTicks ++ [.step])).notice? = some .aborted := by
  have played := play_idleRounds idling_blocked maxIdleTicks (by decide +kernel) (by decide +kernel)
  have running : (play lone (blocked ++ idleRounds maxIdleTicks)).kernel.running = some ⟨0, by decide⟩ := by
    rw [played]
    decide +kernel
  have due : (play lone (blocked ++ idleRounds maxIdleTicks)).kernel.preemptPending = true := by
    rw [played]
    exact Bool.or_true _
  rw [play_concat]
  exact ⟨reports_blocked, (unwinds_of_reports reports_blocked).aborts _ running due⟩

end Machine

end Rtos
