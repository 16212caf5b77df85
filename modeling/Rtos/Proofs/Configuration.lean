import Mathlib.Tactic.MkIffOfInductiveProp
import Rtos.Proofs.Kernel.Acceptance
import Rtos.Proofs.Sanity
import Rtos.Showcase

/-!
# Valid configurations

* `Config.Valid`: what a configuration needs to be started. The sizes of the queues are added up exactly, without a
  limit.
* `Kernel.Undispatched`: no task was dispatched.
* `boot_judges`: the kernel starts a configuration that is valid, and refuses one that is not.
* `Kernel.Consecutive`: the rings of the queues lie one after the other in the buffer pool.
* `boot_starts_exactly_valid`: a run gets to the dispatcher if the configuration is valid, with the rings laid out one
  after the other; otherwise it ends before any task was dispatched, and the configuration is to blame.
-/

namespace Rtos
set_option autoImplicit false

variable {c : Config}

/-- The number of bytes a queue needs, however large it is. -/
def QueueAttr.bytes (attr : QueueAttr) : Nat := attr.elementSize.toNat * attr.length.toNat

/-- The task a timer signals. -/
def TimerAction.target? : TimerAction → Option Nat
  | .signal task _ => some task
  | .none | .error _ => Option.none

namespace Config

/-- The number of bytes the first queues need together. -/
def bytesBefore (c : Config) (count : Nat) : Nat :=
  (c.queues.toList.take count).foldl (fun bytes queue => bytes + queue.bytes) 0

/-- What a configuration needs to be started. -/
@[mk_iff]
structure Valid (c : Config) : Prop where
  events : c.events.size ≤ 32
  aimed : ∀ event : c.EventId, (c.eventAction event).task < c.tasks.size
  semaphores : ∀ s : c.SemaphoreId, ∀ max ∈ (c.semaphoreAttr s).max, max ≠ 0 ∧ (c.semaphoreAttr s).initial ≤ max
  queues : ∀ q : c.QueueId, (c.queueAttr q).elementSize ≠ 0 ∧ (c.queueAttr q).length ≠ 0
  room : c.bytesBefore c.queues.size ≤ c.queueBytes.toNat
  timers : c.tasks.size ≤ c.timerCount
  /-- The timers the application can name signal tasks that exist. -/
  signalled : ∀ timer : Fin c.timers.size, timer.val < c.userTimers → ∀ task ∈ c.timers[timer].action.target?,
    task < c.tasks.size
  slots : c.policy = .ceiling → c.slotEntries = c.tasks.size + c.mutexes.size
  ceilings : c.policy = .ceiling → ∀ x : c.MutexId, ∃ task ∈ (c.mutexAttr x).ceiling, task < c.tasks.size

-- The maximum of a semaphore is looked up: it takes too long to try all numbers.
instance (c : Config) (s : c.SemaphoreId) :
    Decidable (∀ max ∈ (c.semaphoreAttr s).max, max ≠ 0 ∧ (c.semaphoreAttr s).initial ≤ max) :=
      Option.decidableForallMem _

instance (c : Config) : Decidable c.Valid := decidable_of_iff _ (valid_iff c).symm

theorem bytesBefore_succ (q : c.QueueId) : c.bytesBefore (q + 1) = c.bytesBefore q + (c.queueAttr q).bytes := by
  have inside : q.val < c.queues.toList.length := q.isLt
  rw [bytesBefore, List.take_succ_eq_append_getElem inside, List.foldl_append]
  rfl

theorem le_foldl_bytes (queues : List QueueAttr) (bytes : Nat) :
    bytes ≤ queues.foldl (fun bytes queue => bytes + queue.bytes) bytes := by
  induction queues generalizing bytes with
  | nil => exact Nat.le_refl bytes
  | cons queue queues ih => exact Nat.le_trans (Nat.le_add_right bytes queue.bytes) (ih _)

theorem bytesBefore_le {i j : Nat} (h : i ≤ j) : c.bytesBefore i ≤ c.bytesBefore j := by
  obtain ⟨n, rfl⟩ := Nat.exists_eq_add_of_le h
  rw [bytesBefore, bytesBefore, List.take_add, List.foldl_append]
  exact le_foldl_bytes _ _

/-- No queue of a valid configuration reaches beyond the buffer pool. -/
theorem Valid.bytesBefore_le (h : c.Valid) (q : c.QueueId) : c.bytesBefore (q + 1) ≤ c.queueBytes.toNat :=
  Nat.le_trans (Config.bytesBefore_le q.isLt) h.room

end Config

namespace Kernel

variable {k l : Kernel c}

/-! ## Before the first task -/

/-- No task was dispatched: the boot thread still runs, and it is the only one. -/
structure Undispatched (k : Kernel c) : Prop where
  running : k.running = none
  thread : k.processor.thread = none
  context : k.processor.context = .boot
  workers : ∀ t : c.TaskId, k.processor.workers[t] = none
  group : k.processor.group = .booted

theorem Undispatched.initial (c : Config) : Undispatched { Kernel.initial c with processor := { context := .boot } } :=
  ⟨rfl, rfl, rfl, fun _ => Table.getElem_replicate .., rfl⟩

theorem Undispatched.of_seats (h : k.Undispatched) (running : l.running = k.running)
    (context : l.processor.context = k.processor.context) (seats : l.processor.seats = k.processor.seats) :
    l.Undispatched := by
  simp only [Processor.seats, Prod.mk.injEq] at seats
  obtain ⟨thread, workers, group⟩ := seats
  refine ⟨running.trans h.running, thread.trans h.thread, context.trans h.context, fun t => ?_, group.trans h.group⟩
  rw [workers]
  exact h.workers t

/-- The configuration is refused, and it is not valid. -/
def refused (ending : Ending) (k : Kernel c) : Prop :=
  ending = .fatal .invalidConfig ∧ ¬ c.Valid ∧ k.Undispatched

theorem Undispatched.refused (h : k.Undispatched) (hv : ¬ c.Valid) : refused (.fatal .invalidConfig) k := ⟨rfl, hv, h⟩

/-! ## What is judged -/

theorem semaphoreFits_iff (attr : SemaphoreAttr) :
    semaphoreFits attr = true ↔ ∀ max ∈ attr.max, max ≠ 0 ∧ attr.initial ≤ max := by
  unfold semaphoreFits
  cases attr.max <;> simp

theorem hasCeiling_iff (attr : MutexAttr) : hasCeiling c attr = true ↔ ∃ task ∈ attr.ceiling, task < c.tasks.size := by
  unfold hasCeiling
  cases attr.ceiling <;> simp

/-- The ring of a queue that starts at `offset` fits into the pool exactly if the exact sum does. -/
theorem ringEnd?_eq_none {attr : QueueAttr} {offset : UInt64} (h : ringEnd? c attr offset = none) :
    c.queueBytes.toNat < offset.toNat + attr.bytes := by
  have pool : c.queueBytes.toNat < UInt64.size := c.queueBytes.toNat_lt
  rw [QueueAttr.bytes]
  -- Where a product or a sum does not fit into a word, it does not fit into the pool either.
  by_cases product : attr.elementSize.toNat * attr.length.toNat < UInt64.size
  · have exact : (attr.elementSize * attr.length).toNat = attr.elementSize.toNat * attr.length.toNat := by
      rw [UInt64.toNat_mul, Nat.mod_eq_of_lt product]
    by_cases sum : offset.toNat + attr.elementSize.toNat * attr.length.toNat < UInt64.size
    · have stop : (offset + attr.elementSize * attr.length).toNat =
          offset.toNat + attr.elementSize.toNat * attr.length.toNat := by
        rw [UInt64.toNat_add, exact, Nat.mod_eq_of_lt sum]
      simp only [ringEnd?, Size.mul?, Size.add?, if_pos product, exact, if_pos sum, Option.bind_eq_bind,
        Option.bind_some, ite_eq_right_iff, reduceCtorEq, imp_false, UInt64.le_iff_toNat_le, stop, Nat.not_le] at h
      exact h
    · omega
  · omega

/-! ## Events and semaphores -/

theorem checkEvents_judges (h : k.Undispatched) :
    Ends checkEvents k (fun _ l => l = k ∧ c.events.size ≤ 32 ∧ c.Aimed) refused := by
  simp only [checkEvents, ends_bind, ends_ite, ends_fail, ends_pure]
  refine ⟨fun many => h.refused fun v => absurd v.events (Nat.not_le_of_lt many),
    fun few => ⟨fun astray => ?_, fun aimed => ?_⟩⟩
  · obtain ⟨event, hi, target⟩ := Array.any_eq_true.mp astray
    exact h.refused fun v => absurd (v.aimed ⟨event, hi⟩) (Nat.not_lt_of_le (of_decide_eq_true target))
  · refine ⟨trivial, Nat.le_of_not_lt few, fun event => ?_⟩
    have target := Array.any_eq_false.mp (Bool.eq_false_iff.mpr aimed) event event.isLt
    exact Nat.lt_of_not_le fun hn => target (decide_eq_true hn)

theorem checkSemaphores_judges (h : k.Undispatched) : Ends checkSemaphores k
    (fun _ l => l = k ∧ ∀ s : c.SemaphoreId, ∀ max ∈ (c.semaphoreAttr s).max, max ≠ 0 ∧
      (c.semaphoreAttr s).initial ≤ max)
    refused := by
  simp only [checkSemaphores, ends_ite, ends_fail, ends_pure]
  refine ⟨fun unfit => ?_, fun fits => ⟨trivial, fun s => ?_⟩⟩
  · obtain ⟨s, hi, unfit⟩ := Array.any_eq_true.mp unfit
    refine h.refused fun v => ?_
    have fit : semaphoreFits (c.semaphoreAttr ⟨s, hi⟩) = true := (semaphoreFits_iff _).mpr (v.semaphores ⟨s, hi⟩)
    rw [show c.semaphores[s] = c.semaphoreAttr ⟨s, hi⟩ from rfl, fit] at unfit
    cases unfit
  · have fit := Array.any_eq_false.mp (Bool.eq_false_iff.mpr fits) s s.isLt
    simp only [Bool.not_eq_true', Bool.not_eq_false] at fit
    exact (semaphoreFits_iff _).mp fit

/-! ## Queues -/

/-- The rings of the first queues are laid out one after the other, up to the given offset. -/
structure Chained (count : Nat) (offset : UInt64) (k : Kernel c) : Prop where
  stop : offset.toNat = c.bytesBefore count
  fits : offset.toNat ≤ c.queueBytes.toNat
  sized : ∀ q : c.QueueId, q.val < count → (c.queueAttr q).elementSize ≠ 0 ∧ (c.queueAttr q).length ≠ 0
  starts : ∀ q : c.QueueId, q.val < count → k.rings[q].offset = c.bytesBefore q

theorem Chained.placed {offset stop : UInt64} {q : c.QueueId} (h : k.Chained q offset)
    (sized : (c.queueAttr q).elementSize ≠ 0 ∧ (c.queueAttr q).length ≠ 0)
    (hs : ringEnd? c (c.queueAttr q) offset = some stop) :
    (k.placed q offset).Chained (q + 1) stop := by
  obtain ⟨hstop, hfits⟩ := ringEnd?_eq_some hs
  refine ⟨?_, hfits, fun q' hq => ?_, fun q' hq => ?_⟩
  · rw [hstop, h.stop, Config.bytesBefore_succ, QueueAttr.bytes, Nat.mul_comm]
  · rcases Nat.lt_succ_iff_lt_or_eq.mp hq with hq | hq
    · exact h.sized q' hq
    · exact Fin.ext hq ▸ sized
  · rcases Nat.lt_succ_iff_lt_or_eq.mp hq with hq | hq
    · rw [k.ring_placed_ne offset (Fin.ne_of_lt hq)]
      exact h.starts q' hq
    · rw [Fin.ext hq, ring_placed_self]
      exact h.stop

theorem Chained.of_rings {count : Nat} {offset : UInt64} (h : k.Chained count offset) (hr : l.rings = k.rings) :
    l.Chained count offset where
  stop := h.stop
  fits := h.fits
  sized := h.sized
  starts q hq := by
    rw [hr]
    exact h.starts q hq

theorem layOutQueue_judges {offset : UInt64} {q : c.QueueId} (h : k.Undispatched) (hc : k.Chained q offset) :
    Ends (layOutQueue offset q) k (fun stop l => l.Undispatched ∧ l.schedule = k.schedule ∧ l.Chained (q + 1) stop)
      refused := by
  have placed : ∀ rings, Undispatched { k with rings := rings } := fun _ => h.of_seats rfl rfl rfl
  simp only [layOutQueue, ends_bind, ends_ite, ends_fail, ends_modify]
  refine ⟨fun empty => h.refused fun v => empty.elim (v.queues q).1 (v.queues q).2, fun sized => ?_⟩
  split
  · next stop hs => exact ⟨placed _, rfl, hc.placed (not_or.mp sized) hs⟩
  · next hs =>
    refine (placed _).refused fun v => ?_
    have beyond := ringEnd?_eq_none hs
    rw [hc.stop, ← Config.bytesBefore_succ] at beyond
    exact absurd (v.bytesBefore_le q) (Nat.not_le_of_lt beyond)

/-- The position of a queue in the list of all queues. -/
theorem length_of_finRange {n : Nat} {done rest : List (Fin n)} {i : Fin n} (h : List.finRange n = done ++ i :: rest) :
    done.length = i.val := by
  have inside : done.length < (List.finRange n).length := by simp [h]
  have here : (List.finRange n)[done.length] = i := by simp [h]
  rw [List.getElem_finRange] at here
  exact congrArg Fin.val here

theorem layOutQueues_judges (h : k.Undispatched) : Ends layOutQueues k
    (fun _ l => l.Undispatched ∧ l.schedule = k.schedule ∧ ∃ stop, l.Chained c.queues.size stop) refused := by
  have start : k.Undispatched ∧ k.schedule = k.schedule ∧ k.Chained 0 0 := ⟨h, rfl, rfl, Nat.zero_le _, nofun, nofun⟩
  refine Ends.bind (Ends.foldlM (I := fun done stop l => l.Undispatched ∧ l.schedule = k.schedule ∧
    l.Chained done.length stop)
    _ (fun done q rest he offset l hl => ?_) 0 k start) fun stop l hl => ?_
  · obtain ⟨undispatched, schedule, chained⟩ := hl
    rw [length_of_finRange he] at chained
    rw [List.length_append, List.length_singleton, length_of_finRange he]
    exact (layOutQueue_judges undispatched chained).mono (fun _ _ hm => ⟨hm.1, hm.2.1.trans schedule, hm.2.2⟩)
      fun _ _ hb => hb
  · obtain ⟨undispatched, schedule, chained⟩ := hl
    rw [List.length_finRange] at chained
    exact ⟨undispatched, schedule, stop, chained⟩

/-! ## The schedule, tasks and timers -/

theorem prepareSchedule_judges (h : k.Undispatched) (hk : k.schedule = Schedule.initial c) :
    Ends prepareSchedule k (fun _ l => (l.Undispatched ∧ l.rings = k.rings) ∧
      (c.policy = .ceiling → c.slotEntries = c.tasks.size + c.mutexes.size ∧
        ∀ x : c.MutexId, ∃ task ∈ (c.mutexAttr x).ceiling, task < c.tasks.size)) refused := by
  have prepared : ∀ schedule, Undispatched { k with schedule := schedule } := fun _ => h.of_seats rfl rfl rfl
  refine (ends_bind _ _).mpr (ends_get.mpr ?_)
  cases hp : c.policy <;> rw [hk, Schedule.initial, hp]
  · exact ⟨⟨h, rfl⟩, by rintro ⟨⟩⟩
  · simp only [ends_bind, ends_ite, ends_fail, ends_modify]
    refine ⟨fun few => h.refused fun v => few (v.slots hp), fun room => ⟨fun unbound => ?_, fun bound => ?_⟩⟩
    · obtain ⟨x, hi, unbound⟩ := Array.any_eq_true.mp unbound
      refine h.refused fun v => ?_
      have ceiling : hasCeiling c (c.mutexAttr ⟨x, hi⟩) = true := (hasCeiling_iff _).mpr (v.ceilings hp ⟨x, hi⟩)
      rw [show c.mutexes[x] = c.mutexAttr ⟨x, hi⟩ from rfl, ceiling] at unbound
      cases unbound
    · refine ⟨⟨prepared _, trivial⟩, fun _ => ⟨Classical.not_not.mp room, fun x => ?_⟩⟩
      have ceiling := Array.any_eq_false.mp (Bool.eq_false_iff.mpr bound) x x.isLt
      simp only [Bool.not_eq_true', Bool.not_eq_false] at ceiling
      exact (hasCeiling_iff _).mp ceiling
  · exact ⟨⟨prepared _, rfl⟩, by rintro ⟨⟩⟩

theorem prepareTask_judges (h : k.Undispatched) (task : c.TaskId) :
    Ends (prepareTask task) k (fun _ l => l.Undispatched ∧ l.rings = k.rings) refused := by
  have inside : k.processor.context ≠ .outside := by
    rw [h.context]
    exact nofun
  simp only [prepareTask, ends_bind, ends_get, ends_ite, ends_throw, ends_set, ends_modify, ends_pure]
  refine ⟨fun outside => absurd outside inside, fun _ => ⟨fun _ => ?_, fun _ => ?_⟩⟩
  · exact ⟨h.of_seats rfl rfl rfl, rfl⟩
  · exact ⟨h.of_seats rfl rfl rfl, trivial⟩

/-- A timer is refused only if it signals a task that does not exist. -/
theorem prepareTimer_judges (h : k.Undispatched) {timer : Nat} (user : timer < c.userTimers) :
    Ends (prepareTimer timer) k
    (fun _ l => (l.Undispatched ∧ l.rings = k.rings) ∧
      ∀ hi : timer < c.timers.size, ∀ task ∈ c.timers[timer].action.target?, task < c.tasks.size) refused := by
  refine (ends_bind _ _).mpr ((ends_timerId timer).mpr ⟨fun _ => ?_, fun hn => absurd user hn⟩)
  rw [ends_dite]
  refine ⟨fun hi => ?_, fun out => ⟨⟨h, rfl⟩, fun hi => absurd hi out⟩⟩
  have enabled : ∀ id : c.TimerId, (∀ task ∈ c.timers[timer].action.target?, task < c.tasks.size) →
      Ends (if c.timers[timer].enabled = true then modify (·.startTimer id) else pure ()) k
        (fun _ l => (l.Undispatched ∧ l.rings = k.rings) ∧
          ∀ hi : timer < c.timers.size, ∀ task ∈ c.timers[timer].action.target?, task < c.tasks.size) refused := by
    intro id ht
    rw [ends_ite]
    exact ⟨fun _ => ⟨⟨h.of_seats rfl rfl rfl, rfl⟩, fun _ => ht⟩, fun _ => ⟨⟨h, rfl⟩, fun _ => ht⟩⟩
  simp only [Fin.getElem_fin]
  cases action : c.timers[timer].action with
  | signal target set =>
    have target? : c.timers[timer].action.target? = some target := by
      rw [action]
      rfl
    rw [ends_ite]
    refine ⟨fun astray => h.refused fun v => ?_, fun inside => enabled _ fun task ht => ?_⟩
    · exact absurd (v.signalled ⟨timer, hi⟩ user target target?) (Nat.not_lt_of_le astray)
    · rw [target?] at ht
      exact Option.mem_some.mp ht ▸ Nat.lt_of_not_le inside
  | none | error =>
    refine enabled _ fun task ht => ?_
    rw [action] at ht
    cases ht

theorem prepareTimers_judges (h : k.Undispatched) :
    Ends prepareTimers k (fun _ l => (l.Undispatched ∧ l.rings = k.rings) ∧
    c.tasks.size ≤ c.timerCount ∧ ∀ timer : Fin c.timers.size, timer.val < c.userTimers →
      ∀ task ∈ c.timers[timer].action.target?, task < c.tasks.size) refused := by
  simp only [prepareTimers, ends_bind, ends_ite, ends_fail]
  refine ⟨fun few => h.refused fun v => absurd v.timers (Nat.not_le_of_lt few), fun room => ?_⟩
  have start : ∀ timer : Fin c.timers.size, timer.val ∈ ([] : List Nat) → ∀ task ∈ c.timers[timer].action.target?,
      task < c.tasks.size := fun _ hm => absurd hm List.not_mem_nil
  refine (Ends.forM_of_prefix (I := fun done l => (l.Undispatched ∧ l.rings = k.rings) ∧
      ∀ timer : Fin c.timers.size, timer.val ∈ done → ∀ task ∈ c.timers[timer].action.target?, task < c.tasks.size)
    _ (fun done timer rest he l hl => ?_) k ⟨⟨h, rfl⟩, start⟩).mono (fun _ l hl => ?_) fun _ _ hb => hb
  · have user : timer < c.userTimers := List.mem_range.mp (he ▸ List.mem_append_right done List.mem_cons_self)
    refine (prepareTimer_judges hl.1.1 user).mono (fun _ m hm => ?_) fun _ _ hb => hb
    refine ⟨⟨hm.1.1, hm.1.2.trans hl.1.2⟩, fun other ho => ?_⟩
    rcases List.mem_append.mp ho with ho | ho
    · exact hl.2 other ho
    · obtain rfl := List.mem_singleton.mp ho
      exact hm.2 other.isLt
  · exact ⟨hl.1, Nat.le_of_not_lt room, fun timer user => hl.2 timer (List.mem_range.mpr user)⟩

/-! ## All of it -/

/-- The kernel starts a configuration that is valid, and refuses one that is not. -/
theorem boot_judges (h : k.Undispatched) (hk : k.schedule = Schedule.initial c) :
    Ends boot k (fun _ l => c.Valid ∧ l.Undispatched ∧ ∀ q : c.QueueId, l.rings[q].offset = c.bytesBefore q)
      refused := by
  refine Ends.bind (checkEvents_judges h) fun _ l hl => ?_
  obtain ⟨rfl, events, aimed⟩ := hl
  refine Ends.bind (checkSemaphores_judges h) fun _ l' hl => ?_
  obtain ⟨rfl, semaphores⟩ := hl
  refine Ends.bind (layOutQueues_judges h) fun _ l₁ h₁ => ?_
  obtain ⟨h₁, schedule, stop, chained⟩ := h₁
  refine Ends.bind (prepareSchedule_judges h₁ (schedule.trans hk)) fun _ l₂ h₂ => ?_
  obtain ⟨⟨h₂, rings₂⟩, bound⟩ := h₂
  have tasks : Ends ((List.finRange c.tasks.size).forM prepareTask) l₂ (fun _ l => l.Undispatched ∧ l.rings = l₁.rings)
      refused :=
    Ends.forM (I := fun l => l.Undispatched ∧ l.rings = l₁.rings) _ (fun task _ l hl =>
      (prepareTask_judges hl.1 task).mono (fun _ _ hm => ⟨hm.1, hm.2.trans hl.2⟩) fun _ _ hb => hb) l₂ ⟨h₂, rings₂⟩
  refine Ends.bind tasks fun _ l₃ h₃ => ?_
  refine (prepareTimers_judges h₃.1).mono (fun _ m hm => ?_) fun _ _ hb => hb
  obtain ⟨⟨undispatched, rings⟩, timers, signalled⟩ := hm
  have final : m.Chained c.queues.size stop := chained.of_rings (rings.trans h₃.2)
  have room : c.bytesBefore c.queues.size ≤ c.queueBytes.toNat := final.stop ▸ final.fits
  exact ⟨⟨events, aimed, semaphores, fun q => final.sized q q.isLt, room, timers, signalled, fun hp => (bound hp).1,
    fun hp => (bound hp).2⟩, undispatched, fun q => final.starts q q.isLt⟩

/-! ## The layout of the rings -/

/-- The rings of the queues lie one after the other, from the begin of the buffer pool on. -/
structure Consecutive (k : Kernel c) : Prop where
  first : ∀ q : c.QueueId, q.val = 0 → k.rings[q].offset = 0
  next : ∀ q q' : c.QueueId, q'.val = q.val + 1 → k.rings[q'].offset = k.ringStop q
  /-- No two of them share a byte. -/
  apart : ∀ q q' : c.QueueId, q < q' → k.ringStop q ≤ k.rings[q'].offset
  inside : ∀ q : c.QueueId, k.ringStop q ≤ k.pool.size

theorem ringStop_of_starts (h : ∀ q : c.QueueId, k.rings[q].offset = c.bytesBefore q) (q : c.QueueId) :
    k.ringStop q = c.bytesBefore (q + 1) := by
  rw [ringStop, slotStart, h, Config.bytesBefore_succ, QueueAttr.bytes, Nat.mul_comm]
  rfl

theorem consecutive_of_starts (h : ∀ q : c.QueueId, k.rings[q].offset = c.bytesBefore q) (fit : k.RingsFit) :
    k.Consecutive where
  first q hq := by rw [h, hq, Config.bytesBefore, List.take_zero, List.foldl_nil]
  next q q' hq := by rw [h, hq, ringStop_of_starts h]
  apart q q' hq := by
    rw [h, ringStop_of_starts h]
    exact Config.bytesBefore_le hq
  inside := fit.inside

end Kernel

namespace Machine

open Kernel

/-- A run gets to the dispatcher exactly if its configuration is valid, and then the rings of the queues lie one after
the other in the buffer pool. If it is not, the run ends as that of an invalid configuration before any task was
dispatched. -/
theorem boot_starts_exactly_valid (c : Config) :
    (c.Valid → (boot c).control = .dispatching ∧ (boot c).kernel.Undispatched ∧ (boot c).kernel.Consecutive ∧
      (boot c).kernel.pool.size = c.queueBytes.toNat) ∧
    (¬ c.Valid → ∀ acts, (play c acts).control = .ended (.fatal .invalidConfig) ∧
      (play c acts).kernel.Undispatched) := by
  have judged : Ends Kernel.boot (initial c).kernel
      (fun _ l => (c.Valid ∧ l.Undispatched ∧ ∀ q : c.QueueId, l.rings[q].offset = c.bytesBefore q) ∧ l.Pooled)
        refused := by
    refine ((boot_judges (.initial c) rfl).and ((boot_accepts rfl rfl).and (boot_ringsFit rfl rfl))).mono
      (fun _ l hl => ?_)
      fun _ _ hb => hb.1
    obtain ⟨judged, ⟨_, booting, _⟩, fit, _⟩ := hl
    exact ⟨judged, fit, (congrArg Array.size booting.pool).trans Array.size_replicate⟩
  have outcome : (c.Valid ∧ (boot c).control = .dispatching ∧ (boot c).kernel.Undispatched ∧
      (boot c).kernel.Consecutive ∧
        (boot c).kernel.pool.size = c.queueBytes.toNat) ∨
      (¬ c.Valid ∧ (boot c).control = .ended (.fatal .invalidConfig) ∧ (boot c).kernel.Undispatched) := by
    refine run_of_ends (P := fun m => (c.Valid ∧ m.control = .dispatching ∧ m.kernel.Undispatched ∧
      m.kernel.Consecutive ∧
      m.kernel.pool.size = c.queueBytes.toNat) ∨ (¬ c.Valid ∧ m.control = .ended (.fatal .invalidConfig) ∧
        m.kernel.Undispatched)) judged (fun _ l hl => ?_) fun ending l hl => ?_
    · obtain ⟨⟨valid, undispatched, starts⟩, fit, pool⟩ := hl
      exact .inl ⟨valid, rfl, undispatched, consecutive_of_starts starts fit, pool⟩
    · obtain ⟨rfl, invalid, undispatched⟩ := hl
      exact .inr ⟨invalid, rfl, undispatched⟩
  rcases outcome with ⟨valid, started⟩ | ⟨invalid, ended, undispatched⟩
  · exact ⟨fun _ => started, fun invalid => absurd valid invalid⟩
  · refine ⟨fun valid => absurd valid invalid, fun _ acts => ?_⟩
    have kept : play c acts = boot c := play_ended (show (play c []).control = _ from ended) acts
    rw [kept]
    exact ⟨ended, undispatched⟩

/-- The showcase is started. A queue of `2 ^ 64` bytes is refused, although its size and that of the pool agree in 64
bits. -/
theorem boot_starts_exactly_valid_showcase :
    (boot (Showcase.full .ceiling).scenario.config).control = .dispatching ∧
      ∀ acts, (play (Declarations.config { policy := .strict, queues := #[⟨9223372036854775808, 2⟩] }) acts).control =
        .ended (.fatal .invalidConfig) :=
  ⟨((boot_starts_exactly_valid _).1 (by decide +kernel)).1,
    fun acts => ((boot_starts_exactly_valid _).2 (by decide +kernel) acts).1⟩

end Machine

end Rtos
