import Rtos.Proofs.Kernel.Boot
import Rtos.Proofs.Kernel.Failure

/-!
# What it takes to be accepted

* `Config.Accepted`: what is known of a configuration that is accepted.
* `boot_accepts`: the kernel either refuses a configuration as invalid or accepts it. In the latter case the entries of
  all tasks are known, no time has passed, and the semaphores are as they were configured.
-/

namespace Rtos
set_option autoImplicit false

variable {c : Config}

/-- What is known of a configuration that is accepted. -/
structure Config.Accepted (c : Config) : Prop where
  /-- Every event has a bit in a word. -/
  events : c.events.size ≤ maxEvents
  aimed : c.Aimed
  semaphores : ∀ s : c.SemaphoreId, Kernel.semaphoreFits (c.semaphoreAttr s) = true
  queues : ∀ q : c.QueueId, 0 < Kernel.elementSize q ∧ 0 < Kernel.capacity q
  slots : c.policy = .ceiling → c.slotEntries = c.tasks.size + c.mutexes.size
  timers : c.tasks.size ≤ c.timerCount

namespace Kernel

variable {k l : Kernel c}

/-- A configuration is refused. -/
def refusal (ending : Ending) (_ : Kernel c) : Prop := ending = .fatal .invalidConfig

theorem checkEvents_accepts :
    Ends checkEvents k (fun _ l => l = k ∧ c.events.size ≤ maxEvents ∧ c.Aimed) refusal := by
  simp only [checkEvents, ends_bind, ends_ite, ends_fail, ends_pure]
  refine ⟨fun _ => rfl, fun few => ⟨fun _ => rfl, fun aimed => ⟨trivial, Nat.le_of_not_lt few, fun event => ?_⟩⟩⟩
  have target := Array.any_eq_false.mp (Bool.eq_false_iff.mpr aimed) event event.isLt
  exact Nat.lt_of_not_le fun hn => target (decide_eq_true hn)

theorem checkSemaphores_accepts :
    Ends checkSemaphores k
    (fun _ l => l = k ∧ ∀ s : c.SemaphoreId, semaphoreFits (c.semaphoreAttr s) = true) refusal := by
  simp only [checkSemaphores, ends_ite, ends_fail, ends_pure]
  refine ⟨fun _ => rfl, fun fits => ⟨trivial, fun s => ?_⟩⟩
  have fit := Array.any_eq_false.mp (Bool.eq_false_iff.mpr fits) s s.isLt
  simp only [Bool.not_eq_true', Bool.not_eq_false] at fit
  exact fit

/-- Of all that is asked about later, starting the kernel changes nothing but which entries of tasks are known. -/
structure Booting (k l : Kernel c) : Prop where
  processor : ∃ ready, l.processor = { k.processor with ready := ready }
  semaphores : l.semaphores = k.semaphores
  pool : l.pool = k.pool
  pendingTicks : l.pendingTicks = k.pendingTicks
  now : l.now = k.now

namespace Booting

theorem refl (k : Kernel c) : Booting k k := ⟨⟨k.processor.ready, rfl⟩, rfl, rfl, rfl, rfl⟩

theorem context (h : Booting k l) : l.processor.context = k.processor.context := by
  obtain ⟨ready, hp⟩ := h.processor
  rw [hp]

theorem layOutQueue (h : Booting k l) (hs : l.schedule = k.schedule) {done : List c.QueueId}
    (sized : ∀ q ∈ done, 0 < elementSize q ∧ 0 < capacity q) (offset : UInt64) (queue : c.QueueId) :
    Ends (layOutQueue offset queue) l (fun _ m => Booting k m ∧ m.schedule = k.schedule ∧
      ∀ q ∈ done ++ [queue], 0 < elementSize q ∧ 0 < capacity q) refusal := by
  simp only [Kernel.layOutQueue, ends_bind, ends_ite, ends_fail, ends_modify]
  refine ⟨fun _ => rfl, fun positive => ?_⟩
  rw [not_or] at positive
  split
  · refine ⟨⟨h.processor, h.semaphores, h.pool, h.pendingTicks, h.now⟩, hs, fun q hq => ?_⟩
    rcases List.mem_append.mp hq with hq | hq
    · exact sized q hq
    · rw [List.mem_singleton.mp hq]
      exact ⟨Nat.pos_of_ne_zero fun he => positive.1 (UInt64.toNat_inj.mp he),
        Nat.pos_of_ne_zero fun he => positive.2 (UInt64.toNat_inj.mp he)⟩
  · exact rfl

theorem prepareSchedule (h : Booting k l) (hs : l.schedule = Schedule.initial c) : Ends prepareSchedule l
    (fun _ m => Booting k m ∧ (c.policy = .ceiling → c.slotEntries = c.tasks.size + c.mutexes.size)) refusal := by
  refine (ends_bind _ _).mpr (ends_get.mpr ?_)
  cases hp : c.policy <;> rw [hs, Schedule.initial, hp]
  · exact ⟨h, by rintro ⟨⟩⟩
  · simp only [ends_bind, ends_ite, ends_fail, ends_modify]
    exact ⟨fun _ => rfl, fun room => ⟨fun _ => rfl, fun _ =>
      ⟨⟨h.processor, h.semaphores, h.pool, h.pendingTicks, h.now⟩, fun _ => Classical.not_not.mp room⟩⟩⟩
  · exact ⟨⟨h.processor, h.semaphores, h.pool, h.pendingTicks, h.now⟩, by rintro ⟨⟩⟩

theorem prepareTask (h : Booting k l) (hc : k.processor.context = .boot) {done : List c.TaskId}
    (known : ∀ t ∈ done, l.processor.ready[t] = true) (task : c.TaskId) : Ends (prepareTask task) l
      (fun _ m => Booting k m ∧ ∀ t ∈ done ++ [task], m.processor.ready[t] = true) refusal := by
  have inside : l.processor.context ≠ .outside := by
    rw [h.context, hc]
    exact nofun
  have prepared : Booting k { l with processor := { l.processor with ready := l.processor.ready.set task true } } := by
    obtain ⟨ready, hp⟩ := h.processor
    refine ⟨⟨ready.set task true, ?_⟩, h.semaphores, h.pool, h.pendingTicks, h.now⟩
    simp only [hp]
  have known : ∀ t ∈ done ++ [task], (l.processor.ready.set task true)[t] = true := by
    intro t ht
    by_cases he : t = task
    · rw [he, Table.getElem_set_self]
    · rw [Table.getElem_set_of_ne _ _ he]
      exact known t ((List.mem_append.mp ht).resolve_right fun hm => he (List.mem_singleton.mp hm))
  simp only [Kernel.prepareTask, ends_bind, ends_get, ends_ite, ends_throw, ends_set, ends_modify, ends_pure]
  refine ⟨fun outside => absurd outside inside, fun _ => ⟨fun _ => ⟨?_, known⟩, fun _ => ⟨prepared, known⟩⟩⟩
  exact ⟨prepared.processor, prepared.semaphores, prepared.pool, prepared.pendingTicks, prepared.now⟩

theorem prepareTimer (h : Booting k l) {timer : Nat} (user : timer < c.userTimers) :
    Ends (prepareTimer timer) l (fun _ m => Booting k m ∧ m.processor = l.processor) refusal := by
  refine (ends_bind _ _).mpr
    ((ends_timerId timer).mpr ⟨fun hi => (ends_dite _ _ _).mpr ⟨fun _ => ?_, fun _ => ⟨h, rfl⟩⟩,
    fun hn => absurd user hn⟩)
  have started : ∀ id : c.TimerId, Booting k (l.startTimer id) ∧ (l.startTimer id).processor = l.processor := fun id =>
    ⟨⟨h.processor, h.semaphores, h.pool, h.pendingTicks, h.now⟩, rfl⟩
  dsimp only
  split <;> simp only [ends_bind, ends_ite, ends_fail, ends_modify, ends_pure]
  · exact ⟨fun _ => rfl, fun _ => ⟨fun _ => started _, fun _ => ⟨h, trivial⟩⟩⟩
  · exact ⟨fun _ => started _, fun _ => ⟨h, trivial⟩⟩

end Booting

/-- A configuration is refused as invalid, or accepted. -/
theorem boot_accepts (hc : k.processor.context = .boot) (hk : k.schedule = Schedule.initial c) : Ends boot k
    (fun _ l => c.Accepted ∧ Booting k l ∧ ∀ t : c.TaskId, l.processor.ready[t] = true) refusal := by
  refine Ends.bind checkEvents_accepts fun _ l hl => ?_
  obtain ⟨rfl, events, aimed⟩ := hl
  refine Ends.bind checkSemaphores_accepts fun _ l' hl => ?_
  obtain ⟨rfl, semaphores⟩ := hl
  have layOut : Ends layOutQueues l' (fun _ l => Booting l' l ∧ l.schedule = l'.schedule ∧
      ∀ q : c.QueueId, 0 < elementSize q ∧ 0 < capacity q) refusal := by
    refine Ends.bind (Ends.foldlM (I := fun done _ m => Booting l' m ∧ m.schedule = l'.schedule ∧
      ∀ q ∈ done, 0 < elementSize q ∧ 0 < capacity q) _ (fun _ queue _ _ offset _ hl =>
        hl.1.layOutQueue hl.2.1 hl.2.2 offset queue) 0 l' ⟨.refl l', rfl, nofun⟩) fun _ l hl => ?_
    exact ⟨hl.1, hl.2.1, fun q => hl.2.2 q (List.mem_finRange q)⟩
  refine Ends.bind layOut fun _ l hl => ?_
  obtain ⟨booting, schedule, queues⟩ := hl
  refine Ends.bind (booting.prepareSchedule (schedule.trans hk)) fun _ l hl => ?_
  obtain ⟨hl, slots⟩ := hl
  refine Ends.bind (Ends.forM_of_prefix (I := fun done m => Booting l' m ∧ ∀ t ∈ done, m.processor.ready[t] = true) _
    (fun done task _ _ _ hm => hm.1.prepareTask hc hm.2 task) l ⟨hl, nofun⟩) fun _ l hl => ?_
  simp only [prepareTimers, ends_bind, ends_ite, ends_fail]
  refine ⟨fun _ => rfl, fun room => ?_⟩
  have known : ∀ t : c.TaskId, l.processor.ready[t] = true := fun t => hl.2 t (List.mem_finRange t)
  refine (Ends.forM (I := fun m => Booting l' m ∧ m.processor = l.processor) _ (fun timer ht m hm => ?_) l ⟨hl.1,
    rfl⟩).mono
    (fun _ m hm => ?_) fun _ _ hb => hb
  · refine (hm.1.prepareTimer (List.mem_range.mp ht)).mono (fun _ m' hm' => ⟨hm'.1, hm'.2.trans hm.2⟩) fun _ _ hb => hb
  · refine ⟨⟨events, aimed, semaphores, queues, slots, Nat.le_of_not_lt room⟩, hm.1, fun t => ?_⟩
    rw [hm.2]
    exact known t

end Kernel

end Rtos
