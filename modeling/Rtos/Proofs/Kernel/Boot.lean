import Mathlib.Data.List.Pairwise
import Rtos.Proofs.Kernel.Queue
import Rtos.Proofs.Kernel.Plain
import Rtos.Proofs.Schedule.Emission
import Rtos.Proofs.Schedule.Layout

/-!
# Starting the kernel

* `Kernel.Unstarted`: no task has run yet, no mutex is held and nobody waits.
* `boot_spec`: if the configuration is accepted, the dispatcher finds a schedule of the configured policy that agrees
  with the state, all mutexes are free, and the timer pool has a timeout timer for every task.
* `boot_ceilinged`: under the ceiling policy, every mutex of an accepted configuration has an existing task as its
  ceiling.
* `boot_ringsFit`: the rings of the queues of an accepted configuration share no byte, and are empty.
* `boot_tasks`: starting the kernel sends no signals.
* `boot_prepared`: those timers of the application run that start with the kernel.
* `boot_dormant`: where the timer pool has all its entries, it has a timeout timer for every task, and these are off.
-/

namespace Rtos.Kernel
set_option autoImplicit false

variable {c : Config} {k l : Kernel c}

/-- No task has run yet, no mutex is held and nobody waits. -/
structure Unstarted (k : Kernel c) : Prop where
  running : k.running = none
  thread : k.processor.thread = none
  context : k.processor.context = .boot
  unmasked : k.processor.masked = false
  disabled : k.preemptDisabled = true
  free : k.holders = Table.replicate _ none
  idle : ∀ u : c.TaskId, k.tasks[u].wait = none

theorem Unstarted.initial (c : Config) : Unstarted { Kernel.initial c with processor := { context := .boot } } where
  running := rfl
  thread := rfl
  context := rfl
  unmasked := rfl
  disabled := rfl
  free := rfl
  idle u := by simp [Kernel.initial]

theorem Unstarted.between (h : k.Unstarted) (hs : k.Scheduled) : k.Between (Table.replicate _ .entry) where
  thread := h.thread.trans h.running.symm
  context := by
    rw [h.context, h.running]
    rfl
  unmasked := h.unmasked
  disabled := h.disabled
  scheduled := hs
  waits := by
    have entry : ∀ u r, ¬ Awaits (Table.replicate c.tasks.size .entry) u r := by
      rintro u r ⟨d, hd⟩
      simp at hd
    refine ⟨nofun, fun u o _ ho => ?_, fun u r hu => absurd hu (entry u r), fun u x _ hu => absurd hu (entry u _)⟩
    cases (h.idle u).symm.trans ho

/-! ## The schedule -/

/-- The schedule the inheritance policy starts from agrees with every state: its priorities are stale. -/
theorem scheduled_of_initial (hk : k.schedule = Schedule.initial c) (hp : c.policy = .inheritance) : k.Scheduled := by
  have hs : k.schedule = .inheritance (Table.replicate _ false) (Table.replicate _ 0) true := by
    rw [hk, Schedule.initial, hp]
  constructor
  · rw [hs]
    exact hp
  · rw [hs]
    exact nofun

theorem row_laid (h : ∀ x, ceilingOf c x < c.tasks.size) : c.row.Laid :=
  SlotTable.ofLayout_laid _ (slotLayout_nodup _ _ _) (fun t => task_mem_slotLayout _ t)
    fun x => mutex_mem_slotLayout _ x (h x)

/-- If every mutex has a ceiling, this is the row that is laid out. -/
theorem layOut_row (h : c.Ceilinged) : SlotTable.layOut (ceilingOf c) = c.row := SlotTable.layOut_eq h

theorem ceilingOf_lt (h : (c.mutexes.any fun attr => !hasCeiling c attr) = false) : c.Ceilinged := by
  intro x
  have hx : hasCeiling c (c.mutexAttr x) = true := by
    have hall := Array.any_eq_false.mp h x x.isLt
    simp only [Bool.not_eq_true', Bool.not_eq_false] at hall
    exact hall
  unfold hasCeiling at hx
  unfold ceilingOf
  split at hx
  · next task ht =>
    rw [ht]
    exact of_decide_eq_true hx
  · cases hx

/-- The schedule is prepared so that it agrees with a state in which nothing has happened yet. -/
theorem prepareSchedule_spec (h : k.Unstarted) (hk : k.schedule = Schedule.initial c) :
    Ends prepareSchedule k (fun _ l => l.Unstarted ∧ l.Scheduled) (fun _ l => c.policy = .inheritance →
      l.Scheduled) := by
  have failed : c.policy = .inheritance → k.Scheduled := scheduled_of_initial hk
  refine (ends_bind _ _).mpr (ends_get.mpr ?_)
  cases hp : c.policy with
  | strict =>
    have hs : k.schedule = .strict (Table.replicate _ false) := by rw [hk, Schedule.initial, hp]
    rw [hs]
    refine ⟨h, ?_, ?_⟩
    · rw [hs]
      exact hp
    · rw [hs]
      trivial
  | ceiling =>
    have hs : k.schedule = .ceiling (SlotTable.ofLayout []) := by rw [hk, Schedule.initial, hp]
    rw [hs]
    simp only [ends_bind, ends_ite, ends_fail, ends_modify]
    refine ⟨fun _ => nofun, fun _ => ⟨fun _ => nofun, fun hc => ?_⟩⟩
    have ceilinged : c.Ceilinged := ceilingOf_lt (Bool.eq_false_iff.mpr hc)
    have laid : c.row.Laid := row_laid ceilinged
    rw [layOut_row ceilinged]
    refine ⟨⟨h.running, h.thread, h.context, h.unmasked, h.disabled, h.free, h.idle⟩, ⟨hp, laid, rfl, rfl⟩, ?_⟩
    show c.row.Tracks k.holders
    rw [h.free]
    exact SlotTable.ofLayout_tracks _
  | inheritance =>
    have hs : k.schedule = .inheritance (Table.replicate _ false) (Table.replicate _ 0) true := by
      rw [hk, Schedule.initial, hp]
    rw [hs]
    refine ⟨⟨h.running, h.thread, h.context, h.unmasked, h.disabled, h.free, h.idle⟩, hp, nofun⟩

/-! ## Before and after -/

theorem checkEvents_spec : Ends checkEvents k (fun _ l => l = k) (fun _ l => l = k) := by
  simp only [checkEvents, ends_bind, ends_ite, ends_fail, ends_pure]
  exact ⟨fun _ => trivial, fun _ => ⟨fun _ => trivial, fun _ => trivial⟩⟩

theorem checkSemaphores_spec : Ends checkSemaphores k (fun _ l => l = k) (fun _ l => l = k) := by
  simp only [checkSemaphores, ends_ite, ends_fail, ends_pure]
  exact ⟨fun _ => trivial, fun _ => trivial⟩

theorem layOutQueues_spec (h : k.Unstarted ∧ k.schedule = Schedule.initial c) :
    Ends layOutQueues k (fun _ l => l.Unstarted ∧ l.schedule = Schedule.initial c)
      (fun _ l => l.schedule = Schedule.initial c) := by
  have laidOut : ∀ (offset : UInt64) (queue : c.QueueId) (l : Kernel c), l.Unstarted ∧ l.schedule = Schedule.initial c →
      Ends (layOutQueue offset queue) l (fun _ l => l.Unstarted ∧ l.schedule = Schedule.initial c)
        (fun _ l => l.schedule = Schedule.initial c) := by
    intro offset queue l hl
    obtain ⟨hu, hs⟩ := hl
    simp only [layOutQueue, ends_bind, ends_ite, ends_fail, ends_modify]
    refine ⟨fun _ => hs, fun _ => ?_⟩
    split
    · exact ⟨⟨hu.running, hu.thread, hu.context, hu.unmasked, hu.disabled, hu.free, hu.idle⟩, hs⟩
    · exact hs
  have fold := Ends.foldlM 
    (List.finRange c.queues.size) (fun _ queue _ _ offset l hl => laidOut offset queue l hl) 0 k h
  exact Ends.bind fold fun _ l hl => hl

theorem prepareTask_spec (h : k.Unstarted ∧ k.Scheduled) (task : c.TaskId) :
    Ends (prepareTask task) k (fun _ l => l.Unstarted ∧ l.Scheduled) (fun _ l => l.Scheduled) := by
  obtain ⟨hu, hs⟩ := h
  have scheduled : ∀ p, ({ k with processor := p } : Kernel c).Scheduled := fun p => hs.of_schedule_eq rfl rfl rfl
  simp only [prepareTask, ends_bind, ends_get, ends_ite, ends_throw, ends_set, ends_modify, ends_pure]
  refine ⟨fun _ => hs, fun _ => ⟨fun _ => ⟨?_, (scheduled _).of_setRunnable rfl rfl⟩, fun _ => ⟨?_, scheduled _⟩⟩⟩
  · exact ⟨hu.running, hu.thread, hu.context, hu.unmasked, hu.disabled, hu.free, hu.idle⟩
  · exact ⟨hu.running, hu.thread, hu.context, hu.unmasked, hu.disabled, hu.free, hu.idle⟩

theorem prepareTimer_spec (h : k.Unstarted ∧ k.Scheduled) (timer : Nat) :
    Ends (prepareTimer timer) k (fun _ l => l.Unstarted ∧ l.Scheduled) (fun _ l => l.Scheduled) := by
  obtain ⟨hu, hs⟩ := h
  have started : ∀ id : c.TimerId, (k.startTimer id).Unstarted ∧ (k.startTimer id).Scheduled := fun id =>
    ⟨⟨hu.running, hu.thread, hu.context, hu.unmasked, hu.disabled, hu.free, hu.idle⟩, hs.of_schedule_eq rfl rfl rfl⟩
  refine (ends_bind _ _).mpr ((ends_timerId timer).mpr ⟨fun hi => ?_, fun _ => hs⟩)
  have enabled : ∀ (on : Bool) (id : c.TimerId), Ends (if on = true then modify (·.startTimer id) else pure ()) k
      (fun _ l => l.Unstarted ∧ l.Scheduled) (fun _ l => l.Scheduled) := by
    intro on id
    rw [ends_ite]
    exact ⟨fun _ => started id, fun _ => ⟨hu, hs⟩⟩
  rw [ends_dite]
  refine ⟨fun _ => ?_, fun _ => ⟨hu, hs⟩⟩
  dsimp only
  split
  · rw [ends_ite]
    exact ⟨fun _ => hs, fun _ => enabled _ _⟩
  · exact enabled _ _

theorem boot_spec (h : k.Unstarted) (hk : k.schedule = Schedule.initial c) :
    Ends boot k (fun _ l => l.Between (Table.replicate _ .entry) ∧ l.holders = Table.replicate _ none ∧
        c.tasks.size ≤ c.timerCount)
      (fun _ l => c.policy = .inheritance → l.Scheduled) := by
  have failed : ∀ l : Kernel c, l.schedule = Schedule.initial c → c.policy = .inheritance → l.Scheduled :=
    fun l => scheduled_of_initial
  refine (ends_bind _ _).mpr (checkEvents_spec.mono (fun _ l hl => ?_) fun _ l hl => failed l (hl ▸ hk))
  subst hl
  refine (ends_bind _ _).mpr (checkSemaphores_spec.mono (fun _ m hm => ?_) fun _ m hm => failed m (hm ▸ hk))
  subst hm
  refine (ends_bind _ _).mpr ((layOutQueues_spec ⟨h, hk⟩).mono (fun _ l hl => ?_) fun _ l hl => failed l hl)
  refine Ends.bind (prepareSchedule_spec hl.1 hl.2) fun _ m hm => ?_
  refine (ends_bind _ _).mpr ?_
  refine (Ends.forM _ (fun task _ l hl => prepareTask_spec hl task) m hm).mono (fun _ l hl => ?_) fun _ _ hb _ => hb
  simp only [prepareTimers, ends_bind, ends_ite, ends_fail]
  refine ⟨fun _ _ => hl.2, fun hc => ?_⟩
  refine (Ends.forM _ (fun timer _ l hl => prepareTimer_spec hl timer) l hl).mono (fun _ l hl => ?_) fun _ _ hb _ => hb
  exact ⟨hl.1.between hl.2, hl.1.free, Nat.le_of_not_lt hc⟩

/-- Under the ceiling policy, a configuration is accepted only if every mutex has an existing task as its ceiling. -/
theorem boot_ceilinged (h : k.Unstarted) (hk : k.schedule = Schedule.initial c) (hp : c.policy = .ceiling) :
    Ends boot k (fun _ _ => c.Ceilinged) fun _ _ => True := by
  refine (ends_bind _ _).mpr (checkEvents_spec.mono (fun _ l hl => ?_) fun _ _ _ => trivial)
  subst hl
  refine (ends_bind _ _).mpr (checkSemaphores_spec.mono (fun _ m hm => ?_) fun _ _ _ => trivial)
  subst hm
  refine (ends_bind _ _).mpr ((layOutQueues_spec ⟨h, hk⟩).mono (fun _ l hl => ?_) fun _ _ _ => trivial)
  have hs : l.schedule = .ceiling (SlotTable.ofLayout []) := by rw [hl.2, Schedule.initial, hp]
  refine Ends.bind ?_ fun _ m hc => ends_of_forall (fun _ _ => hc) fun _ _ => trivial
  refine (ends_bind _ _).mpr (ends_get.mpr ?_)
  rw [hs]
  simp only [ends_bind, ends_ite, ends_fail, ends_modify]
  exact ⟨fun _ => trivial, fun _ => ⟨fun _ => trivial, fun hc => ceilingOf_lt (Bool.eq_false_iff.mpr hc)⟩⟩

/-! ## The rings of the queues -/

theorem ringEnd?_eq_some {attr : QueueAttr} {offset stop : UInt64} (h : ringEnd? c attr offset = some stop) :
    stop.toNat = offset.toNat + attr.length.toNat * attr.elementSize.toNat ∧ stop.toNat ≤ c.queueBytes.toNat := by
  simp only [ringEnd?, Size.mul?, Size.add?, Option.bind_eq_bind, Option.bind_eq_some_iff,
    Option.ite_none_right_eq_some, Option.some.injEq] at h
  obtain ⟨length, ⟨hm, rfl⟩, stop', ⟨ha, rfl⟩, hle, rfl⟩ := h
  have product : (attr.elementSize * attr.length).toNat = attr.length.toNat * attr.elementSize.toNat := by
    rw [UInt64.toNat_mul, Nat.mod_eq_of_lt hm, Nat.mul_comm]
  refine ⟨?_, hle⟩
  rw [UInt64.toNat_add, Nat.mod_eq_of_lt ha, product]

/-- The rings of some queues are laid out one after the other, up to the given offset, and hold no message. -/
structure LaidOut (done : List c.QueueId) (offset : UInt64) (k : Kernel c) : Prop where
  pool : k.pool.size = c.queueBytes.toNat
  fits : offset.toNat ≤ c.queueBytes.toNat
  empty : ∀ q : c.QueueId, k.rings[q].head = 0 ∧ k.rings[q].count = 0
  positive : ∀ q ∈ done, 0 < capacity q
  below : ∀ q ∈ done, k.ringStop q ≤ offset.toNat
  ordered : done.Pairwise fun q q' => k.ringStop q ≤ k.rings[q'].offset

/-- The kernel after the ring of a queue was laid out. -/
def placed (k : Kernel c) (q : c.QueueId) (offset : UInt64) : Kernel c :=
  { k with rings := k.rings.set q { k.rings[q] with offset := offset.toNat } }

theorem ring_placed_self (k : Kernel c) (q : c.QueueId) (offset : UInt64) :
    (k.placed q offset).rings[q] = { k.rings[q] with offset := offset.toNat } := Table.getElem_set_self ..

theorem ring_placed_ne (k : Kernel c) {q q' : c.QueueId} (offset : UInt64) (h : q' ≠ q) :
    (k.placed q offset).rings[q'] = k.rings[q'] := Table.getElem_set_of_ne k.rings _ h

theorem LaidOut.placed {done : List c.QueueId} {offset stop : UInt64} {q : c.QueueId} (h : k.LaidOut done offset)
    (new : q ∉ done) (positive : 0 < capacity q) (hs : ringEnd? c (c.queueAttr q) offset = some stop) :
    (k.placed q offset).LaidOut (done ++ [q]) stop := by
  obtain ⟨hstop, hfits⟩ := ringEnd?_eq_some hs
  have old : ∀ q' ∈ done, (k.placed q offset).rings[q'] = k.rings[q'] := by
    intro q' hq
    exact k.ring_placed_ne offset fun he => new (he ▸ hq)
  have oldStop : ∀ q' ∈ done, (k.placed q offset).ringStop q' = k.ringStop q' := by
    intro q' hq
    rw [ringStop, slotStart, old q' hq, ← slotStart, ← ringStop]
  have newStop : (k.placed q offset).ringStop q = stop.toNat := by
    rw [ringStop, slotStart, ring_placed_self, hstop]
    rfl
  refine ⟨h.pool, hfits, fun q' => ?_, fun q' hq => ?_, fun q' hq => ?_, ?_⟩
  · by_cases he : q' = q
    · subst he
      rw [ring_placed_self]
      exact h.empty q'
    · rw [k.ring_placed_ne offset he]
      exact h.empty q'
  · rcases List.mem_append.mp hq with hq | hq
    · exact h.positive q' hq
    · exact List.mem_singleton.mp hq ▸ positive
  · rcases List.mem_append.mp hq with hq | hq
    · rw [oldStop q' hq]
      have := h.below q' hq
      omega
    · obtain rfl := List.mem_singleton.mp hq
      exact Nat.le_of_eq newStop
  · refine List.pairwise_append.mpr ⟨h.ordered.imp_of_mem fun ha hb hab => ?_, List.pairwise_singleton _ _,
      fun a ha b hb => ?_⟩
    · rwa [oldStop _ ha, old _ hb]
    · rw [oldStop a ha, List.mem_singleton.mp hb, ring_placed_self]
      exact h.below a ha

theorem layOutQueue_laidOut {done : List c.QueueId} {offset : UInt64} {q : c.QueueId} (h : k.LaidOut done offset)
    (new : q ∉ done) : Ends (layOutQueue offset q) k (fun stop l => l.LaidOut (done ++ [q]) stop) fun _ _ => True := by
  simp only [layOutQueue, ends_bind, ends_ite, ends_fail, ends_modify]
  refine ⟨fun _ => trivial, fun hn => ?_⟩
  rw [not_or] at hn
  have positive : 0 < capacity q := Nat.pos_of_ne_zero fun he => hn.2 (UInt64.toNat_inj.mp he)
  split
  · next stop hs => exact h.placed new positive hs
  · trivial

/-- The rings of an accepted configuration share no byte, and are empty. -/
theorem layOutQueues_laidOut (h : k.LaidOut [] 0) :
    Ends layOutQueues k (fun _ l => l.RingsFit ∧ ∀ q, l.contents q = []) fun _ _ => True := by
  have round : ∀ done q rest, List.finRange c.queues.size = done ++ q :: rest → ∀ offset l, l.LaidOut done offset →
      Ends (layOutQueue offset q) l (fun stop l => l.LaidOut (done ++ [q]) stop) fun _ _ => True := by
    intro done q rest he offset l hl
    refine layOutQueue_laidOut hl fun hq => ?_
    have nodup := List.nodup_finRange c.queues.size
    rw [he, List.nodup_append] at nodup
    exact nodup.2.2 q hq q List.mem_cons_self rfl
  refine Ends.bind (Ends.foldlM _ round 0 k h) fun offset l hl => ?_
  have apart : (List.finRange c.queues.size).Pairwise fun q q' =>
      l.ringStop q ≤ l.rings[q'].offset ∨ l.ringStop q' ≤ l.rings[q].offset := hl.ordered.imp Or.inl
  have symm : Std.Symm fun q q' : c.QueueId =>
      l.ringStop q ≤ l.rings[q'].offset ∨ l.ringStop q' ≤ l.rings[q].offset := ⟨fun _ _ => Or.symm⟩
  refine ⟨⟨fun q => ?_, fun q q' hne => ?_, fun q => ?_, fun q => ?_⟩, fun q => ?_⟩
  · rw [hl.pool]
    exact Nat.le_trans (hl.below q (List.mem_finRange q)) hl.fits
  · exact apart.forall (List.mem_finRange q) (List.mem_finRange q') hne
  · rw [(hl.empty q).1]
    exact hl.positive q (List.mem_finRange q)
  · rw [(hl.empty q).2]
    exact Nat.zero_le _
  · exact List.eq_nil_of_length_eq_zero ((l.length_contents q).trans (hl.empty q).2)

theorem prepareSchedule_resources (k : Kernel c) : Keeps prepareSchedule k := by
  refine (ends_bind _ _).mpr (ends_get.mpr ?_)
  split
  · rfl
  · simp only [ends_bind, ends_ite, ends_fail, ends_modify]
    exact ⟨fun _ => trivial, fun _ => ⟨fun _ => trivial, fun _ => rfl⟩⟩
  · rfl

theorem prepareTask_resources (task : c.TaskId) (k : Kernel c) : Keeps (prepareTask task) k := by
  simp only [Keeps, prepareTask, ends_bind, ends_get, ends_ite, ends_throw, ends_set, ends_modify, ends_pure]
  exact ⟨fun _ => trivial, fun _ => ⟨fun _ => rfl, fun _ => rfl⟩⟩

theorem prepareTimer_resources (timer : Nat) (k : Kernel c) : Keeps (prepareTimer timer) k := by
  refine (ends_bind _ _).mpr ((ends_timerId timer).mpr ⟨fun hi => (ends_dite _ _ _).mpr ⟨fun _ => ?_, fun _ => rfl⟩,
    fun _ => trivial⟩)
  dsimp only
  split <;> simp only [ends_bind, ends_ite, ends_fail, ends_modify, ends_pure]
  · exact ⟨fun _ => trivial, fun _ => ⟨fun _ => rfl, fun _ => trivial⟩⟩
  · exact ⟨fun _ => rfl, fun _ => trivial⟩

theorem boot_ringsFit (hr : k.rings = Table.replicate _ {}) (hp : k.pool = Array.replicate c.queueBytes.toNat 0) :
    Ends boot k (fun _ l => l.RingsFit ∧ ∀ q, l.contents q = []) fun _ _ => True := by
  have start : k.LaidOut [] 0 := by
    refine ⟨?_, Nat.zero_le _, fun q => ?_, nofun, nofun, .nil⟩
    · rw [hp, Array.size_replicate]
    · rw [hr, Table.getElem_replicate]
      exact ⟨rfl, rfl⟩
  refine (ends_bind _ _).mpr (checkEvents_spec.mono (fun _ l hl => ?_) fun _ _ _ => trivial)
  subst hl
  refine (ends_bind _ _).mpr (checkSemaphores_spec.mono (fun _ l hl => ?_) fun _ _ _ => trivial)
  subst hl
  refine Ends.bind (layOutQueues_laidOut start) fun _ l hl => ?_
  have rest : Keeps (do
      prepareSchedule
      (List.finRange c.tasks.size).forM prepareTask
      prepareTimers) l := by
    refine Ends.bind (prepareSchedule_resources l) fun _ l₁ h₁ => ?_
    refine Ends.bind (Keeps.forM prepareTask_resources _ l₁) fun _ l₂ h₂ => ?_
    simp only [prepareTimers, ends_bind, ends_ite, ends_fail]
    refine ⟨fun _ => trivial, fun _ => (Keeps.forM prepareTimer_resources _ l₂).mono (fun _ l₃ h₃ => ?_)
      fun _ _ _ => trivial⟩
    exact (h₃.trans h₂).trans h₁
  refine rest.mono (fun _ m hm => ?_) fun _ _ _ => trivial
  obtain ⟨_, _, rings, pool⟩ := resources_eq_iff.mp hm
  exact ⟨hl.1.congr rings pool, fun q => (contents_congr rings pool q).trans (hl.2 q)⟩

/-! ## The timeout timers -/

/-- No time has passed, and the timeout timers are off. -/
structure Dormant (k : Kernel c) : Prop where
  wired : k.Wired
  off : ∀ t : c.TaskId, k.Off t
  now : k.now = 0

theorem Dormant.of_eq (h : k.Dormant) (ht : l.timers = k.timers) (hn : l.now = k.now) : l.Dormant where
  wired := h.wired.of_timers ht
  off t id own := by
    rw [ht]
    exact h.off t id own
  now := hn.trans h.now

theorem Dormant.startTimer (h : k.Dormant) {id : c.TimerId} (user : id.val < c.userTimers) :
    (k.startTimer id).Dormant where
  wired := by
    refine h.wired.modifyTimer id (.inl ⟨user, fun s u => ?_⟩)
    split <;> exact fun he => he
  off t id' own := by
    have same : (k.startTimer id).timers[id'] = k.timers[id'] :=
      Table.getElem_set_of_ne k.timers _ fun he => by rw [he] at own; omega
    rw [same]
    exact h.off t id' own
  now := h.now

theorem initial_dormant (full : c.timers.size + c.tasks.size ≤ c.timerEntries) : (Kernel.initial c).Dormant := by
  have count : c.timerCount = c.timers.size + c.tasks.size := Nat.min_eq_right full
  have users : c.userTimers = c.timers.size := by
    rw [Config.userTimers, count, Nat.add_sub_cancel]
  have entry : ∀ id : c.TimerId, (Kernel.initial c).timers[id] = initialTimer c id := fun id => Table.getElem_ofFn ..
  refine ⟨⟨fun id u own => ?_, fun id u effect => ?_⟩, fun t id own => ?_, rfl⟩
  · have task : id.val - c.timers.size = u.val := by omega
    rw [entry, initialTimer, dif_neg (by omega)]
    exact ⟨congrArg TimerEffect.timeout (Fin.ext task), rfl⟩
  · rw [entry, initialTimer] at effect
    split at effect
    · cases effect
    · next hi =>
      cases effect
      rw [users]
      exact (Nat.add_sub_cancel' (Nat.le_of_not_lt hi)).symm
  · rw [entry, initialTimer, dif_neg (by omega)]

theorem prepareTask_passive (task : c.TaskId) (hl : Passive k l) :
    Ends (prepareTask task) l (fun _ m => Passive k m) fun _ _ => True := by
  simp only [prepareTask, ends_bind, ends_get, ends_ite, ends_throw, ends_set, ends_modify, ends_pure]
  exact ⟨fun _ => trivial, fun _ => ⟨fun _ => ⟨hl.now, hl.timers, hl.tasks⟩, fun _ => ⟨hl.now, hl.timers, hl.tasks⟩⟩⟩

theorem layOutQueue_passive (offset : UInt64) (q : c.QueueId) (hl : Passive k l) :
    Ends (layOutQueue offset q) l (fun _ m => Passive k m) fun _ _ => True := by
  simp only [layOutQueue, ends_bind, ends_ite, ends_fail, ends_modify]
  refine ⟨fun _ => trivial, fun _ => ?_⟩
  split
  · exact ⟨hl.now, hl.timers, hl.tasks⟩
  · trivial

theorem prepareSchedule_passive (hl : Passive k l) :
    Ends prepareSchedule l (fun _ m => Passive k m) fun _ _ => True := by
  refine (ends_bind _ _).mpr (ends_get.mpr ?_)
  split
  · exact hl
  · simp only [ends_bind, ends_ite, ends_fail, ends_modify]
    exact ⟨fun _ => trivial, fun _ => ⟨fun _ => trivial, fun _ => ⟨hl.now, hl.timers, hl.tasks⟩⟩⟩
  · exact ⟨hl.now, hl.timers, hl.tasks⟩

/-- What is prepared before the timers changes neither the tick counter nor timers and tasks. -/
theorem boot_timers {I : Kernel c → Prop}
    (timers : ∀ l, Passive k l → Ends prepareTimers l (fun _ => I) fun _ _ => True) :
    Ends boot k (fun _ => I) fun _ _ => True := by
  refine (ends_bind _ _).mpr (checkEvents_spec.mono (fun _ l hl => ?_) fun _ _ _ => trivial)
  subst hl
  refine (ends_bind _ _).mpr (checkSemaphores_spec.mono (fun _ m hm => ?_) fun _ _ _ => trivial)
  subst hm
  have layOut : Ends layOutQueues m (fun _ l => Passive m l) fun _ _ => True :=
    Ends.bind (Ends.foldlM _ (fun _ q _ _ offset _ hl => layOutQueue_passive offset q hl) 0 m ⟨rfl, rfl, rfl⟩)
      fun _ _ hl => hl
  refine Ends.bind layOut fun _ l hl => ?_
  refine Ends.bind (prepareSchedule_passive hl) fun _ l hl => ?_
  exact Ends.bind (Ends.forM _ (fun task _ _ hl => prepareTask_passive task hl) l hl) fun _ => timers

theorem prepareTimer_tasks (timer : Nat) (k : Kernel c) :
    Ends (prepareTimer timer) k (fun _ l => l.tasks = k.tasks) fun _ _ => True := by
  refine (ends_bind _ _).mpr ((ends_timerId timer).mpr ⟨fun hi => (ends_dite _ _ _).mpr ⟨fun _ => ?_, fun _ => rfl⟩,
    fun _ => trivial⟩)
  dsimp only
  split <;> simp only [ends_bind, ends_ite, ends_fail, ends_modify, ends_pure]
  · exact ⟨fun _ => trivial, fun _ => ⟨fun _ => rfl, fun _ => trivial⟩⟩
  · exact ⟨fun _ => rfl, fun _ => trivial⟩

/-- Starting the kernel sends no signals, and makes no task wait. -/
theorem boot_tasks (k : Kernel c) : Ends boot k (fun _ l => l.tasks = k.tasks) fun _ _ => True := by
  refine boot_timers fun l hl => ?_
  simp only [prepareTimers, ends_bind, ends_ite, ends_fail]
  exact ⟨fun _ => trivial, fun _ => Ends.forM (I := fun l => l.tasks = k.tasks) _
    (fun timer _ l hl => (prepareTimer_tasks timer l).mono (fun _ _ hm => hm.trans hl) fun _ _ h => h) l hl.tasks⟩

theorem prepareTimer_dormant (timer : Nat) (h : k.Dormant) :
    Ends (prepareTimer timer) k (fun _ l => l.Dormant) fun _ _ => True := by
  refine (ends_bind _ _).mpr ((ends_timerId timer).mpr ⟨fun hi => (ends_dite _ _ _).mpr ⟨fun _ => ?_, fun _ => h⟩,
    fun _ => trivial⟩)
  dsimp only
  split <;> simp only [ends_bind, ends_ite, ends_fail, ends_modify, ends_pure]
  · exact ⟨fun _ => trivial, fun _ => ⟨fun _ => h.startTimer hi, fun _ => h⟩⟩
  · exact ⟨fun _ => h.startTimer hi, fun _ => h⟩

/-- Starting the kernel takes no time, and starts no timeout timer. -/
theorem boot_dormant (h : k.Dormant) : Ends boot k (fun _ l => l.Dormant) fun _ _ => True := by
  refine boot_timers fun l hl => ?_
  simp only [prepareTimers, ends_bind, ends_ite, ends_fail]
  exact ⟨fun _ => trivial,
    fun _ => Ends.forM _ (fun timer _ _ hl => prepareTimer_dormant timer hl) l (h.of_eq hl.timers hl.now)⟩

/-! ## The timers of the application -/

/-- Whether a timer starts with the kernel. -/
def autostarts (id : c.TimerId) : Bool := if h : id < c.timers.size then c.timers[id].enabled else false

/-- A timer of the application after the kernel has started. -/
def bootedTimer (id : c.TimerId) : TimerState c :=
  if autostarts id then (initialTimer c id).started 0 else initialTimer c id

theorem initialTimer_ahead (id : c.TimerId) : (initialTimer c id).Ahead 0 := by
  unfold initialTimer
  split <;> exact nofun

theorem bootedTimer_ahead (id : c.TimerId) : (bootedTimer id).Ahead 0 := by
  have started : ((initialTimer c id).started 0).Ahead 0 :=
    (initialTimer_ahead id).change? (show (Call.enableTimer id).change? 0 = some (id.val, .started 0) from rfl)
  unfold bootedTimer
  split
  · exact started
  · exact initialTimer_ahead id

/-- The given timers have been prepared, and the others are as they were before the kernel started. -/
structure Prepared (done : List Nat) (k : Kernel c) : Prop where
  now : k.now = 0
  later : ∀ id : c.TimerId, id.val ∉ done → k.timers[id] = initialTimer c id
  booted : ∀ id : c.TimerId, id.val ∈ done → k.timers[id] = bootedTimer id

theorem Prepared.concat {done : List Nat} {timer : c.TimerId} (h : k.Prepared done) (hn : l.now = 0)
    (same : ∀ id : c.TimerId, id ≠ timer → l.timers[id] = k.timers[id]) (own : l.timers[timer] = bootedTimer timer) :
    l.Prepared (done ++ [timer.val]) := by
  refine ⟨hn, fun id out => ?_, fun id hi => ?_⟩
  · rw [List.mem_append, List.mem_singleton, not_or] at out
    exact (same id fun he => out.2 (congrArg Fin.val he)).trans (h.later id out.1)
  · by_cases he : id = timer
    · rw [he, own]
    · rw [List.mem_append, List.mem_singleton] at hi
      exact (same id he).trans (h.booted id (hi.resolve_right fun hv => he (Fin.ext hv)))

theorem Prepared.prepareTimer {done : List Nat} {timer : Nat} (h : k.Prepared done) (new : timer ∉ done) :
    Ends (prepareTimer timer) k (fun _ l => l.Prepared (done ++ [timer])) fun _ _ => True := by
  refine (ends_bind _ _).mpr ((ends_timerId timer).mpr ⟨fun hi => ?_, fun _ => trivial⟩)
  generalize ht : (⟨timer, Nat.lt_of_lt_of_le hi (Nat.sub_le _ _)⟩ : c.TimerId) = id
  obtain rfl : id.val = timer := by rw [← ht]
  have initial := h.later id new
  have started : autostarts id = true → (k.startTimer id).Prepared (done ++ [id.val]) := fun on => by
    refine h.concat h.now (fun other hne => Table.getElem_set_of_ne k.timers _ hne) ?_
    rw [bootedTimer, if_pos on, startTimer, modifyTimer, Table.getElem_set_self, initial, h.now]
    rfl
  have left : autostarts id = false → k.Prepared (done ++ [id.val]) := fun off => by
    refine h.concat h.now (fun _ _ => rfl) ?_
    rw [bootedTimer, if_neg (Bool.eq_false_iff.mp off), initial]
  rw [ends_dite]
  refine ⟨fun inside => ?_, fun outside => left (dif_neg outside)⟩
  have starts : autostarts id = c.timers[id].enabled := dif_pos inside
  have enabled : Ends (if c.timers[id].enabled = true then modify (·.startTimer id) else pure ()) k
      (fun _ l => l.Prepared (done ++ [id.val])) fun _ _ => True := by
    rw [ends_ite, ← starts]
    exact ⟨started, fun off => left (Bool.eq_false_iff.mpr off)⟩
  dsimp only
  split
  · rw [ends_ite]
    exact ⟨fun _ => trivial, fun _ => enabled⟩
  · exact enabled

/-- Starting the kernel starts those timers of the application that start with it, and no others. -/
theorem boot_prepared (hn : k.now = 0) (ht : ∀ id : c.TimerId, k.timers[id] = initialTimer c id) :
    Ends boot k (fun _ l => l.Prepared (List.range c.userTimers)) fun _ _ => True := by
  refine boot_timers fun l hl => ?_
  have start : l.Prepared [] := ⟨hl.now.trans hn, fun id _ => by rw [hl.timers, ht], nofun⟩
  simp only [prepareTimers, ends_bind, ends_ite, ends_fail]
  refine ⟨fun _ => trivial,
    fun _ => Ends.forM_of_prefix _ (fun done timer rest he l hl => hl.prepareTimer fun hi => ?_) l start⟩
  have nodup := List.nodup_range (n := c.userTimers)
  rw [he, List.nodup_append] at nodup
  exact nodup.2.2 timer hi timer List.mem_cons_self rfl

end Rtos.Kernel
