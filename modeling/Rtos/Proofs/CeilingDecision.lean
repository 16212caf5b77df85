import Mathlib.Order.Bounds.Basic
import Rtos.Proofs.Kernel.Ceiling
import Rtos.Proofs.Transition
import Rtos.Showcase

/-!
# The row of slots decides by effective priority

Under the ceiling policy the kernel keeps two records of who holds a mutex: the holders themselves, by which it tells
the priority of a task, and the row of slots, by which it decides. They always agree.

* `Kernel.Urgent`: how a task comes to be found first: no runnable task is more urgent, and it holds the first of the
  mutexes that could speak for another one.
* `Kernel.RowAgrees`: the row says who holds a mutex and who is runnable.
* `Kernel.DecidesByCeilings`: what the kernel tells about priorities, and what it decides.
* `Machine.decidesByCeilings_play`: it does so throughout every run.
-/

namespace Rtos
set_option autoImplicit false

variable {c : Config}

namespace Kernel

variable {k : Kernel c} {t u : c.TaskId} {x : c.MutexId}

/-! ## The priority that is told -/

theorem foldl_min_isLeast {α : Type} (f : α → Nat) (l : List α) (p : Nat) :
    IsLeast {q | q = p ∨ ∃ a ∈ l, f a = q} (l.foldl (fun q a => min q (f a)) p) := by
  induction l generalizing p with
  | nil => exact ⟨.inl rfl, by rintro q (rfl | ⟨a, ha, _⟩); exacts [Nat.le_refl _, nomatch ha]⟩
  | cons a l ih =>
    obtain ⟨mem, least⟩ := ih (min p (f a))
    rw [List.foldl_cons]
    refine ⟨?_, ?_⟩
    · rcases mem with he | ⟨b, hb, he⟩
      · rcases Nat.le_total p (f a) with hle | hle
        · exact .inl (he.trans (Nat.min_eq_left hle))
        · exact .inr ⟨a, List.mem_cons_self, (he.trans (Nat.min_eq_right hle)).symm⟩
      · exact .inr ⟨b, List.mem_cons_of_mem a hb, he⟩
    · have bound := least (.inl rfl)
      rintro q (rfl | ⟨b, hb, rfl⟩)
      · exact Nat.le_trans bound (Nat.min_le_left _ _)
      · rcases List.mem_cons.mp hb with rfl | hb
        · exact Nat.le_trans bound (Nat.min_le_right _ _)
        · exact least (.inr ⟨b, hb, rfl⟩)

/-- The priority of a task is its own number or the ceiling of a mutex it holds, whichever is least. -/
theorem ceilingPriority_isLeast (h : c.Ceilinged) (k : Kernel c) (t : c.TaskId) :
    IsLeast {p | p = t.val ∨ ∃ x, k.holders[x] = some t ∧ ceilingOf c x = p} (k.ceilingPriority t) := by
  have fold : k.ceilingPriority t = ((List.finRange c.mutexes.size).filter fun x => k.holders[x] = some t).foldl
      (fun p x => min p (ceilingOf c x)) t.val := by
    rw [List.foldl_filter, ceilingPriority]
    refine congrArg (fun f => List.foldl f t.val _) (funext fun p => funext fun x => ?_)
    simp only [decide_eq_true_eq]
    refine if_congr Iff.rfl ?_ rfl
    have hx := h x
    cases hc : (c.mutexAttr x).ceiling with
    | some ceiling => simp [ceilingOf, hc]
    | none => simp [ceilingOf, hc] at hx
  have members : {p | p = t.val ∨ ∃ x, k.holders[x] = some t ∧ ceilingOf c x = p} =
      {p | p = t.val ∨ ∃ x ∈ (List.finRange c.mutexes.size).filter (fun x => k.holders[x] = some t),
        ceilingOf c x = p} := by
    simp [List.mem_filter, List.mem_finRange]
  rw [members, fold]
  exact foldl_min_isLeast _ _ _

/-! ## The task that is found -/

/-- No runnable task is more urgent than `t`, and of the runnable tasks of the same priority `p` it comes first: it
holds the lowest-numbered mutex with ceiling `p` that a runnable task holds, or there is no such mutex and `t` is the
task `p`. -/
structure Urgent (k : Kernel c) (t : c.TaskId) : Prop where
  runnable : k.isRunnable t = true
  least : ∀ u, k.isRunnable u = true → k.ceilingPriority t ≤ k.ceilingPriority u
  first : (∃ x, ceilingOf c x = k.ceilingPriority t ∧ k.holders[x] = some t ∧
      ∀ y u, y < x → ceilingOf c y = k.ceilingPriority t → k.holders[y] = some u → k.isRunnable u = false) ∨
    (t.val = k.ceilingPriority t ∧
      ∀ y u, ceilingOf c y = k.ceilingPriority t → k.holders[y] = some u → k.isRunnable u = false)

theorem Urgent.unique (ht : k.Urgent t) (hu : k.Urgent u) : t = u := by
  have same : k.ceilingPriority t = k.ceilingPriority u :=
    Nat.le_antisymm (ht.least u hu.runnable) (hu.least t ht.runnable)
  rcases ht.first with ⟨x, hx, hxt, before⟩ | ⟨htp, none⟩
  · rcases hu.first with ⟨y, hy, hyu, before'⟩ | ⟨_, none'⟩
    · have hxy : x = y := by
        by_contra hne
        rcases Nat.lt_or_gt_of_ne fun he => hne (Fin.ext he) with hlt | hgt
        · cases (before' x t hlt (hx.trans same) hxt).symm.trans ht.runnable
        · cases (before y u hgt (hy.trans same.symm) hyu).symm.trans hu.runnable
      rw [← hxy] at hyu
      exact Option.some.inj (hxt.symm.trans hyu)
    · cases (none' x t (hx.trans same) hxt).symm.trans ht.runnable
  · rcases hu.first with ⟨y, hy, hyu, _⟩ | ⟨hup, _⟩
    · cases (none y u (hy.trans same.symm) hyu).symm.trans hu.runnable
    · exact Fin.ext (htp.trans (same.trans hup.symm))

/-- A task that holds no mutex is found only if it is more urgent than the ceiling of every mutex that a runnable task
holds. -/
theorem Urgent.overtakes (h : k.Urgent u) (hc : c.Ceilinged) (hx : k.holders[x] = some t) (ht : k.isRunnable t = true)
    (hu : ∀ y : c.MutexId, k.holders[y] ≠ some u) : u.val < ceilingOf c x := by
  have own : u.val = k.ceilingPriority u := by
    rcases (ceilingPriority_isLeast hc k u).1 with he | ⟨y, hy, _⟩
    · exact he.symm
    · exact absurd hy (hu y)
  have le : u.val ≤ ceilingOf c x := by
    rw [own]
    exact Nat.le_trans (h.least t ht) ((ceilingPriority_isLeast hc k t).2 (.inr ⟨x, hx, rfl⟩))
  refine Nat.lt_of_le_of_ne le fun he => ?_
  rcases h.first with ⟨y, _, hy, _⟩ | ⟨_, none⟩
  · exact hu y hy
  · cases (none x t (he.symm.trans own) hx).symm.trans ht

/-- If the scan comes to `t` by a slot, then what speaks for other runnable tasks stands behind that slot. -/
theorem Scheduled.behind_of_finds (h : k.Scheduled) (hp : c.policy = .ceiling) (hd : k.decision = .ok (some t)) :
    (k.isRunnable t = true ∧ ∀ u, k.isRunnable u = true → (u ≠ t → c.row.taskSlot[t] < c.row.taskSlot[u]) ∧
        ∀ y : c.MutexId, k.holders[y] = some u → c.row.taskSlot[t] < c.row.mutexSlot[y]) ∨
      ∃ x : c.MutexId, k.holders[x] = some t ∧ ∀ u, k.isRunnable u = true →
        c.row.mutexSlot[x] < c.row.taskSlot[u] ∧
        ∀ y : c.MutexId, k.holders[y] = some u → y ≠ x → c.row.mutexSlot[x] < c.row.mutexSlot[y] := by
  obtain ⟨slots, hs, laid, htask, hmutex, tracks⟩ := h.exists_slots hp
  rw [decision_ceiling hs] at hd
  obtain ⟨slot, hlt, speaks, silent⟩ := (SlotTable.Tracks.next_eq_ok_iff tracks laid t).mp hd
  have runs : ∀ u, k.isRunnable u = slots.isRunnable u := fun u => by rw [isRunnable, hs]; rfl
  -- A slot that speaks for someone is not passed over.
  have reached : ∀ {place : Nat} {speaker : Nat}, slots.spokesman? place = some speaker → place ≠ slot →
      slot < place := by
    intro place speaker hspeaks hne
    refine Nat.lt_of_le_of_ne (Nat.le_of_not_lt fun hgt => ?_) (Ne.symm hne)
    cases (silent place hgt).symm.trans hspeaks
  have task : ∀ u, k.isRunnable u = true → slots.spokesman? slots.taskSlot[u] = some slots.taskSlot[u] := by
    intro u hu
    rw [tracks.spokesman?_task, ← runs, hu]
    rfl
  have mutex : ∀ (y : c.MutexId) u, k.holders[y] = some u → k.isRunnable u = true →
      slots.spokesman? slots.mutexSlot[y] = some slots.taskSlot[u] := by
    intro y u hy hu
    rw [tracks.spokesman?_mutex laid, hy]
    simp only [← runs, hu]
    rfl
  rw [← htask, ← hmutex]
  rcases laid.slot_cases hlt with ⟨v, rfl⟩ | ⟨x, rfl⟩
  · rw [tracks.spokesman?_task, ← runs] at speaks
    split at speaks
    · next hv =>
      obtain rfl : v = t := laid.taskSlot_inj (Option.some.inj speaks)
      refine .inl ⟨hv, fun u hu => ⟨fun hne => reached (task u hu) fun he => hne (laid.taskSlot_inj he), ?_⟩⟩
      exact fun y hy => reached (mutex y u hy hu) fun he => laid.taskSlot_ne_mutexSlot v y he.symm
    · cases speaks
  · rw [tracks.spokesman?_mutex laid] at speaks
    split at speaks
    · cases speaks
    · next v hv =>
      split at speaks
      · obtain rfl : v = t := laid.taskSlot_inj (Option.some.inj speaks)
        refine .inr ⟨x, hv, fun u hu => ⟨reached (task u hu) (laid.taskSlot_ne_mutexSlot u x), fun y hy hne => ?_⟩⟩
        exact reached (mutex y u hy hu) fun he => hne (laid.mutexSlot_inj he)
      · cases speaks

theorem Scheduled.not_runnable_of_decision (h : k.Scheduled) (hp : c.policy = .ceiling) (hd : k.decision = .ok none) :
    k.isRunnable t = false := by
  obtain ⟨slots, hs, laid, _, _, tracks⟩ := h.exists_slots hp
  rw [decision_ceiling hs] at hd
  have silent := (SlotTable.next_eq_ok_none_iff slots).mp hd _ (laid.taskSlot_lt t)
  rw [tracks.spokesman?_task] at silent
  rw [isRunnable, hs]
  exact Bool.eq_false_iff.mpr fun ht => by cases (if_pos ht).symm.trans silent

theorem Scheduled.urgent_of_decision (h : k.Scheduled) (hp : c.policy = .ceiling) (hc : c.Ceilinged)
    (hd : k.decision = .ok (some t)) : k.Urgent t := by
  have runnable := h.isRunnable_of_decision hd
  have told := ceilingPriority_isLeast hc k
  rcases h.behind_of_finds hp hd with ⟨_, behind⟩ | ⟨x, hx, behind⟩
  · -- By its own slot: what any runnable task could be as urgent by comes after `t`.
    have least : ∀ u, k.isRunnable u = true → t.val ≤ k.ceilingPriority u := by
      intro u hu
      rcases (told u).1 with he | ⟨y, hy, he⟩
      · rw [he]
        by_cases hut : u = t
        · rw [hut]
        · exact Nat.le_of_lt ((c.taskSlot_lt_taskSlot t u).mp ((behind u hu).1 hut))
      · rw [← he]
        exact Nat.le_of_lt ((hc.taskSlot_lt_mutexSlot t y).mp ((behind u hu).2 y hy))
    have own : k.ceilingPriority t = t.val := Nat.le_antisymm ((told t).2 (.inl rfl)) (least t runnable)
    refine ⟨runnable, fun u hu => own ▸ least u hu,
      .inr ⟨own.symm, fun y u hy hyu => Bool.eq_false_iff.mpr fun hu => ?_⟩⟩
    have after := (hc.taskSlot_lt_mutexSlot t y).mp ((behind u hu).2 y hyu)
    rw [hy, own] at after
    exact Nat.lt_irrefl _ after
  · -- By the slot of a mutex: what any runnable task could be as urgent by comes after that mutex.
    have after : ∀ u (y : c.MutexId), k.isRunnable u = true → k.holders[y] = some u → y ≠ x →
        ceilingOf c x < ceilingOf c y ∨ (ceilingOf c x = ceilingOf c y ∧ x < y) := fun u y hu hy hne =>
      (hc.mutexSlot_lt_mutexSlot x y).mp ((behind u hu).2 y hy hne)
    have least : ∀ u, k.isRunnable u = true → ceilingOf c x ≤ k.ceilingPriority u := by
      intro u hu
      rcases (told u).1 with he | ⟨y, hy, he⟩
      · rw [he]
        exact (hc.mutexSlot_lt_taskSlot x u).mp (behind u hu).1
      · rw [← he]
        by_cases hyx : y = x
        · rw [hyx]
        · rcases after u y hu hy hyx with hlt | ⟨heq, _⟩
          · exact Nat.le_of_lt hlt
          · exact Nat.le_of_eq heq
    have own : k.ceilingPriority t = ceilingOf c x :=
      Nat.le_antisymm ((told t).2 (.inr ⟨x, hx, rfl⟩)) (least t runnable)
    refine ⟨runnable, fun u hu => own ▸ least u hu, .inl ⟨x, own.symm, hx, fun y u hyx hy hyu => ?_⟩⟩
    refine Bool.eq_false_iff.mpr fun hu => ?_
    rcases after u y hu hyu (Fin.ne_of_lt hyx) with hlt | ⟨_, hgt⟩
    · rw [hy, own] at hlt
      exact Nat.lt_irrefl _ hlt
    · exact Nat.lt_asymm hyx hgt

/-! ## Agreement -/

/-- The row of slots says who holds a mutex and who is runnable. -/
structure RowAgrees (k : Kernel c) (row : SlotTable c.tasks.size c.mutexes.size) : Prop where
  kept : k.schedule = .ceiling row
  ownTask : ∀ t : c.TaskId, row.owners[row.taskSlot[t]]? = some (.task t)
  ownMutex : ∀ x : c.MutexId, row.owners[row.mutexSlot[x]]? = some (.mutex x)
  held : ∀ (x : c.MutexId) (h : c.TaskId),
    row.lockedBy[row.mutexSlot[x]]? = some (some row.taskSlot[h]) ↔ k.holders[x] = some h
  free : ∀ x : c.MutexId, row.lockedBy[row.mutexSlot[x]]? = some none ↔ k.holders[x] = none
  runnable : ∀ t : c.TaskId, row.lockedBy[row.taskSlot[t]]? = some (some row.taskSlot[t]) ↔ k.isRunnable t = true
  blocked : ∀ t : c.TaskId, row.lockedBy[row.taskSlot[t]]? = some none ↔ k.isRunnable t = false

/-- What the kernel tells about priorities under the ceiling policy, and what it decides. -/
structure DecidesByCeilings (k : Kernel c) : Prop where
  row : ∃ row, k.RowAgrees row
  /-- The priority the kernel tells is the number of the task or the ceiling of a mutex it holds, whichever is least. -/
  priority : ∀ t, effectivePriority t k = .ok (k.ceilingPriority t) k ∧
    IsLeast {p | p = t.val ∨ ∃ x, k.holders[x] = some t ∧ ceilingOf c x = p} (k.ceilingPriority t)
  /-- The policy always has an answer. -/
  answers : ∃ task, choose k = .ok task k
  /-- It chooses no task only if none is runnable. -/
  idle : choose k = .ok none k ↔ ∀ t, k.isRunnable t = false
  chosen : ∀ t, choose k = .ok (some t) k ↔ k.Urgent t
  /-- A task that holds no mutex is chosen over a runnable holder only if it is more urgent than the ceiling. -/
  overtakes : ∀ (x : c.MutexId) h u, k.holders[x] = some h → k.isRunnable h = true →
    (∀ y : c.MutexId, k.holders[y] ≠ some u) →
    choose k = .ok (some u) k → u.val < ceilingOf c x

theorem Scheduled.exists_rowAgrees (h : k.Scheduled) (hp : c.policy = .ceiling) : ∃ row, k.RowAgrees row := by
  obtain ⟨slots, hs, laid, _, _, tracks⟩ := h.exists_slots hp
  have entry : ∀ {place : Nat}, place < slots.lockedBy.size → ∀ value,
      (slots.lockedBy[place]? = some value ↔ slots.lockedBy.getD place none = value) := by
    intro place hlt value
    rw [Array.getD_eq_getD_getElem?, Array.getElem?_eq_getElem hlt, Option.getD_some, Option.some.injEq]
  have runs : ∀ t, k.isRunnable t = slots.isRunnable t := fun t => by rw [isRunnable, hs]; rfl
  refine ⟨slots, hs, laid.owner_task, laid.owner_mutex, fun x h => ?_, fun x => ?_, fun t => ?_, fun t => ?_⟩
  · rw [entry (laid.mutexSlot_lt x), tracks.mutex x, Option.map_eq_some_iff]
    refine ⟨fun hx => ?_, fun hx => ⟨h, hx, rfl⟩⟩
    obtain ⟨u, hu, he⟩ := hx
    rwa [laid.taskSlot_inj he] at hu
  · rw [entry (laid.mutexSlot_lt x), tracks.mutex x, Option.map_eq_none_iff]
  · rw [entry (laid.taskSlot_lt t), runs, SlotTable.isRunnable_iff]
  · rw [entry (laid.taskSlot_lt t), runs, Bool.eq_false_iff, ne_eq, SlotTable.isRunnable_iff]
    rcases tracks.task t with ht | ht <;> simp [ht]

/-- A schedule of the ceiling policy that agrees with the rest of the state makes the policy decide by the
priorities. -/
theorem Scheduled.decidesByCeilings (h : k.Scheduled) (hp : c.policy = .ceiling) (hc : c.Ceilinged) :
    k.DecidesByCeilings := by
  obtain ⟨slots, hs, _⟩ := h.exists_slots hp
  have refreshed : k.refresh = k := by
    unfold Kernel.refresh
    rw [hs]
  have choice : ∀ task, choose k = .ok task k ↔ k.decision = .ok task := fun task => by
    rw [← h.choose_iff, refreshed]
  have idle : k.decision = .ok none ↔ ∀ t, k.isRunnable t = false := by
    refine ⟨fun hd t => h.not_runnable_of_decision hp hd, fun hn => ?_⟩
    obtain ⟨task, hd⟩ := h.exists_decision
    cases task with
    | none => exact hd
    | some t => cases (hn t).symm.trans (h.isRunnable_of_decision hd)
  have chosen : ∀ t, choose k = .ok (some t) k ↔ k.Urgent t := by
    intro t
    rw [choice]
    refine ⟨h.urgent_of_decision hp hc, fun urgent => ?_⟩
    obtain ⟨task, hd⟩ := h.exists_decision
    cases task with
    | none => cases (idle.mp hd t).symm.trans urgent.runnable
    | some u =>
      obtain rfl := (h.urgent_of_decision hp hc hd).unique urgent
      exact hd
  refine ⟨h.exists_rowAgrees hp, fun t => ⟨?_, ceilingPriority_isLeast hc k t⟩, ?_, (choice none).trans idle, chosen,
    fun x v u hx hv hu hd => ((chosen u).mp hd).overtakes hc hx hv hu⟩
  · refine Ends.eq_ok ?_
    simp only [effectivePriority, ends_bind, ends_modify, ends_get, ends_pure, refreshed, priorityOf, hs, and_self]
  · obtain ⟨task, hd⟩ := h.exists_decision
    exact ⟨task, (choice task).mpr hd⟩

end Kernel

namespace Machine
open Kernel

/-- Whatever the tasks do and whenever the interrupts come, as long as the run is not over: under the ceiling policy the
row of slots agrees with the holders of the mutexes, and the policy decides by the priorities the kernel tells. -/
theorem decidesByCeilings_play (c : Config) (hp : c.policy = .ceiling) (acts : List Act)
    (hn : ∀ ending, (play c acts).control ≠ .ended ending) : (play c acts).kernel.DecidesByCeilings := by
  have ceilinged : c.Ceilinged := accepted_play (boot_ceilinged (Unstarted.initial c) rfl hp) hn
  exact ((orderly_play acts).1.scheduled hn).decidesByCeilings hp ceilinged

/-- The least urgent task locks a mutex of the task in the middle and wakes that task. The dispatcher is about to decide
between the two, which are now equally urgent. -/
def lockAndMeet : List Act :=
  [.step, .step, .step, .step, .move (.call .block), .step, .step, .step, .step,
    .move (.call (.lock 0 .forever)), .step, .move (.call (.unblock 1)), .step, .step]

theorem decidesByCeilings_lockAndMeet :
    (play (Showcase.full .ceiling).scenario.config lockAndMeet).control = .choosing ∧
      (play (Showcase.full .ceiling).scenario.config lockAndMeet).kernel.ceilingPriority ⟨1, by decide⟩ = 1 ∧
      choose (play (Showcase.full .ceiling).scenario.config lockAndMeet).kernel =
        .ok (some ⟨2, by decide⟩) (play (Showcase.full .ceiling).scenario.config lockAndMeet).kernel := by
  have here : (play (Showcase.full .ceiling).scenario.config lockAndMeet).control = .choosing := by decide +kernel
  have decides := decidesByCeilings_play (Showcase.full .ceiling).scenario.config rfl lockAndMeet fun ending he => by
    cases here.symm.trans he
  have urgent : (play (Showcase.full .ceiling).scenario.config lockAndMeet).kernel.Urgent ⟨2, by decide⟩ :=
    ⟨by decide +kernel, by decide +kernel, by decide +kernel⟩
  exact ⟨here, by decide +kernel, (decides.chosen _).mpr urgent⟩

end Machine

end Rtos
