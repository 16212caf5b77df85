import Rtos.Proofs.Choice
import Rtos.Proofs.Kernel.Mirrored

/-!
# Where no mutex matters

While no task waits for a mutex, and the ceiling policy has no mutexes to raise a priority for, every task runs at its
own priority, and all policies make the same choice.

* `Kernel.Calm`: no task waits for a mutex.
* `Calm.priorityOf_refresh`: every task is scheduled at its own priority.
* `Calm.least_of_decision`: the policy chooses the runnable task with the least number.
* `Mirrors.concurs`: two policies make the same choice in states that mirror each other, and tell the same priorities.
* `Mirrors.pairs_effectivePriority`, `Mirrors.pairs_choose`: where they do, what depends on the policy comes out in the
  same way.
-/

namespace Rtos
set_option autoImplicit false

namespace Inheritance

/-- Where nobody is blocked, every priority is that of its owner. -/
theorem propagate_of_unblocked {n : Nat} {blocker : Fin n → Option (Fin n)} (h : ∀ u, blocker u = none) (t : Fin n) :
    (propagate blocker)[t] = t.val := by
  obtain ⟨⟨u, reaches, same⟩, _⟩ := propagate_isLeast blocker t
  rw [← same, reaches.eq_of_end (h u)]

end Inheritance

variable {c : Config} {p : Policy}

namespace Kernel

/-- No task waits for a mutex. -/
def Calm (k : Kernel c) : Prop := ∀ (t : c.TaskId) (x : c.MutexId), k.tasks[t].wait ≠ some (.mutex x)

variable {k : Kernel c} {l : Kernel (c.under p)} {t : c.TaskId}

theorem ceilingPriority_of_no_mutexes (hx : c.mutexes.size = 0) (k : Kernel c) (t : c.TaskId) :
    k.ceilingPriority t = t.val := by
  have none : List.finRange c.mutexes.size = [] := List.eq_nil_of_length_eq_zero (by rw [List.length_finRange, hx])
  rw [ceilingPriority, none, List.foldl_nil]

namespace Calm
variable (calm : k.Calm)
include calm

theorem blocker (t : c.TaskId) : k.blocker t = none := blocker_of_no_mutex (calm t)

/-- Every task is scheduled at its own priority. -/
theorem priorityOf_refresh (hc : c.Unguarded) (h : k.Scheduled) (t : c.TaskId) : k.refresh.priorityOf t = t.val := by
  have fits := h.fits
  cases hs : k.schedule with
  | strict runnable => simp only [refresh, hs, priorityOf]
  | ceiling slots =>
    rw [hs] at fits
    simp only [refresh, hs, priorityOf]
    exact ceilingPriority_of_no_mutexes (hc fits.1).1 k t
  | inheritance runnable priorities stale =>
    rw [hs] at fits
    rw [h.priorityOf_refresh fits, Inheritance.propagate_of_unblocked calm.blocker]

/-- The policy chooses the runnable task with the least number. -/
theorem least_of_decision (hc : c.Unguarded) (h : k.Scheduled) (hd : k.decision = .ok (some t)) :
    k.isRunnable t = true ∧ ∀ u, k.isRunnable u = true → t ≤ u := by
  refine ⟨h.isRunnable_of_decision hd, fun u hu => ?_⟩
  have fits := h.fits
  cases hs : k.schedule with
  | strict runnable =>
    rw [decision_strict hs, Except.ok.injEq, List.find?_eq_some_iff_append] at hd
    obtain ⟨_, before, after, order, idle⟩ := hd
    have sorted := List.pairwise_lt_finRange c.tasks.size
    have place := List.mem_finRange u
    rw [order] at sorted place
    rw [isRunnable, hs] at hu
    rcases List.mem_append.mp place with earlier | later
    · have none := idle u earlier
      rw [show runnable[u] = true from hu] at none
      cases none
    · rcases List.mem_cons.mp later with rfl | later
      · exact Fin.le_refl u
      · exact Nat.le_of_lt ((List.pairwise_cons.mp (List.pairwise_append.mp sorted).2.1).1 u later)
  | ceiling slots =>
    rw [hs] at fits
    have none := (hc fits.1).1
    have ceilinged : c.Ceilinged := fun x => by
      have := x.isLt
      omega
    have urgent := (h.urgent_of_decision fits.1 ceilinged hd).least u hu
    rw [ceilingPriority_of_no_mutexes none, ceilingPriority_of_no_mutexes none] at urgent
    exact urgent
  | inheritance runnable priorities stale =>
    rw [hs] at fits
    rcases h.choice_inheritance fits with ⟨nobody, _⟩ | ⟨v, chosen, _, urgent⟩
    · cases nobody.symm.trans hd
    · cases chosen.symm.trans hd
      have urgent := urgent u hu
      rw [Inheritance.propagate_of_unblocked calm.blocker, Inheritance.propagate_of_unblocked calm.blocker] at urgent
      exact urgent

end Calm

/-! ## Two policies -/

/-- Both policies make the same choice, and tell the same priorities. -/
structure Concurs (k : Kernel c) (l : Kernel (c.under p)) : Prop where
  scheduled : k.Scheduled
  scheduled' : l.Scheduled
  decision : l.decision = k.decision
  priority : ∀ t : c.TaskId, l.refresh.priorityOf t = k.refresh.priorityOf t

namespace Mirrors

theorem calm (h : Mirrors k l) (calm : k.Calm) : l.Calm := by
  intro t x hw
  rw [h.same] at hw
  exact calm t x ((k.wait_recast l.schedule t (.mutex x)).mp hw)

variable (h : Mirrors k l)
include h

section Calm
variable (hk : k.Scheduled) (hl : l.Scheduled) (quiet : k.Calm) (hc : c.Unguarded) (hp : (c.under p).Unguarded)
include hk hl quiet hc hp

/-- Both policies make the same choice. -/
theorem decision : l.decision = k.decision := by
  obtain ⟨choice, hd⟩ := hk.exists_decision
  obtain ⟨choice', hd'⟩ := hl.exists_decision
  rw [hd, hd']
  cases choice with
  | none =>
    cases choice' with
    | none => rfl
    | some u => cases ((h.runnable u).trans (hk.nobody_runnable hd u)).symm.trans (hl.isRunnable_of_decision hd')
  | some t =>
    obtain ⟨runs, least⟩ := quiet.least_of_decision hc hk hd
    cases choice' with
    | none => cases ((h.runnable t).trans runs).symm.trans (hl.nobody_runnable hd' t)
    | some u =>
      obtain ⟨runs', least'⟩ := (h.calm quiet).least_of_decision hp hl hd'
      have tu : t ≤ u := least u ((h.runnable u).symm.trans runs')
      have ut : u ≤ t := least' t ((h.runnable t).trans runs)
      rw [Fin.le_antisymm ut tu]

theorem concurs : Concurs k l where
  scheduled := hk
  scheduled' := hl
  decision := h.decision hk hl quiet hc hp
  priority t := ((h.calm quiet).priorityOf_refresh hp hl t).trans (quiet.priorityOf_refresh hc hk t).symm

end Calm

variable (concur : Concurs k l)
include concur

/-- The dispatcher makes the same choice under both policies. -/
theorem pairs_choose : Pairs (do check; choose) k (do check; choose) l fun choice k' choice' l' =>
    choice' = choice ∧ Mirrors k' l' := by
  have checked : Pairs check k check l fun _ k' _ l' => k' = k ∧ l' = l :=
    (mirrored_check h).and (ends_check concur.scheduled rfl) (ends_check concur.scheduled' rfl) |>.mono
    fun _ _ _ _ hb => hb.2
  refine checked.bind fun _ k' _ l' unchanged => ?_
  obtain ⟨rfl, rfl⟩ := unchanged
  obtain ⟨choice, hd⟩ := concur.scheduled.exists_decision
  have hd' := concur.decision.trans hd
  unfold Pairs
  rw [choose_eq concur.scheduled hd, choose_eq concur.scheduled' hd']
  exact ⟨rfl, h.refresh⟩

/-- Whoever asks how urgent a task is gets the same answer under both policies. -/
theorem pairs_effectivePriority (task : Nat) :
    Pairs (perform (.effectivePriority task)) k (perform (.effectivePriority task)) l fun a k' b l' =>
      b = a.recast p ∧ Mirrors k' l' := by
  have enters : ∀ {c : Config} (k : Kernel c), Ends enter k (fun _ k' => k' = k.entered) fun _ _ => True := fun k => by
    simp [enter, entered, ends_bind, ends_get, ends_ite, ends_throw, ends_fail, ends_set]
  refine ((mirrored_enter h).and (enters k) (enters l)).bind fun _ k' _ l' entered => ?_
  obtain ⟨⟨_, mirrors⟩, rfl, rfl⟩ := entered
  by_cases valid : task < c.tasks.size
  · have told : l.entered.refresh.priorityOf ⟨task, valid⟩ = k.entered.refresh.priorityOf ⟨task, valid⟩ := by
      rw [refresh_entered, refresh_entered]
      exact concur.priority ⟨task, valid⟩
    unfold taskId
    rw [dif_pos valid, dif_pos (show task < (c.under p).tasks.size from valid)]
    exact ⟨congrArg (fun n => Progress.done (.number n)) told, mirrors.refresh⟩
  · unfold taskId
    rw [dif_neg valid, dif_neg (show ¬ task < (c.under p).tasks.size from valid)]
    rfl

/-- Whatever a task can read is the same under both policies. -/
theorem snapshot (t : c.TaskId) : l.snapshot t = k.snapshot t := by
  have priorities : (List.finRange (c.under p).tasks.size).map l.refresh.priorityOf =
      (List.finRange c.tasks.size).map k.refresh.priorityOf :=
    List.map_congr_left fun u _ => concur.priority u
  have signals : l.tasks[t].signals = k.tasks[t].signals := by
    rw [h.same, k.task_recast]
    rfl
  have remaining : (c.under p).userTimerIds.map l.ticksToFiring = c.userTimerIds.map k.ticksToFiring := by
    rw [h.same]
    exact List.map_congr_left fun timer _ => k.ticksToFiring_recast l.schedule timer
  have holders : l.holders = k.holders := congrArg Kernel.holders h.same
  have semaphores : l.semaphores = k.semaphores := congrArg Kernel.semaphores h.same
  have rings : l.rings = k.rings := congrArg Kernel.rings h.same
  simp only [Kernel.snapshot, priorities, signals, remaining, holders, semaphores, rings]

end Mirrors

end Kernel

end Rtos
