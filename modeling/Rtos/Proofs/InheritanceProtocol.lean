import Rtos.Proofs.Transition
import Rtos.Showcase

/-!
# Priority inheritance is exact

Under the inheritance policy a task that waits for a mutex, without being runnable, is blocked by the holder. The
priorities are kept from one decision to the next, and yet they are always those that follow from who blocks whom,
however long the chains are, and even if they are cycles.

* `Kernel.Chain`: who blocks whom, through any number of others.
* `Kernel.InheritsExactly`: what the kernel tells about priorities, and what it decides by them.
* `Machine.inheritsExactly_play`: it does so throughout every run.
-/

namespace Rtos
set_option autoImplicit false

variable {c : Config}

namespace Kernel

variable {k : Kernel c}

/-- From `u` one comes to `t` by going from a task to the one it is blocked by, again and again or not at all. -/
def Chain (k : Kernel c) : c.TaskId → c.TaskId → Prop := Relation.ReflTransGen k.BlockedBy

theorem chain_eq_reaches (k : Kernel c) : k.Chain = Inheritance.Reaches k.blocker := by
  have blocked : k.BlockedBy = fun u h => k.blocker u = some h := by
    funext u h
    exact propext (k.blocker_eq_some_iff u h).symm
  rw [Chain, Inheritance.Reaches, blocked]

/-! ## The priorities that are kept -/

/-- A schedule of the inheritance policy that has been brought up to date holds the priorities that propagation
gives. -/
theorem Scheduled.schedule_refresh (h : k.Scheduled) (hp : c.policy = .inheritance) : ∃ runnable,
    k.refresh.schedule = .inheritance runnable (Inheritance.propagate k.blocker) false ∧
      ∀ u : c.TaskId, runnable[u] = k.isRunnable u := by
  have fits := h.fits
  have agrees := h.agrees
  cases hs : k.schedule with
  | strict runnable =>
    rw [hs] at fits
    cases hp.symm.trans fits
  | ceiling slots =>
    rw [hs] at fits
    cases hp.symm.trans fits.1
  | inheritance runnable priorities stale =>
    have same : ∀ u : c.TaskId, runnable[u] = k.isRunnable u := by
      intro u
      rw [isRunnable, hs]
      rfl
    cases stale with
    | true =>
      refine ⟨runnable, ?_, same⟩
      rw [refresh_of_stale hs]
    | false =>
      rw [hs] at agrees
      have hk : priorities = Inheritance.propagate k.blocker := agrees rfl
      subst hk
      have hr : k.refresh = k := by
        unfold Kernel.refresh
        rw [hs]
      exact ⟨runnable, by rw [hr, hs], same⟩

theorem Scheduled.priorityOf_refresh (h : k.Scheduled) (hp : c.policy = .inheritance) (t : c.TaskId) :
    k.refresh.priorityOf t = (Inheritance.propagate k.blocker)[t] := by
  obtain ⟨runnable, hs, _⟩ := h.schedule_refresh hp
  unfold priorityOf
  rw [hs]

/-! ## The task that is chosen -/

theorem foldl_moreUrgent_le (priorities : Table Nat c.tasks.size) (tasks : List c.TaskId) (best : Option c.TaskId)
    {t : c.TaskId} (h : tasks.foldl (moreUrgent priorities) best = some t) :
    (∀ b : c.TaskId, best = some b → priorities[t] ≤ priorities[b]) ∧ ∀ u ∈ tasks, priorities[t] ≤ priorities[u] := by
  induction tasks generalizing best with
  | nil =>
    refine ⟨fun b hb => ?_, nofun⟩
    cases hb.symm.trans h
    exact Nat.le_refl _
  | cons u us ih =>
    rw [List.foldl_cons] at h
    obtain ⟨hbest, hus⟩ := ih _ h
    have hle : (∀ b : c.TaskId, best = some b → priorities[t] ≤ priorities[b]) ∧ priorities[t] ≤ priorities[u] := by
      unfold moreUrgent at hbest
      split at hbest
      · exact ⟨nofun, hbest u rfl⟩
      · next b =>
        split at hbest
        · next hlt =>
          have hu := hbest u rfl
          refine ⟨fun b' hb => ?_, hu⟩
          cases hb
          exact Nat.le_of_lt (Nat.lt_of_le_of_lt hu hlt)
        · next hge =>
          have hb := hbest b rfl
          refine ⟨fun b' hb' => ?_, Nat.le_trans hb (Nat.le_of_not_lt hge)⟩
          cases hb'
          exact hb
    refine ⟨hle.1, fun v hv => ?_⟩
    rcases List.mem_cons.mp hv with rfl | hv
    · exact hle.2
    · exact hus v hv

theorem foldl_moreUrgent_some (priorities : Table Nat c.tasks.size) (tasks : List c.TaskId) (b : c.TaskId) :
    ∃ t, tasks.foldl (moreUrgent priorities) (some b) = some t := by
  induction tasks generalizing b with
  | nil => exact ⟨b, rfl⟩
  | cons u us ih =>
    rw [List.foldl_cons, moreUrgent]
    split
    · exact ih u
    · exact ih b

/-- The policy chooses a task that is runnable, and none of the runnable tasks is more urgent; it chooses none only if
there is none. -/
theorem Scheduled.choice_inheritance (h : k.Scheduled) (hp : c.policy = .inheritance) :
    (k.decision = .ok none ∧ ∀ t, k.isRunnable t = false) ∨
      ∃ t, k.decision = .ok (some t) ∧ k.isRunnable t = true ∧ ∀ u, k.isRunnable u = true →
        (Inheritance.propagate k.blocker)[t] ≤ (Inheritance.propagate k.blocker)[u] := by
  obtain ⟨runnable, hs, same⟩ := h.schedule_refresh hp
  have decision : k.decision = .ok (((List.finRange c.tasks.size).filter fun task => runnable[task]).foldl
      (moreUrgent (Inheritance.propagate k.blocker)) none) := by
    rw [← decision_refresh, decision_inheritance hs, blocker_refresh]
  have mem : ∀ u : c.TaskId, u ∈ (List.finRange c.tasks.size).filter (fun task => runnable[task]) ↔
      k.isRunnable u = true := by
    intro u
    rw [List.mem_filter, ← same u]
    exact ⟨fun hu => hu.2, fun hu => ⟨List.mem_finRange u, hu⟩⟩
  cases hl : (List.finRange c.tasks.size).filter fun task => runnable[task] with
  | nil =>
    rw [hl] at decision
    refine .inl ⟨decision, fun t => Bool.eq_false_iff.mpr fun ht => ?_⟩
    have hm := (mem t).mpr ht
    rw [hl] at hm
    cases hm
  | cons b ts =>
    obtain ⟨t, ht⟩ := foldl_moreUrgent_some (Inheritance.propagate k.blocker) ts b
    rw [hl, List.foldl_cons, show moreUrgent (Inheritance.propagate k.blocker) none b = some b from rfl, ht] at decision
    obtain ⟨hb, hts⟩ := foldl_moreUrgent_le _ _ _ ht
    refine .inr ⟨t, decision, h.isRunnable_of_decision decision, fun u hu => ?_⟩
    have hm := (mem u).mpr hu
    rw [hl] at hm
    rcases List.mem_cons.mp hm with rfl | hm
    · exact hb u rfl
    · exact hts u hm

theorem refresh_entered (k : Kernel c) : k.entered.refresh = k.refresh.entered := by
  unfold refresh
  have hs : k.entered.schedule = k.schedule := rfl
  rw [hs]
  split <;> rfl

theorem Ready.perform_effectivePriority {u : c.TaskId} (h : k.Ready u) (t : c.TaskId) :
    perform (.effectivePriority t) k = .ok (.done (.number (k.refresh.priorityOf t))) k.refresh.entered := by
  have same : k.refresh.entered.priorityOf t = k.refresh.priorityOf t := rfl
  refine Ends.eq_ok ?_
  rw [perform, ends_bind, h.ends_enter]
  simp only [effectivePriority, ends_bind, ends_taskId, ends_modify, ends_get, ends_pure, refresh_entered]
  exact ⟨fun _ => ⟨congrArg (fun p => Progress.done (.number p)) same, trivial⟩, fun hn => hn t.isLt⟩

/-! ## Exact inheritance -/

/-- The priorities the kernel tells are those inherited along the chains of blocked tasks, and it decides by them. -/
structure InheritsExactly (k : Kernel c) : Prop where
  /-- The priority the kernel tells, and decides by, is the least number among the tasks whose chain comes to the
  task. -/
  priority : ∀ t, effectivePriority t k = .ok (k.refresh.priorityOf t) k.refresh ∧
    IsLeast {p | ∃ u, k.Chain u t ∧ u.val = p} (k.refresh.priorityOf t)
  /-- Runnable tasks have different priorities. -/
  distinct : ∀ s t, k.isRunnable s = true → k.isRunnable t = true → k.refresh.priorityOf s = k.refresh.priorityOf t →
    s = t
  /-- The policy always has an answer. -/
  answers : ∃ task, choose k = .ok task k.refresh
  /-- It chooses no task only if none is runnable. -/
  idle : choose k = .ok none k.refresh ↔ ∀ t, k.isRunnable t = false
  /-- Otherwise it takes the most urgent of the tasks whose chain comes to a runnable task, and chooses that one. -/
  chosen : ∀ t, choose k = .ok (some t) k.refresh ↔
    k.isRunnable t = true ∧ ∃ u, k.Chain u t ∧ ∀ v s, k.Chain v s → k.isRunnable s = true → u ≤ v

theorem Scheduled.chain_of_decision (h : k.Scheduled) (hp : c.policy = .inheritance) {t : c.TaskId}
    (hd : k.decision = .ok (some t)) : k.isRunnable t = true ∧
      ∃ u, k.Chain u t ∧ ∀ v s, k.Chain v s → k.isRunnable s = true → u ≤ v := by
  rcases h.choice_inheritance hp with ⟨hn, _⟩ | ⟨t', hd', runnable, urgent⟩
  · cases hn.symm.trans hd
  · cases hd'.symm.trans hd
    rw [chain_eq_reaches]
    obtain ⟨u, hu, he⟩ := (Inheritance.propagate_isLeast k.blocker t).1
    refine ⟨runnable, u, hu, fun v s hv hs => ?_⟩
    have least := (Inheritance.propagate_isLeast k.blocker s).2 ⟨v, hv, rfl⟩
    have urgent := urgent s hs
    exact Fin.le_def.mpr (he ▸ Nat.le_trans urgent least)

/-- A schedule that agrees with the rest of the state makes inheritance exact. -/
theorem Scheduled.inheritsExactly (h : k.Scheduled) (hp : c.policy = .inheritance) : k.InheritsExactly where
  priority t := by
    refine ⟨rfl, ?_⟩
    rw [h.priorityOf_refresh hp, chain_eq_reaches]
    exact Inheritance.propagate_isLeast k.blocker t
  distinct s t hs ht he := by
    rw [h.priorityOf_refresh hp, h.priorityOf_refresh hp] at he
    exact Inheritance.propagate_injective_on_ends k.blocker (blocker_of_isRunnable hs) (blocker_of_isRunnable ht) he
  answers := by
    obtain ⟨task, hd⟩ := h.exists_decision
    exact ⟨task, choose_eq h hd⟩
  idle := by
    rw [h.choose_iff]
    rcases h.choice_inheritance hp with ⟨hd, hn⟩ | ⟨t, hd, ht, _⟩
    · exact ⟨fun _ => hn, fun _ => hd⟩
    · rw [hd]
      refine ⟨nofun, fun hn => ?_⟩
      cases (hn t).symm.trans ht
  chosen t := by
    rw [h.choose_iff]
    refine ⟨h.chain_of_decision hp, ?_⟩
    rintro ⟨ht, u, hu, least⟩
    rcases h.choice_inheritance hp with ⟨_, hn⟩ | ⟨s, hd, _⟩
    · cases (hn t).symm.trans ht
    · obtain ⟨hs, v, hv, least'⟩ := h.chain_of_decision hp hd
      have huv : u = v := Fin.le_antisymm (least v s hv hs) (least' u t hu ht)
      subst huv
      rw [chain_eq_reaches] at hu hv
      rw [hv.end_unique hu (blocker_of_isRunnable hs) (blocker_of_isRunnable ht)] at hd
      exact hd

end Kernel

namespace Machine
open Kernel

variable {m : Machine c} {detour : Prop}

theorem Orderly.scheduled_inheritance (h : m.Orderly detour) (hp : c.policy = .inheritance) : m.kernel.Scheduled := by
  by_cases he : ∃ ending, m.control = .ended ending
  · obtain ⟨ending, he⟩ := he
    unfold Orderly at h
    rw [he] at h
    exact h hp
  · exact h.scheduled fun ending hc => he ⟨ending, hc⟩

/-- Whatever the tasks do and whenever the interrupts come: under the inheritance policy, priorities are inherited
exactly, and a program that asks for one is told the priority the policy decides by. -/
theorem inheritsExactly_play (c : Config) (hp : c.policy = .inheritance) (acts : List Act) :
    (play c acts).kernel.InheritsExactly ∧ ∀ reply, (play c acts).control = .application reply → ∀ t : c.TaskId,
      perform (.effectivePriority t) (play c acts).kernel =
        .ok (.done (.number ((play c acts).kernel.refresh.priorityOf t))) (play c acts).kernel.refresh.entered := by
  obtain ⟨orderly, _⟩ := orderly_play (c := c) acts
  refine ⟨(orderly.scheduled_inheritance hp).inheritsExactly hp, fun reply hc t => ?_⟩
  unfold Orderly at orderly
  rw [hc] at orderly
  obtain ⟨u, _, ready, _⟩ := orderly
  exact ready.perform_effectivePriority t

/-- The most urgent task comes to wait for the task in the middle, and that one for the least urgent task, which then
runs. -/
def waitInLine : List Act :=
  [.step, .step, .step, .step, .move (.call .block), .step, .step, .step, .step,
    .move (.call (.lock 0 .forever)), .step, .move (.call (.unblock 1)), .step, .step, .step, .step, .step,
    .move (.call (.lock 1 .forever)), .step, .move (.call (.unblock 0)), .step, .step, .step, .step, .step,
    .move (.call (.lock 1 .forever)), .step, .step, .step, .step, .move (.call (.lock 0 .forever)), .step, .step, .step,
    .step]

theorem inheritsExactly_waitInLine :
    (Showcase.full .inheritance).scenario.config.policy = .inheritance ∧
      (play (Showcase.full .inheritance).scenario.config waitInLine).kernel.InheritsExactly ∧
      perform (.effectivePriority 2) (play (Showcase.full .inheritance).scenario.config waitInLine).kernel =
        .ok (.done (.number 0))
          (play (Showcase.full .inheritance).scenario.config waitInLine).kernel.refresh.entered := by
  have exact := inheritsExactly_play (Showcase.full .inheritance).scenario.config rfl waitInLine
  have told := exact.2 (some .unit) (by decide +kernel) ⟨2, by decide⟩
  have inherited : (play (Showcase.full .inheritance).scenario.config waitInLine).kernel.refresh.priorityOf
      ⟨2, by decide⟩ = 0 := by decide +kernel
  rw [inherited] at told
  exact ⟨rfl, exact.1, told⟩

end Machine

end Rtos
