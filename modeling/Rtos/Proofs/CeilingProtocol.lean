import Mathlib.Data.List.Infix
import Rtos.Proofs.Kernel.Ceiling
import Rtos.Proofs.Transition
import Rtos.Showcase

/-!
# The ceiling policy excludes contention

Under the ceiling policy, tasks that hold no mutex while they wait for something else find every mutex free that they
may lock. So no task ever waits for a mutex.

* `Machine.Restrained`: the runs this is about.
* `Machine.Excluding`: the mutexes exclude contention (`Kernel.Excludes`), and no task is suspended in a wait for a
  mutex.
* `Machine.excluding_act`: every act of a restrained run keeps this.
* `Machine.contention_excluded`: the main result.
-/

namespace Rtos
set_option autoImplicit false

variable {c : Config}

namespace Machine
open Kernel

variable {m m' : Machine c} {detour : Prop}

/-! ## Restrained runs -/

/-- From one machine to the next, no task comes to wait for anything but a mutex while it holds a mutex. -/
def KeepsHolders (m m' : Machine c) : Prop :=
  ∀ (t : c.TaskId) (x : c.MutexId) wait, m.kernel.isRunnable t = true → m'.kernel.isRunnable t = false →
    m'.kernel.holders[x] = some t → m'.suspensions[t] = .waiting wait →
    ∃ y deadline, wait = .request (.lock y) deadline

/-- No task yields to another one, and none comes to wait for anything but a mutex while it holds a mutex. -/
def Restrained (c : Config) (acts : List Act) : Prop :=
  ∀ before a after, acts = before ++ a :: after →
    (∀ task, a ≠ .move (.call (.yieldTo task))) ∧ KeepsHolders (play c before) (play c (before ++ [a]))

theorem Restrained.of_concat {acts : List Act} {a : Act} (h : Restrained c (acts ++ [a])) : Restrained c acts := by
  intro before b after he
  exact h before b (after ++ [a]) (by rw [he, List.append_assoc, List.cons_append])

theorem Restrained.not_detoured {acts : List Act} (h : Restrained c acts) : ¬ Detoured c acts := by
  rintro ⟨before, a, after, he, ⟨task, ha, _⟩, _⟩
  exact (h before a after he).1 task ha

/-- A run is restrained if no task yields to another one and all holders of mutexes are runnable all the time. -/
theorem restrained_of_runnable {acts : List Act} (hy : ∀ a ∈ acts, ∀ task, a ≠ .move (.call (.yieldTo task)))
    (hr : ∀ part ∈ acts.inits, ∀ (x : c.MutexId) (t : c.TaskId), (play c part).kernel.holders[x] = some t →
      (play c part).kernel.isRunnable t = true) : Restrained c acts := by
  intro before a after he
  refine ⟨hy a (by simp [he]), fun t x wait _ hn hx _ => ?_⟩
  have hm : before ++ [a] ∈ acts.inits := by
    rw [List.mem_inits, he]
    exact ⟨after, by simp⟩
  cases hn.symm.trans (hr _ hm x t hx)

/-! ## Exclusion -/

/-- No task is suspended in a wait for a mutex and, as long as the run is not over, the mutexes exclude contention. -/
structure Excluding (m : Machine c) : Prop where
  suspended : ∀ t : c.TaskId, m.suspensions[t].mutex? = none
  excludes : (∀ ending, m.control ≠ .ended ending) → m.kernel.Excludes

theorem excluding_ended (h : ∀ t : c.TaskId, m.suspensions[t].mutex? = none) {l : Kernel c} {ending : Ending} :
    ({ m with kernel := l, control := .ended ending } : Machine c).Excluding :=
  ⟨h, fun hn => absurd rfl (hn ending)⟩

theorem suspended_set (h : ∀ t : c.TaskId, m.suspensions[t].mutex? = none) (t : c.TaskId) {s : Suspension c}
    (hs : s.mutex? = none) (u : c.TaskId) : (m.suspensions.set t s)[u].mutex? = none := by
  by_cases hu : u = t
  · subst hu
    have self : (m.suspensions.set u s)[u] = s := Table.getElem_set_self ..
    rw [self, hs]
  · rw [Table.getElem_set_of_ne m.suspensions s hu, h u]

/-! ## Critical sections -/

/-- An operation that asks for no mutex. If the task stops, it must not hold any. -/
theorem excluding_proceed {k l : Kernel c} {t : c.TaskId} {p : Progress c} (h : k.Executes m.suspensions t detour)
    (hs : ∀ t : c.TaskId, m.suspensions[t].mutex? = none) (hx : k.Excludes) (hr : m.kernel.isRunnable t = true)
    (hg : Goes t k none p l) (hk : KeepsHolders m (proceed p { m with kernel := l })) :
    (proceed p { m with kernel := l }).Excluding := by
  cases hg with
  | done value edits takes => exact ⟨hs, fun _ => hx.of_narrows (h.owned.narrows edits fun x hx => nomatch takes x hx)⟩
  | @stops l k' es s edits takes stop waits =>
    have executes := h.edits edits
    have excludes := hx.of_narrows (h.owned.narrows edits fun x hx => nomatch takes x hx)
    have thread := stop.frame.thread executes.owned.thread
    have other : s.mutex? = none := by
      cases hm : s.mutex? with
      | none => rfl
      | some x => cases waits x hm
    rw [proceed_dispatch thread] at hk ⊢
    refine ⟨suspended_set hs t other, fun _ => excludes.stops executes.owned.scheduled stop fun x hx => ?_⟩
    by_contra hn
    rw [Bool.not_eq_true] at hn
    have self : (m.suspensions.set t s)[t] = s := Table.getElem_set_self ..
    cases stop with
    | yields => cases hn.symm.trans (executes.owned.waits.active_runnable t rfl)
    | suspends wait =>
      obtain ⟨y, deadline, rfl⟩ := hk t x wait hr hn hx self
      cases waits y rfl
    | awaits r deadline refused =>
      obtain ⟨y, deadline', he⟩ := hk t x _ hr hn hx self
      cases he
      cases waits y rfl

/-- What a call for a mutex comes to, if the mutexes that the task may lock are free. -/
theorem excluding_lock {t : c.TaskId} {mutex : Nat} {patience : Patience} {p : Progress c} {l : Kernel c}
    (hs : ∀ t : c.TaskId, m.suspensions[t].mutex? = none) (hx : m.kernel.Excludes) (hp : c.policy = .ceiling)
    (he : m.kernel.Executes m.suspensions t detour) (hr : m.kernel.Ready t) (hd : m.kernel.decision = .ok (some t))
    (result : perform (.lock mutex patience) m.kernel = .ok p l) : (proceed p { m with kernel := l }).Excluding := by
  have done := (hr.lock_done (fun x hm => hx.free he.owned.scheduled hp hd hm) mutex patience).of_result result
  have entered : m.kernel.entered.Excludes := hx.of_narrows (.of_eq rfl fun _ => rfl)
  obtain ⟨value, rfl, rfl | ⟨x, hm, rfl⟩⟩ := done
  · exact ⟨hs, fun _ => entered⟩
  · have owned : m.kernel.entered.Executes m.suspensions t detour := he.edits (.one (e := .enter) trivial)
    have quiet : Quiet m.kernel m.kernel.entered := ⟨rfl, rfl, fun _ => rfl⟩
    exact ⟨hs, fun _ => entered.takeMutex owned.owned.scheduled hp (quiet.decision.trans hd) hm⟩

/-! ## Acts -/

theorem Transition.excluding {a : Act} (h : Transition m False a m') (he : m.Excluding) (hx : m.kernel.Excludes)
    (hp : c.policy = .ceiling) (hy : ∀ task, a ≠ .move (.call (.yieldTo task))) (hk : KeepsHolders m m') :
    m'.Excluding := by
  have hs := he.suspended
  -- Wherever no task takes a mutex or stops, the mutexes exclude contention for the same reasons as before.
  have same : ∀ {l : Kernel c}, l.holders = m.kernel.holders → (∀ u, l.isRunnable u = m.kernel.isRunnable u) →
      l.Excludes := fun hh hr => hx.of_narrows (.of_eq hh hr)
  have fresh : m.kernel.refresh.Excludes := by
    obtain ⟨s, hs, hr⟩ := m.kernel.refresh_eq
    rw [hs]
    exact same rfl hr
  cases h with
  | rests => exact he
  | stops ending scheduled => exact excluding_ended hs
  | fails scheduled misplaced => exact excluding_ended hs
  | settles control between settled narrows => exact ⟨hs, fun _ => hx.of_narrows narrows⟩
  | idles control between decision idled => exact ⟨hs, fun _ => fresh.of_narrows idled.narrows⟩
  | dispatches control between settled decision handed => exact ⟨hs, fun _ => fresh.of_narrows handed.narrows⟩
  | returns control resumes reply suspended => exact ⟨hs, fun _ => hx⟩
  | @wakes t wait es k l p control resumes suspended edits takes executes goes =>
    have other : wait.mutex? = none := by
      have hm := hs t
      rwa [suspended] at hm
    rw [other] at goes
    exact excluding_proceed executes hs (hx.of_narrows (resumes.owned.narrows edits takes)) resumes.runnable goes hk
  | leaves control executes context unasked => exact ⟨hs, fun _ => same rfl fun _ => rfl⟩
  | @preempts t reply control executes context => exact ⟨suspended_set hs t rfl, fun _ => same rfl fun _ => rfl⟩
  | @calls t reply p l control executes ready unasked call other result goes disabled =>
    have decided : m.kernel.decision = .ok (some t) := by
      rcases executes.owned.decided with hpend | hd | hd
      · cases unasked.symm.trans hpend
      · exact hd.elim
      · exact hd
    by_cases hl : ∃ mutex patience, call = .lock mutex patience
    · obtain ⟨mutex, patience, rfl⟩ := hl
      exact excluding_lock hs hx hp executes ready decided result
    · have notAsked : call.mutex? c = none := by
        cases call with
        | lock mutex patience => exact absurd ⟨mutex, patience, rfl⟩ hl
        | _ => rfl
      rw [notAsked] at goes
      exact excluding_proceed executes hs hx (executes.owned.waits.active_runnable t rfl) goes hk
  | yields control executes ready task => exact absurd rfl (hy task)
  | yieldsTo control executes ready task runnable handed => exact absurd rfl (hy task)
  | strays control executes task halts => exact absurd rfl (hy task)
  | interrupts control executes enabled => exact ⟨hs, fun _ => same rfl fun _ => rfl⟩
  | raises control executes context enabled call event => exact ⟨hs, fun _ => same rfl fun _ => rfl⟩
  | ticks control executes context enabled => exact ⟨hs, fun _ => same rfl fun _ => rfl⟩
  | services control executes enabled => exact ⟨hs, fun _ => same rfl fun _ => rfl⟩
  | continues control executes enabled unasked => exact ⟨hs, fun _ => same rfl fun _ => rfl⟩

theorem excluding_act (h : m.Excluding) (hp : c.policy = .ceiling)
    (ht : (∀ ending, m.control ≠ .ended ending) → c.tasks.size ≤ c.timerCount) (ho : m.Orderly False) (a : Act)
    (hy : ∀ task, a ≠ .move (.call (.yieldTo task))) (hk : KeepsHolders m (m.act a)) : (m.act a).Excluding := by
  by_cases he : ∃ ending, m.control = .ended ending
  · obtain ⟨ending, he⟩ := he
    rw [act_ended he]
    exact h
  exact (ho.transition ht a).excluding h (h.excludes fun ending hc => he ⟨ending, hc⟩) hp hy hk

/-! ## Runs -/

theorem excluding_boot (c : Config) : (boot c).Excluding := by
  have entry : ∀ t : c.TaskId, (initial c).suspensions[t].mutex? = none := by
    intro t
    have he : (initial c).suspensions[t] = .entry := Table.getElem_replicate ..
    rw [he]
    rfl
  refine run_of_ends (P := Excluding) (boot_spec (Unstarted.initial c) rfl) (fun _ l hl => ⟨entry, fun _ => ?_⟩)
    fun _ _ _ => excluding_ended entry
  have free : ∀ (x : c.MutexId) u, l.holders[x] ≠ some u := by
    intro x u hx
    have hn : l.holders[x] = none := by
      rw [hl.2.1]
      exact Table.getElem_replicate ..
    cases hn.symm.trans hx
  exact ⟨fun x u hx => absurd hx (free x u), fun x u hx => absurd hx (free x u),
    fun a b _ => .inl fun x hx => absurd hx (free x b)⟩

theorem excluding_play (hp : c.policy = .ceiling) (acts : List Act) (hr : Restrained c acts) :
    (play c acts).Excluding := by
  induction acts using play_induction with
  | boot => exact excluding_boot c
  | act acts a ih =>
    obtain ⟨orderly, timers⟩ := orderly_play (c := c) acts
    obtain ⟨hy, hk⟩ := hr acts a [] rfl
    rw [play_concat] at hk
    exact excluding_act (ih hr.of_concat) hp timers (orderly.mono fun _ hd => hr.of_concat.not_detoured hd) a hy hk

/-- Nobody who is suspended waits for a mutex, and so nobody is on record as waiting for one. -/
theorem Excluding.not_blocked (h : m.Excluding) {active : Option c.TaskId} (hw : m.kernel.Waits m.suspensions active)
    (t holder : c.TaskId) : ¬ m.kernel.BlockedBy t holder := by
  rintro ⟨hr, x, hx, _⟩
  have stopped : active ≠ some t := by
    intro ht
    cases hr.symm.trans (hw.active_runnable t ht)
  obtain ⟨r, ⟨deadline, hs⟩, hrx⟩ := hw.recorded t _ stopped hx
  have other := h.suspended t
  rw [hs] at other
  cases r with
  | lock y => cases other
  | token s => cases hrx
  | put q message => cases hrx
  | get q message => cases hrx

/-- Under the ceiling policy, in a run in which no task yields to another one and none comes to wait for anything but a
mutex while it holds a mutex: if the running task calls for a mutex that it does not hold and that the ceilings let it
lock, the mutex is free and the task has it at once. No task is ever suspended in a wait for a mutex, and none is
blocked by another one, let alone by itself through others. -/
theorem contention_excluded (c : Config) (hp : c.policy = .ceiling) (acts : List Act) (hr : Restrained c acts) :
    (∀ (reply : Option Value) (u : c.TaskId) (x : c.MutexId) (patience : Patience),
      (play c acts).control = .application reply → (play c acts).kernel.running = some u →
      (play c acts).kernel.holders[x] ≠ some u → (play c acts).kernel.mayLock x u = true → Accepts patience →
      (play c acts).kernel.holders[x] = none ∧
        (play c (acts ++ [.move (.call (.lock x patience))])).control = .leaving (some (granted patience)) ∧
        (play c (acts ++ [.move (.call (.lock x patience))])).kernel.holders =
          (play c acts).kernel.holders.set x (some u)) ∧
    (∀ (t : c.TaskId) x deadline, (play c acts).suspensions[t] ≠ .waiting (.request (.lock x) deadline)) ∧
    ((∀ ending, (play c acts).control ≠ .ended ending) →
      (∀ t holder, ¬ (play c acts).kernel.BlockedBy t holder) ∧
        ∀ t, ¬ Relation.TransGen (play c acts).kernel.BlockedBy t t) := by
  have excluding := excluding_play hp acts hr
  have orderly : (play c acts).Orderly False := (orderly_play acts).1.mono fun _ hd => hr.not_detoured hd
  refine ⟨fun reply u x patience hc hu hx hm hpat => ?_, fun t x deadline hs => ?_, fun hn => ?_⟩
  · have running : ∀ ending, (play c acts).control ≠ .ended ending := by
      intro ending he
      cases hc.symm.trans he
    unfold Orderly at orderly
    rw [hc] at orderly
    obtain ⟨t, executes, ready, unasked⟩ := orderly
    obtain rfl : u = t := Option.some.inj (hu.symm.trans executes.owned.running)
    have decided := (executes.owned.decided.resolve_left (by simp [unasked])).resolve_left id
    have free := ((excluding.excludes running).free executes.owned.scheduled hp decided hm).resolve_right hx
    have taken : (play c acts).act (.move (.call (.lock x patience))) =
        { play c acts with
          kernel := (play c acts).kernel.entered.takeMutex x u, control := .leaving (some (granted patience)) } := by
      simp only [act, move, hc, run, ready.perform_lock free hm hpat]
      rfl
    rw [play_concat, taken]
    exact ⟨free, rfl, rfl⟩
  · have other := excluding.suspended t
    rw [hs] at other
    cases other
  · have blocked := excluding.not_blocked (orderly.waits hn)
    refine ⟨blocked, fun t ht => ?_⟩
    obtain ⟨holder, hb, _⟩ := Relation.TransGen.head'_iff.mp ht
    exact blocked t holder hb

/-- The least urgent task locks a mutex of the task in the middle and wakes both others. The most urgent task runs at
once, the one in the middle has to wait for its turn. -/
def lockAndWake : List Act :=
  [.step, .step, .step, .step, .move (.call .block), .step, .step, .step, .step,
    .move (.call (.lock 0 .forever)), .step, .move (.call (.unblock 1)), .step, .step, .step, .step, .step,
    .move (.call (.unblock 0)), .step, .step, .step, .step, .step]

theorem contention_excluded_lockAndWake :
    (Showcase.full .ceiling).scenario.config.policy = .ceiling ∧
      Restrained (Showcase.full .ceiling).scenario.config lockAndWake ∧
      (play (Showcase.full .ceiling).scenario.config
        (lockAndWake ++ [.move (.call (.lock 1 .forever))])).control = .leaving (some .unit) := by
  have restrained : Restrained (Showcase.full .ceiling).scenario.config lockAndWake :=
    restrained_of_runnable (by simp [lockAndWake]) (by decide +kernel)
  have excluded := contention_excluded (Showcase.full .ceiling).scenario.config rfl lockAndWake restrained
  have locked := excluded.1 (some .unit) ⟨0, by decide⟩ ⟨1, by decide⟩ .forever (by decide +kernel) (by decide +kernel)
    (by decide +kernel) (by decide +kernel) nofun
  exact ⟨rfl, restrained, locked.2.1⟩

end Machine

end Rtos
