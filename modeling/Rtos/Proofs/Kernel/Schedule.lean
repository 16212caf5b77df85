import Rtos.Kernel.Boot
import Rtos.Kernel.Mutex
import Rtos.Proofs.Schedule.Inheritance
import Rtos.Proofs.Schedule.Slots

/-!
# What the schedule keeps

A schedule keeps more than who is runnable: the ceiling policy has its row of slots, and the inheritance policy the
priorities it computed last.

* `Schedule.Fits`: the schedule is one of the configured policy, over the row the configuration lays out.
* `Kernel.BlockedBy`: who waits for a mutex of whom; this is what `Kernel.blocker` computes.
* `Kernel.Scheduled`: it fits, and what it keeps agrees with the rest of the state. Every change of runnability, of a
  holder or of a wait for a mutex is announced to the schedule, and announced changes keep `Scheduled`, whatever else
  they touch (`Scheduled.of_setRunnable` and its siblings).
* `Kernel.decision`: the task the policy chooses, with the priorities computed anew. In a scheduled state the kept
  priorities make no difference to it (`Scheduled.next_refresh`).
-/

namespace Rtos
set_option autoImplicit false

variable {c : Config}

/-- The layout of the slots. -/
def Kernel.slots (c : Config) : List (SlotOwner c.tasks.size c.mutexes.size) :=
  slotLayout c.tasks.size c.mutexes.size (ceilingOf c)

/-- The row of slots as the kernel lays it out. -/
def Config.row (c : Config) : SlotTable c.tasks.size c.mutexes.size := SlotTable.ofLayout (Kernel.slots c)

/-! ## Schedules of the configured policy -/

namespace Schedule

/-- The schedule is one of the configured policy, over the row the configuration lays out. -/
def Fits (s : Schedule c) : Prop :=
  match s with
  | .strict _ => c.policy = .strict
  | .ceiling slots =>
    c.policy = .ceiling ∧ slots.Laid ∧ slots.taskSlot = c.row.taskSlot ∧ slots.mutexSlot = c.row.mutexSlot
  | .inheritance _ _ _ => c.policy = .inheritance

theorem Fits.setRunnable {s : Schedule c} (h : s.Fits) (t : c.TaskId) : (s.setRunnable t).Fits := by
  cases s with
  | strict runnable => exact h
  | ceiling slots => exact ⟨h.1, h.2.1.write _ _, h.2.2⟩
  | inheritance runnable priorities stale => exact h

theorem Fits.setBlocked {s : Schedule c} (h : s.Fits) (t : c.TaskId) : (s.setBlocked t).Fits := by
  cases s with
  | strict runnable => exact h
  | ceiling slots => exact ⟨h.1, h.2.1.write _ _, h.2.2⟩
  | inheritance runnable priorities stale => exact h

theorem Fits.mutexLocked {s : Schedule c} (h : s.Fits) (x : c.MutexId) (t : c.TaskId) : (s.mutexLocked x t).Fits := by
  cases s with
  | strict runnable => exact h
  | ceiling slots => exact ⟨h.1, h.2.1.write _ _, h.2.2⟩
  | inheritance runnable priorities stale => exact h

theorem Fits.mutexUnlocked {s : Schedule c} (h : s.Fits) (x : c.MutexId) : (s.mutexUnlocked x).Fits := by
  cases s with
  | strict runnable => exact h
  | ceiling slots => exact ⟨h.1, h.2.1.write _ _, h.2.2⟩
  | inheritance runnable priorities stale => exact h

theorem Fits.waitersChanged {s : Schedule c} (h : s.Fits) : s.waitersChanged.Fits := by
  cases s with
  | strict runnable => exact h
  | ceiling slots => exact h
  | inheritance runnable priorities stale => exact h

/-! ## Who is runnable -/

theorem Fits.isRunnable_setRunnable {s : Schedule c} (h : s.Fits) (t u : c.TaskId) :
    (s.setRunnable t).isRunnable u = (decide (u = t) || s.isRunnable u) := by
  cases s with
  | strict runnable =>
    by_cases hu : u = t
    · simp [Schedule.setRunnable, isRunnable, hu]
    · rw [decide_eq_false hu, Bool.false_or]
      exact Table.getElem_set_of_ne runnable true hu
  | ceiling slots => exact h.2.1.isRunnable_setRunnable t u
  | inheritance runnable priorities stale =>
    by_cases hu : u = t
    · simp [Schedule.setRunnable, isRunnable, hu]
    · rw [decide_eq_false hu, Bool.false_or]
      exact Table.getElem_set_of_ne runnable true hu

theorem Fits.isRunnable_setBlocked {s : Schedule c} (h : s.Fits) (t u : c.TaskId) :
    (s.setBlocked t).isRunnable u = (decide (u ≠ t) && s.isRunnable u) := by
  cases s with
  | strict runnable =>
    by_cases hu : u = t
    · simp [Schedule.setBlocked, isRunnable, hu]
    · rw [decide_eq_true hu, Bool.true_and]
      exact Table.getElem_set_of_ne runnable false hu
  | ceiling slots => exact h.2.1.isRunnable_setBlocked t u
  | inheritance runnable priorities stale =>
    by_cases hu : u = t
    · simp [Schedule.setBlocked, isRunnable, hu]
    · rw [decide_eq_true hu, Bool.true_and]
      exact Table.getElem_set_of_ne runnable false hu

theorem Fits.isRunnable_mutexLocked {s : Schedule c} (h : s.Fits) (x : c.MutexId) (t u : c.TaskId) :
    (s.mutexLocked x t).isRunnable u = s.isRunnable u := by
  cases s with
  | strict runnable => rfl
  | ceiling slots => exact h.2.1.isRunnable_write_mutex x _ u
  | inheritance runnable priorities stale => rfl

theorem Fits.isRunnable_mutexUnlocked {s : Schedule c} (h : s.Fits) (x : c.MutexId) (u : c.TaskId) :
    (s.mutexUnlocked x).isRunnable u = s.isRunnable u := by
  cases s with
  | strict runnable => rfl
  | ceiling slots => exact h.2.1.isRunnable_write_mutex x _ u
  | inheritance runnable priorities stale => rfl

theorem isRunnable_waitersChanged (s : Schedule c) (u : c.TaskId) :
    s.waitersChanged.isRunnable u = s.isRunnable u := by
  cases s <;> rfl

/-! ## What is kept besides -/

/-- What the schedule keeps besides agrees with the holders of the mutexes and with who blocks whom: the row of slots
follows the mutexes, and the kept priorities, unless they are stale, are those that result from the blocking. -/
def Agrees (s : Schedule c) (holders : Table (Option c.TaskId) c.mutexes.size)
    (blocker : c.TaskId → Option c.TaskId) : Prop :=
  match s with
  | .strict _ => True
  | .ceiling slots => slots.Tracks holders
  | .inheritance _ priorities stale => stale = false → priorities = Inheritance.propagate blocker

section Agrees
variable {s : Schedule c} {holders : Table (Option c.TaskId) c.mutexes.size}
  {blocker blocker' : c.TaskId → Option c.TaskId}

theorem Agrees.setRunnable (h : s.Agrees holders blocker) (hf : s.Fits) (t : c.TaskId) :
    (s.setRunnable t).Agrees holders blocker' := by
  cases s with
  | strict runnable => trivial
  | ceiling slots => exact SlotTable.Tracks.setRunnable h hf.2.1 t
  | inheritance runnable priorities stale => exact nofun

theorem Agrees.setBlocked (h : s.Agrees holders blocker) (hf : s.Fits) (t : c.TaskId) :
    (s.setBlocked t).Agrees holders blocker' := by
  cases s with
  | strict runnable => trivial
  | ceiling slots => exact SlotTable.Tracks.setBlocked h hf.2.1 t
  | inheritance runnable priorities stale => exact nofun

theorem Agrees.mutexLocked (h : s.Agrees holders blocker) (hf : s.Fits) (x : c.MutexId) (t : c.TaskId) :
    (s.mutexLocked x t).Agrees (holders.set x (some t)) blocker' := by
  cases s with
  | strict runnable => trivial
  | ceiling slots => exact SlotTable.Tracks.lock h hf.2.1 x t
  | inheritance runnable priorities stale => exact nofun

theorem Agrees.mutexUnlocked (h : s.Agrees holders blocker) (hf : s.Fits) (x : c.MutexId) :
    (s.mutexUnlocked x).Agrees (holders.set x none) blocker' := by
  cases s with
  | strict runnable => trivial
  | ceiling slots => exact SlotTable.Tracks.unlock h hf.2.1 x
  | inheritance runnable priorities stale => exact nofun

theorem Agrees.waitersChanged (h : s.Agrees holders blocker) : s.waitersChanged.Agrees holders blocker' := by
  cases s with
  | strict runnable => trivial
  | ceiling slots => exact h
  | inheritance runnable priorities stale => exact nofun

end Agrees

end Schedule

namespace Kernel

variable {k l : Kernel c}

/-! ## Blocked tasks -/

theorem blocker_of_isRunnable {u : c.TaskId} (h : k.isRunnable u = true) : k.blocker u = none := if_pos h

theorem blocker_of_wait {u : c.TaskId} {x : c.MutexId} (hr : k.isRunnable u = false)
    (hw : k.tasks[u].wait = some (.mutex x)) : k.blocker u = k.holders[x] := by
  unfold blocker
  rw [if_neg (Bool.eq_false_iff.mp hr), hw]

theorem blocker_of_no_mutex {u : c.TaskId} (hw : ∀ x, k.tasks[u].wait ≠ some (.mutex x)) : k.blocker u = none := by
  unfold blocker
  split
  · rfl
  · split
    · next x hx => exact absurd hx (hw x)
    · rfl

/-- The task `u` is not runnable and waits for a mutex that `h` holds. -/
def BlockedBy (k : Kernel c) (u h : c.TaskId) : Prop :=
  k.isRunnable u = false ∧ ∃ x, k.tasks[u].wait = some (.mutex x) ∧ k.holders[x] = some h

theorem blocker_eq_some_iff (k : Kernel c) (u h : c.TaskId) : k.blocker u = some h ↔ k.BlockedBy u h := by
  constructor
  · intro hb
    have hr : k.isRunnable u = false := by
      refine Bool.eq_false_iff.mpr fun hr => ?_
      rw [blocker_of_isRunnable hr] at hb
      cases hb
    by_cases hw : ∃ x, k.tasks[u].wait = some (.mutex x)
    · obtain ⟨x, hx⟩ := hw
      rw [blocker_of_wait hr hx] at hb
      exact ⟨hr, x, hx, hb⟩
    · rw [blocker_of_no_mutex fun x hx => hw ⟨x, hx⟩] at hb
      cases hb
  · rintro ⟨hr, x, hx, hb⟩
    rw [blocker_of_wait hr hx]
    exact hb

/-- Who blocks whom depends on nothing but who is runnable, what the others wait for, and who holds that. -/
theorem blocker_congr (hr : ∀ u, l.isRunnable u = k.isRunnable u)
    (hw : ∀ u, k.isRunnable u = false → l.tasks[u].wait = k.tasks[u].wait)
    (hh : ∀ u x, k.isRunnable u = false → k.tasks[u].wait = some (.mutex x) → l.holders[x] = k.holders[x]) :
    l.blocker = k.blocker := by
  funext u
  by_cases hu : k.isRunnable u = true
  · rw [blocker_of_isRunnable hu, blocker_of_isRunnable ((hr u).trans hu)]
  · rw [Bool.not_eq_true] at hu
    by_cases hx : ∃ x, k.tasks[u].wait = some (.mutex x)
    · obtain ⟨x, hx⟩ := hx
      rw [blocker_of_wait hu hx, blocker_of_wait ((hr u).trans hu) ((hw u hu).trans hx), hh u x hu hx]
    · rw [blocker_of_no_mutex fun x he => hx ⟨x, he⟩, blocker_of_no_mutex fun x he => hx ⟨x, (hw u hu) ▸ he⟩]

theorem blocker_waitersChanged (k : Kernel c) : k.waitersChanged.blocker = k.blocker :=
  blocker_congr (fun u => Schedule.isRunnable_waitersChanged k.schedule u) (fun _ _ => rfl) fun _ _ _ _ => rfl

/-! ## Schedules that agree with the state -/

/-- The schedule fits the configuration, and what it keeps agrees with the rest of the state. -/
structure Scheduled (k : Kernel c) : Prop where
  fits : k.schedule.Fits
  agrees : k.schedule.Agrees k.holders k.blocker

theorem Scheduled.of_schedule_eq (h : k.Scheduled) (hs : l.schedule = k.schedule) (hh : l.holders = k.holders)
    (hb : l.blocker = k.blocker) : l.Scheduled where
  fits := by
    rw [hs]
    exact h.fits
  agrees := by
    rw [hs, hh, hb]
    exact h.agrees

theorem Scheduled.of_setRunnable (h : k.Scheduled) {t : c.TaskId} (hs : l.schedule = k.schedule.setRunnable t)
    (hh : l.holders = k.holders) : l.Scheduled where
  fits := by
    rw [hs]
    exact h.fits.setRunnable t
  agrees := by
    rw [hs, hh]
    exact h.agrees.setRunnable h.fits t

theorem Scheduled.of_setBlocked (h : k.Scheduled) {t : c.TaskId} (hs : l.schedule = k.schedule.setBlocked t)
    (hh : l.holders = k.holders) : l.Scheduled where
  fits := by
    rw [hs]
    exact h.fits.setBlocked t
  agrees := by
    rw [hs, hh]
    exact h.agrees.setBlocked h.fits t

theorem Scheduled.of_mutexLocked (h : k.Scheduled) {x : c.MutexId} {t : c.TaskId}
    (hs : l.schedule = k.schedule.mutexLocked x t) (hh : l.holders = k.holders.set x (some t)) : l.Scheduled where
  fits := by
    rw [hs]
    exact h.fits.mutexLocked x t
  agrees := by
    rw [hs, hh]
    exact h.agrees.mutexLocked h.fits x t

theorem Scheduled.of_mutexUnlocked (h : k.Scheduled) {x : c.MutexId} (hs : l.schedule = k.schedule.mutexUnlocked x)
    (hh : l.holders = k.holders.set x none) : l.Scheduled where
  fits := by
    rw [hs]
    exact h.fits.mutexUnlocked x
  agrees := by
    rw [hs, hh]
    exact h.agrees.mutexUnlocked h.fits x

theorem Scheduled.of_waitersChanged (h : k.Scheduled) (hs : l.schedule = k.schedule.waitersChanged)
    (hh : l.holders = k.holders) : l.Scheduled where
  fits := by
    rw [hs]
    exact h.fits.waitersChanged
  agrees := by
    rw [hs, hh]
    exact h.agrees.waitersChanged

/-! ## Fresh priorities -/

/-- What stale priorities were makes no difference to those that replace them. -/
theorem refresh_of_stale {runnable : Table Bool c.tasks.size} {priorities : Table Nat c.tasks.size}
    (hs : k.schedule = .inheritance runnable priorities true) :
    k.refresh = { k with schedule := .inheritance runnable (Inheritance.propagate k.blocker) false } := by
  unfold refresh
  rw [hs]
  simp only [Inheritance.recompute_eq]

/-- Computing the priorities anew changes nothing but the schedule, and not who is runnable. -/
theorem refresh_eq (k : Kernel c) : ∃ s : Schedule c, k.refresh = { k with schedule := s } ∧
    (∀ u, s.isRunnable u = k.isRunnable u) := by
  unfold refresh
  split
  · next runnable priorities hs => exact ⟨_, rfl, fun u => by rw [isRunnable, hs]; rfl⟩
  · exact ⟨k.schedule, rfl, fun _ => rfl⟩

theorem blocker_refresh (k : Kernel c) : k.refresh.blocker = k.blocker := by
  obtain ⟨s, hs, hr⟩ := k.refresh_eq
  rw [hs]
  exact blocker_congr hr (fun _ _ => rfl) fun _ _ _ _ => rfl

theorem fits_refresh (h : k.schedule.Fits) : k.refresh.schedule.Fits := by
  unfold Kernel.refresh
  split
  · next hs =>
    rw [hs] at h
    exact h
  · exact h

theorem Scheduled.refresh (h : k.Scheduled) : k.refresh.Scheduled := by
  have hb := k.blocker_refresh
  unfold Kernel.refresh at hb ⊢
  split at hb
  · next runnable priorities hs =>
    have hf := h.fits
    rw [hs] at hf
    refine ⟨hf, fun _ => ?_⟩
    rw [Inheritance.recompute_eq] at hb ⊢
    exact congrArg Inheritance.propagate hb.symm
  · exact h

/-! ## The decision of the policy -/

/-- The task the policy chooses, with the priorities computed anew. -/
def decision (k : Kernel c) : Except FatalError (Option c.TaskId) := k.waitersChanged.refresh.next

theorem decision_inheritance {runnable : Table Bool c.tasks.size} {priorities : Table Nat c.tasks.size} {stale : Bool}
    (hs : k.schedule = .inheritance runnable priorities stale) :
    k.decision = .ok (((List.finRange c.tasks.size).filter fun task => runnable[task]).foldl
      (moreUrgent (Inheritance.propagate k.blocker)) none) := by
  rw [← k.blocker_waitersChanged]
  have hw : k.waitersChanged.schedule = .inheritance runnable priorities true := by
    rw [waitersChanged, hs]
    rfl
  rw [decision, refresh_of_stale hw]
  rfl

theorem decision_strict {runnable : Table Bool c.tasks.size} (hs : k.schedule = .strict runnable) :
    k.decision = .ok ((List.finRange c.tasks.size).find? fun task => runnable[task]) := by
  have hw : k.waitersChanged.schedule = .strict runnable := by
    rw [waitersChanged, hs]
    rfl
  have hr : k.waitersChanged.refresh = k.waitersChanged := by rw [Kernel.refresh, hw]
  rw [decision, hr, next, hw]

theorem decision_ceiling {slots : SlotTable c.tasks.size c.mutexes.size} (hs : k.schedule = .ceiling slots) :
    k.decision = slots.next := by
  have hw : k.waitersChanged.schedule = .ceiling slots := by
    rw [waitersChanged, hs]
    rfl
  have hr : k.waitersChanged.refresh = k.waitersChanged := by rw [Kernel.refresh, hw]
  rw [decision, hr, next, hw]

/-- The decision depends on nothing but the schedule and who blocks whom; announcing a change of the waits does not
matter. -/
theorem decision_congr (hs : l.schedule = k.schedule ∨ l.schedule = k.schedule.waitersChanged)
    (hb : l.blocker = k.blocker) : l.decision = k.decision := by
  cases hk : k.schedule with
  | inheritance runnable priorities stale =>
    have hl : ∃ stale', l.schedule = .inheritance runnable priorities stale' := by
      rcases hs with hs | hs
      · exact ⟨stale, hs.trans hk⟩
      · exact ⟨true, hs.trans (by rw [hk]; rfl)⟩
    obtain ⟨stale', hl⟩ := hl
    rw [decision_inheritance hk, decision_inheritance hl, hb]
  | strict runnable =>
    have hl : l.schedule = .strict runnable := by
      rcases hs with hs | hs <;> rw [hs, hk]
      rfl
    rw [decision_strict hk, decision_strict hl]
  | ceiling slots =>
    have hl : l.schedule = .ceiling slots := by
      rcases hs with hs | hs <;> rw [hs, hk]
      rfl
    rw [decision_ceiling hk, decision_ceiling hl]

theorem decision_refresh (k : Kernel c) : k.refresh.decision = k.decision := by
  have hb := k.blocker_refresh
  unfold Kernel.refresh at hb ⊢
  split at hb
  · next runnable priorities hs => rw [decision_inheritance hs, decision_inheritance rfl, hb]
  · rfl

/-- What the policy is asked for is the decision: kept priorities make no difference. -/
theorem Scheduled.next_refresh (h : k.Scheduled) : k.refresh.next = k.decision := by
  have ha := h.agrees
  cases hs : k.schedule with
  | inheritance runnable priorities stale =>
    rw [decision_inheritance hs]
    cases stale with
    | true =>
      rw [refresh_of_stale hs]
      rfl
    | false =>
      rw [hs] at ha
      have hp : priorities = Inheritance.propagate k.blocker := ha rfl
      subst hp
      have hr : k.refresh = k := by
        unfold Kernel.refresh
        rw [hs]
      rw [hr, next, hs]
  | strict runnable =>
    rw [decision_strict hs, Kernel.refresh, hs, next, hs]
  | ceiling slots =>
    rw [decision_ceiling hs, Kernel.refresh, hs, next, hs]

/-! ## What is known of the task that is chosen -/

theorem foldl_moreUrgent_mem (priorities : Table Nat c.tasks.size) (tasks : List c.TaskId) (best : Option c.TaskId)
    {t : c.TaskId} (h : tasks.foldl (moreUrgent priorities) best = some t) : best = some t ∨ t ∈ tasks := by
  induction tasks generalizing best with
  | nil => exact .inl h
  | cons u us ih =>
    rw [List.foldl_cons] at h
    rcases ih _ h with hb | hm
    · unfold moreUrgent at hb
      split at hb
      · cases hb
        exact .inr List.mem_cons_self
      · split at hb
        · cases hb
          exact .inr List.mem_cons_self
        · cases hb
          exact .inl rfl
    · exact .inr (List.mem_cons_of_mem u hm)

theorem Scheduled.isRunnable_of_decision (h : k.Scheduled) {t : c.TaskId} (hd : k.decision = .ok (some t)) :
    k.isRunnable t = true := by
  have hf := h.fits
  have ha := h.agrees
  unfold isRunnable
  cases hs : k.schedule with
  | strict runnable =>
    rw [decision_strict hs] at hd
    injection hd with hd
    exact List.find?_some hd
  | ceiling slots =>
    rw [hs] at hf ha
    rw [decision_ceiling hs] at hd
    exact ((SlotTable.Tracks.next_eq_ok_iff ha hf.2.1 t).mp hd).isRunnable ha hf.2.1
  | inheritance runnable priorities stale =>
    rw [decision_inheritance hs] at hd
    injection hd with hd
    rcases foldl_moreUrgent_mem _ _ _ hd with hn | hm
    · cases hn
    · exact (List.mem_filter.mp hm).2

theorem Scheduled.exists_decision (h : k.Scheduled) : ∃ task, k.decision = .ok task := by
  have hf := h.fits
  have ha := h.agrees
  cases hs : k.schedule with
  | strict runnable =>
    rw [decision_strict hs]
    exact ⟨_, rfl⟩
  | ceiling slots =>
    rw [hs] at hf ha
    rw [decision_ceiling hs]
    exact SlotTable.Tracks.next_eq_ok ha hf.2.1
  | inheritance runnable priorities stale =>
    rw [decision_inheritance hs]
    exact ⟨_, rfl⟩

/-- If the chosen task takes a mutex and comes to block nobody by it, the policy still chooses that task. -/
theorem Scheduled.decision_takeMutex (h : k.Scheduled) {x : c.MutexId} {t : c.TaskId}
    (hd : k.decision = .ok (some t)) (hb : (k.takeMutex x t).blocker = k.blocker) :
    (k.takeMutex x t).decision = .ok (some t) := by
  have hf := h.fits
  have ha := h.agrees
  cases hs : k.schedule with
  | strict runnable =>
    rw [← hd]
    exact decision_congr (.inl (by simp [takeMutex, Schedule.mutexLocked, hs])) hb
  -- The other policies decide by who blocks whom; the scan of the row sees the new holder itself.
  | inheritance runnable priorities stale =>
    rw [← hd]
    exact decision_congr (.inr (by simp [takeMutex, Schedule.mutexLocked, Schedule.waitersChanged, hs])) hb
  | ceiling slots =>
    rw [hs] at hf ha
    have hl : (k.takeMutex x t).schedule = .ceiling (slots.lock x t) := by simp [takeMutex, Schedule.mutexLocked, hs]
    rw [decision_ceiling hs] at hd
    rw [decision_ceiling hl]
    have hfind := (SlotTable.Tracks.next_eq_ok_iff ha hf.2.1 t).mp hd
    exact (SlotTable.Tracks.next_eq_ok_iff (SlotTable.Tracks.lock ha hf.2.1 x t) (hf.2.1.write _ _) t).mpr
      (hfind.lock ha hf.2.1)

end Kernel

end Rtos
