import Rtos.Proofs.History

/-!
# The most urgent task

Under the strict policy and under the inheritance policy, the task with the smallest number goes on as soon as it is
runnable.

* `decision_of_first`: the policy chooses that task if it is runnable.
* `Machine.Imminent`: a task is the next one to go on, and no tick is applied before.
* `Transition.imminent`: as long as its program is not at work, this stays so while the task is runnable.
-/

namespace Rtos
set_option autoImplicit false

variable {c : Config}

namespace Kernel

variable {k : Kernel c} {t : c.TaskId}

theorem finRange_of_first {n : Nat} {t : Fin n} (first : t.val = 0) : ∃ rest, List.finRange n = t :: rest := by
  cases n with
  | zero => exact t.elim0
  | succ n => exact ⟨_, by rw [List.finRange_succ, show t = 0 from Fin.ext first]⟩

/-- No task that comes later in the list is more urgent than one whose priority is the highest there is. -/
theorem foldl_moreUrgent_of_zero {priorities : Table Nat c.tasks.size} (hz : priorities[t] = 0)
    (tasks : List c.TaskId) :
    tasks.foldl (moreUrgent priorities) (some t) = some t := by
  induction tasks with
  | nil => rfl
  | cons u us ih =>
    have kept : moreUrgent priorities (some t) u = some t := by
      rw [moreUrgent, if_neg]
      omega
    rw [List.foldl_cons, kept, ih]

theorem decision_of_first (hs : k.Scheduled) (hp : c.policy ≠ .ceiling) (first : t.val = 0)
    (hr : k.isRunnable t = true) :
    k.decision = .ok (some t) := by
  obtain ⟨rest, all⟩ := finRange_of_first first
  have fits := hs.fits
  unfold isRunnable at hr
  cases he : k.schedule with
  | strict runnable =>
    rw [he] at hr
    have runs : runnable[t] = true := hr
    rw [decision_strict he, all, List.find?_cons_of_pos (p := fun task => runnable[task]) runs]
  | ceiling slots =>
    rw [he] at fits
    exact absurd fits.1 hp
  | inheritance runnable priorities stale =>
    rw [he] at hr
    have runs : runnable[t] = true := hr
    have top : (Inheritance.propagate k.blocker)[t] = 0 := by
      have least := (Inheritance.propagate_isLeast k.blocker t).2 ⟨t, .refl _ t, rfl⟩
      omega
    rw [decision_inheritance he, all, List.filter_cons_of_pos (p := fun task => runnable[task]) runs, List.foldl_cons]
    exact congrArg Except.ok (foldl_moreUrgent_of_zero top _)

end Kernel

namespace Machine
open Kernel

variable {m m' : Machine c} {detour : Prop} {t u : c.TaskId} {a : Act}

/-- The task is the next one to go on, and no tick is applied before. -/
def Imminent (m : Machine c) (t : c.TaskId) : Prop :=
  m.kernel.pendingTicks = 0 ∧
    match m.control with
    | .dispatching => True
    | .choosing => True
    | .resuming => m.kernel.running = some t
    | .leaving _ => m.kernel.running = some t ∨ m.kernel.preemptPending = true
    | _ => False

/-- After a step of an operation, the task is next if the operation is its own or has made it runnable. -/
theorem imminent_proceed {k l : Kernel c} {mutex : Option c.MutexId} {p : Progress c}
    (he : k.Executes m.suspensions u detour)
    (hg : Goes u k mutex p l) (hk : k.pendingTicks = 0)
    (hu : k.isRunnable t = true → u = t ∨ k.preemptPending = true)
    (hr : (proceed p { m with kernel := l }).kernel.isRunnable t = true) :
    (proceed p { m with kernel := l }).Imminent t := by
  have noTick : l.pendingTicks = 0 := hg.frame.pendingTicks.trans hk
  cases hg with
  | @done l es value edits takes =>
    refine ⟨noTick, ?_⟩
    rcases (he.owned.rises edits t).2 hr with hr | asked
    · rcases hu hr with rfl | asked
      · exact .inl (he.edits edits).owned.running
      · exact .inr (edits.frame.preemptPending asked)
    · exact .inr asked
  | stops edits takes stop waits =>
    have thread := stop.frame.thread (he.edits edits).owned.thread
    rw [proceed_dispatch thread]
    exact ⟨noTick, trivial⟩

/-- A task that makes a call goes on itself unless it is suspended. -/
theorem Orderly.imminent_call (h : m.Orderly detour) (ht : c.tasks.size ≤ c.timerCount) {reply : Option Value}
    (hc : m.control = .application reply) (running : m.kernel.running = some t) {call : Call}
    (hy : ∀ task, call ≠ .yieldTo task) (hn : ∀ ending, (m.act (.move (.call call))).control ≠ .ended ending)
    (hr : (m.act (.move (.call call))).kernel.isRunnable t = true) : (m.act (.move (.call call))).Imminent t := by
  have noTick := ((hasPending_eq_false_iff _).mp (h.settled hc)).2
  obtain ⟨executes, ready⟩ := h.program hc running
  revert hr
  rw [act_call hc] at hn ⊢
  exact run_of_alive (P := fun m' => m'.kernel.isRunnable t = true → m'.Imminent t) (perform_spec ht ready call hy) hn
    fun p l hl => imminent_proceed executes hl.1 noTick fun _ => .inl rfl

/-- While the program of the most urgent task is not at work, no other task and no tick gets between it and the
processor once it is runnable. -/
theorem Transition.imminent (h : Transition m detour a m') (orderly : m.Orderly detour) (hp : c.policy ≠ .ceiling)
    (first : t.val = 0) (hi : m.kernel.isRunnable t = true → m.Imminent t) (hn : ∀ ending, m'.control ≠ .ended ending)
    (hr : m'.kernel.isRunnable t = true) :
    m'.Imminent t ∨ ∃ reply, m'.control = .application reply ∧ m'.kernel.running = some t := by
  have chosen : m.kernel.refresh.Scheduled → m.kernel.isRunnable t = true →
      m.kernel.refresh.decision = .ok (some t) := by
    intro hs hr
    refine decision_of_first hs hp first ?_
    obtain ⟨s, he, same⟩ := m.kernel.refresh_eq
    rw [he]
    exact (same t).trans hr
  have refreshed : m.kernel.refresh.isRunnable t = true → m.kernel.isRunnable t = true := by
    obtain ⟨s, he, same⟩ := m.kernel.refresh_eq
    rw [he]
    exact (same t).symm.trans
  -- The program of another task is at work only while the most urgent task is not runnable.
  have idle : (∃ reply, m.control = .application reply) ∨ m.control = .handling → m.kernel.isRunnable t ≠ true := by
    rintro (⟨reply, hc⟩ | hc) hr
    · have next := (hi hr).2
      rw [hc] at next
      exact next
    · have next := (hi hr).2
      rw [hc] at next
      exact next
  cases h with
  | rests => exact .inl (hi hr)
  | stops ending scheduled => exact absurd rfl (hn ending)
  | fails scheduled misplaced => exact absurd rfl (hn _)
  | settles control between settled narrows result => exact .inl ⟨((hasPending_eq_false_iff _).mp settled).2, trivial⟩
  | idles control between decision idled =>
    obtain ⟨n, ticks, pending, rfl⟩ := idled
    cases decision.symm.trans (chosen between.scheduled (refreshed hr))
  | @dispatches u l control between settled decision handed =>
    obtain ⟨p, rfl⟩ := handed.rest
    cases decision.symm.trans (chosen between.scheduled (refreshed hr))
    exact .inl ⟨((hasPending_eq_false_iff _).mp settled).2, rfl⟩
  | returns control resumes reply suspended =>
    obtain ⟨noTick, next⟩ := hi hr
    rw [control] at next
    exact .inl ⟨noTick, .inl next⟩
  | @wakes u wait es k l p control resumes suspended edits takes executes goes result =>
    have noTick : m.kernel.pendingTicks = 0 := ((hasPending_eq_false_iff _).mp resumes.settled).2
    refine .inl (imminent_proceed executes goes (edits.frame.pendingTicks.trans noTick) (fun hk => ?_) hr)
    rcases (resumes.owned.rises edits t).2 hk with hm | asked
    · have next := (hi hm).2
      rw [control] at next
      exact .inl (Option.some.inj (resumes.running.symm.trans next))
    · exact .inr asked
  | leaves control executes context unasked =>
    have next := (hi hr).2
    rw [control] at next
    rcases next with running | asked
    · exact .inr ⟨_, rfl, running⟩
    · cases unasked.symm.trans asked
  | preempts control executes context => exact .inl ⟨(hi hr).1, trivial⟩
  | calls control executes ready unasked call other result goes disabled =>
    have noTick := ((hasPending_eq_false_iff _).mp (orderly.settled control)).2
    exact .inl (imminent_proceed executes goes noTick (fun hk => absurd hk (idle (.inl ⟨_, control⟩))) hr)
  | yields control executes ready task =>
    exact .inl ⟨((hasPending_eq_false_iff _).mp (orderly.settled control)).2, trivial⟩
  | yieldsTo control executes ready task runnable handed =>
    obtain ⟨p, rfl⟩ := handed.rest
    exact absurd hr (idle (.inl ⟨_, control⟩))
  | strays control executes task halts => exact absurd rfl (hn _)
  | interrupts control executes enabled => exact absurd hr (idle (.inl ⟨_, control⟩))
  | raises control executes context enabled call event => exact absurd hr (idle (.inr control))
  | ticks control executes context enabled => exact absurd hr (idle (.inr control))
  | services control executes enabled => exact absurd hr (idle (.inr control))
  | continues control executes enabled unasked => exact absurd hr (idle (.inr control))

end Machine

end Rtos
