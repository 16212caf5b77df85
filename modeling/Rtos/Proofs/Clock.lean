import Rtos.Proofs.History
import Rtos.Proofs.Kernel.TimedWait

/-!
# The passing of time

* `Machine.clock`: the time at the end of a run. The tick counter shows it as far as it goes (`Timely.now`).
* `Transition.edits`: only the dispatcher lets time pass, and only a task changes timers, those of the application and
  its own.
* `Orderly.kernel_of_operation`: what holds of the kernel after the operations of the tasks.
* `Machine.Apart`: what the acts of the others leave of a task that is suspended.
* `timely_play`: the timeout timer of a task is off unless the task is suspended in a wait that ends by it.
-/

namespace Rtos
set_option autoImplicit false

variable {c : Config}

namespace Machine
open Kernel

variable {m m' : Machine c} {detour : Prop} {t u : c.TaskId} {a : Act} {n : Nat}

/-! ## The clock -/

/-- The number of ticks the kernel accounts for in an act. -/
def ticks (m : Machine c) (a : Act) : Nat := if (m.act a).kernel.now = m.kernel.now then 0 else 1

def elapsed (m : Machine c) : List Act → Nat
  | [] => 0
  | a :: acts => m.ticks a + (m.act a).elapsed acts

/-- The number of ticks the kernel accounts for in a run. -/
def clock (c : Config) (acts : List Act) : Nat := (boot c).elapsed acts

theorem elapsed_append (m : Machine c) (acts acts' : List Act) :
    m.elapsed (acts ++ acts') = m.elapsed acts + (acts.foldl act m).elapsed acts' := by
  induction acts generalizing m with
  | nil => exact (Nat.zero_add _).symm
  | cons a acts ih => simp only [List.cons_append, elapsed, List.foldl_cons, ih, Nat.add_assoc]

theorem clock_concat (acts : List Act) (a : Act) : clock c (acts ++ [a]) = clock c acts + (play c acts).ticks a := by
  rw [clock, elapsed_append, ← clock, ← play]
  rfl

theorem ticks_of_eq (h : (m.act a).kernel.now = m.kernel.now) : m.ticks a = 0 := if_pos h

theorem ticks_of_tick (h : (m.act a).kernel.now = m.kernel.now + 1) : m.ticks a = 1 :=
  if_neg fun he => tick_ne _ (h.symm.trans he)

theorem ticks_le_one : m.ticks a ≤ 1 := by
  unfold ticks
  split <;> decide

/-! ## What changes timers -/

theorem kernel_remember (m : Machine c) (s : Suspension c) : (m.remember s).kernel = m.kernel := by
  unfold remember
  split <;> rfl

theorem kernel_proceed {k l : Kernel c} {mutex : Option c.MutexId} {p : Progress c} (h : Goes t k mutex p l) :
    (proceed p { m with kernel := l }).kernel = l := by
  cases h with
  | done value edits takes => rfl
  | stops edits takes stop waits => exact kernel_remember _ _

theorem Goes.edits {k l : Kernel c} {mutex : Option c.MutexId} {p : Progress c} (h : Goes t k mutex p l) :
    ∃ es k', Edits t k es k' ∧ Timeless k' l := by
  cases h with
  | @done l es value edits takes => exact ⟨es, l, edits, .refl l⟩
  | @stops l k' es s edits takes stop waits => exact ⟨es, k', edits, timeless_stops stop⟩

/-- Outside of the dispatcher no time passes, and nothing but the operations of the tasks changes timers or tasks. -/
theorem Transition.edits (h : Transition m detour a m') (hn : ∀ ending, m'.control ≠ .ended ending)
    (hd : m.control ≠ .dispatching) : Passive m.kernel m'.kernel ∨ ∃ u op es l, m.operation? a = some (u, op) ∧
      (∀ task, op ≠ .call (.yieldTo task)) ∧ Edits u m.kernel es l ∧ Timeless l m'.kernel := by
  cases h with
  | rests => exact .inl ⟨rfl, rfl, rfl⟩
  | stops ending scheduled => exact absurd rfl (hn ending)
  | fails scheduled misplaced => exact absurd rfl (hn _)
  | settles control between settled narrows result => exact absurd control hd
  | idles control between decision idled =>
    obtain ⟨idle, pending, asked, rfl⟩ := idled
    obtain ⟨now, timers, tasks⟩ := passive_refresh m.kernel
    exact .inl ⟨now, timers, tasks⟩
  | dispatches control between settled decision handed =>
    obtain ⟨p, rfl⟩ := handed.rest
    obtain ⟨now, timers, tasks⟩ := passive_refresh m.kernel
    exact .inl ⟨now, timers, tasks⟩
  | @wakes t wait es k l p control resumes suspended edits takes executes goes result =>
    obtain ⟨fs, k', more, timeless⟩ := Goes.edits goes
    refine .inr ⟨t, .wait wait, es ++ fs, k', operation?_wait control resumes.running suspended, nofun,
      edits.trans more, ?_⟩
    rw [kernel_proceed goes]
    exact timeless
  | @calls t reply p l control executes ready unasked call other result goes disabled =>
    obtain ⟨es, k', edits, timeless⟩ := Goes.edits goes
    refine .inr ⟨t, .call call, es, k', operation?_call control ready.running call, fun task he => ?_, edits, ?_⟩
    · cases he
      exact other task rfl
    · rw [kernel_proceed goes]
      exact timeless
  | yieldsTo control executes ready task runnable handed =>
    obtain ⟨p, rfl⟩ := handed.rest
    exact .inl ⟨rfl, rfl, rfl⟩
  | strays control executes task halts => exact absurd rfl (hn _)
  | returns | leaves | preempts | yields | interrupts | raises | ticks | services | continues =>
    exact .inl ⟨rfl, rfl, rfl⟩

theorem Transition.now (h : Transition m detour a m') (hn : ∀ ending, m'.control ≠ .ended ending)
    (hd : m.control ≠ .dispatching) : m'.kernel.now = m.kernel.now := by
  rcases h.edits hn hd with passive | ⟨u, op, es, l, _, _, edits, timeless⟩
  · exact passive.now
  · exact timeless.now.trans (now_edits edits)

theorem Transition.wired (h : Transition m detour a m') (hn : ∀ ending, m'.control ≠ .ended ending)
    (hd : m.control ≠ .dispatching) (hw : m.kernel.Wired) : m'.kernel.Wired := by
  rcases h.edits hn hd with passive | ⟨u, op, es, l, _, _, edits, timeless⟩
  · exact hw.of_timers passive.timers
  · exact (hw.edits edits).of_timers timeless.timers

theorem Transition.spares (h : Transition m detour a m') (hn : ∀ ending, m'.control ≠ .ended ending)
    (hd : m.control ≠ .dispatching) (ho : ∀ op, m.operation? a = some (t, op) → ∃ task, op = .call (.yieldTo task)) :
    Spares t m.kernel m'.kernel := by
  rcases h.edits hn hd with passive | ⟨u, op, es, l, operation, other, edits, timeless⟩
  · exact passive.timeless.spares t
  · refine (spares_edits edits ?_).trans (timeless.spares t)
    rintro rfl
    obtain ⟨task, he⟩ := ho op operation
    exact other task he

/-! ## Operations -/

theorem operation?_of_dispatching (hd : m.control = .dispatching) (a : Act) : m.operation? a = none := by
  cases ho : m.operation? a with
  | none => rfl
  | some made =>
    obtain ⟨_, ⟨_, _, _, _, hc⟩ | ⟨_, _, _, hc, _⟩⟩ := operation?_cases ho <;> cases hd.symm.trans hc

/-- Some task has an operation done in the act, or at most yields to another task. -/
theorem operates_or_yields (m : Machine c) (a : Act) :
    (∃ u op, m.operation? a = some (u, op) ∧ ∀ task, op ≠ .call (.yieldTo task)) ∨
      ∀ u op, m.operation? a = some (u, op) → ∃ task, op = .call (.yieldTo task) := by
  refine or_iff_not_imp_left.mpr fun idle u op operation => ?_
  by_contra other
  exact idle ⟨u, op, operation, fun task he => other ⟨task, he⟩⟩

/-- The task has an operation done in the act, or at most yields to another task. -/
theorem operates_or_yields_self (m : Machine c) (a : Act) (t : c.TaskId) :
    (∃ op, m.operation? a = some (t, op) ∧ ∀ task, op ≠ .call (.yieldTo task)) ∨
      ∀ op, m.operation? a = some (t, op) → ∃ task, op = .call (.yieldTo task) := by
  refine or_iff_not_imp_left.mpr fun idle op operation => ?_
  by_contra other
  exact idle ⟨op, operation, fun task he => other ⟨task, he⟩⟩

/-- What holds of the kernel after an operation, whatever task it is done for, holds of it after the act. -/
theorem Orderly.kernel_of_operation (h : m.Orderly detour) (ht : c.tasks.size ≤ c.timerCount) {op : Operation c}
    {P : Kernel c → Prop} (ho : m.operation? a = some (t, op)) (hy : ∀ task, op ≠ .call (.yieldTo task))
    (hn : ∀ ending, (m.act a).control ≠ .ended ending)
    (call : ∀ call, op = .call call → m.kernel.Ready t → Ends (perform call) m.kernel (fun _ l => P l) fun _ _ => True)
    (wait : ∀ wait, op = .wait wait → m.kernel.running = some t →
      (∀ x, wait.mutex? = some x → m.kernel.holders[x] ≠ some t) → Ends (resume wait) m.kernel (fun _ l => P l)
        fun _ _ => True) :
    P (m.act a).kernel := by
  obtain ⟨running, ⟨made, reply, rfl, rfl, hc⟩ | ⟨w, rfl, rfl, hc, hs⟩⟩ := operation?_cases ho
  · obtain ⟨executes, ready⟩ := h.program hc running
    have other : ∀ task, made ≠ .yieldTo task := fun task he => hy task (he ▸ rfl)
    rw [act_call hc] at hn ⊢
    refine run_of_alive (P := fun m' => P m'.kernel) ((perform_spec ht ready made other).and (call made rfl ready)) hn
      fun p l hl => ?_
    rw [kernel_proceed hl.1.1]
    exact hl.2
  · have resumes := h.resumes hc running
    have thread := resumes.between.thread.trans running
    rw [act_wait hc thread hs] at hn ⊢
    refine run_of_alive (P := fun m' => P m'.kernel)
      ((resumes.resume_spec ht hs).and (wait w rfl running (resumes.stranger hs))) hn fun p l hl => ?_
    obtain ⟨⟨_, _, _, _, _, _, goes⟩, hl⟩ := hl
    rw [kernel_proceed goes]
    exact hl

/-- Where no task has an operation done but yielding, and the dispatcher applies nothing, nothing happens to timers and
tasks. -/
theorem Transition.passive (h : Transition m detour a m') (hn : ∀ ending, m'.control ≠ .ended ending)
    (hd : m.control ≠ .dispatching) (ho : ∀ u op, m.operation? a = some (u, op) → ∃ task, op = .call (.yieldTo task)) :
    Passive m.kernel m'.kernel := by
  rcases h.edits hn hd with passive | ⟨u, op, es, l, operation, other, _⟩
  · exact passive
  · obtain ⟨task, he⟩ := ho u op operation
    exact absurd he (other task)

/-! ## Suspended tasks -/

/-- The task is suspended, and is not about to go on. -/
def Away (m : Machine c) (t : c.TaskId) : Prop :=
  m.active ≠ some t ∧ (m.control = .resuming → m.kernel.running ≠ some t)

/-- Whoever is not runnable is suspended, and is not about to go on. -/
theorem Orderly.away (h : m.Orderly detour) (hn : ∀ ending, m.control ≠ .ended ending)
    (blocked : m.kernel.isRunnable t = false) :
    m.Away t := by
  refine ⟨fun active => ?_, fun hc running => ?_⟩
  · cases blocked.symm.trans ((h.waits hn).active_runnable t active)
  · cases blocked.symm.trans (h.resumes hc running).runnable

/-- What an act leaves of a task that is suspended. -/
structure Apart (t : c.TaskId) (m m' : Machine c) : Prop where
  suspension : m'.suspensions[t] = m.suspensions[t]
  inactive : m'.active ≠ some t
  runnable : m.kernel.isRunnable t = true → m'.kernel.isRunnable t = true

theorem apart_proceed {k l : Kernel c} {mutex : Option c.MutexId} {p : Progress c} (hu : u ≠ t)
    (he : k.Executes m.suspensions u detour) (hg : Goes u k mutex p l)
    (hr : m.kernel.isRunnable t = true → k.isRunnable t = true) : Apart t m (proceed p { m with kernel := l }) := by
  have inactive : some u ≠ some t := fun h => hu (Option.some.inj h)
  cases hg with
  | done value edits takes =>
    refine ⟨rfl, ?_, fun h => (he.owned.rises edits t).1 (hr h)⟩
    exact fun h => inactive (((he.edits edits).owned.running).symm.trans h)
  | stops edits takes stop waits =>
    have owned := (he.edits edits).owned
    have thread := stop.frame.thread owned.thread
    rw [proceed_dispatch thread]
    refine ⟨Table.getElem_set_of_ne m.suspensions _ (Ne.symm hu), inactive_of_dispatching rfl, fun h => ?_⟩
    exact ((owned.scheduled.others_of_stops stop).2 t (Ne.symm hu)).trans ((he.owned.rises edits t).1 (hr h))

theorem Transition.apart (h : Transition m detour a m') (hn : ∀ ending, m'.control ≠ .ended ending) (away : m.Away t) :
    Apart t m m' := by
  obtain ⟨inactive, elsewhere⟩ := away
  have refresh : m.kernel.isRunnable t = true → m.kernel.refresh.isRunnable t = true := by
    obtain ⟨s, hs, hr⟩ := m.kernel.refresh_eq
    rw [hs]
    exact (hr t).trans
  cases h with
  | rests => exact ⟨rfl, inactive, id⟩
  | stops ending scheduled => exact absurd rfl (hn ending)
  | fails scheduled misplaced => exact absurd rfl (hn _)
  | settles control between settled narrows result => exact ⟨rfl, nofun, narrows.runnable t⟩
  | idles control between decision idled => exact ⟨rfl, nofun, fun h => idled.narrows.runnable t (refresh h)⟩
  | dispatches control between settled decision handed =>
    exact ⟨rfl, nofun, fun h => handed.narrows.runnable t (refresh h)⟩
  | returns control resumes reply suspended => exact ⟨rfl, elsewhere control, id⟩
  | @wakes u wait es k l p control resumes suspended edits takes executes goes result =>
    refine apart_proceed (fun he => elsewhere control (he ▸ resumes.running)) executes goes fun h => ?_
    exact (resumes.owned.rises edits t).1 h
  | leaves control executes context unasked =>
    refine ⟨rfl, ?_, id⟩
    simpa only [active, control] using inactive
  | @preempts u reply control executes context =>
    have hu : t ≠ u := by
      rintro rfl
      simp only [active, control, executes.owned.running, ne_eq, not_true] at inactive
    exact ⟨Table.getElem_set_of_ne m.suspensions _ hu, nofun, id⟩
  | @calls u reply p l control executes ready unasked call other result goes disabled =>
    refine apart_proceed ?_ executes goes id
    rintro rfl
    simp only [active, control, ready.running, ne_eq, not_true] at inactive
  | @yields u reply control executes ready task =>
    have hu : t ≠ u := by
      rintro rfl
      simp only [active, control, ready.running, ne_eq, not_true] at inactive
    exact ⟨Table.getElem_set_of_ne m.suspensions _ hu, nofun, id⟩
  | @yieldsTo u v reply l control executes ready task runnable handed =>
    have hu : t ≠ u := by
      rintro rfl
      simp only [active, control, ready.running, ne_eq, not_true] at inactive
    exact ⟨Table.getElem_set_of_ne m.suspensions _ hu, nofun, handed.narrows.runnable t⟩
  | strays control executes task halts => exact absurd rfl (hn _)
  | interrupts control executes enabled | raises control executes context enabled call event
  | ticks control executes context enabled | services control executes enabled
  | continues control executes enabled unasked =>
    simp only [active, control] at inactive
    refine ⟨rfl, fun he => inactive ?_, id⟩
    simp only [active, control] at he
    exact he

/-! ## The timeout timer of a task -/

/-- The timeout timer of the task is off unless the task is suspended in a wait that ends by it. -/
def TimerOfWait (m : Machine c) (t : c.TaskId) : Prop :=
  m.kernel.Off t ∨ (m.active ≠ some t ∧ ∃ wait d, m.suspensions[t] = .waiting wait ∧ wait.EndsAt d ∧ m.kernel.On t d)

/-- The tick counter shows the time, and the timeout timer of the task is on only while the task waits by it. -/
structure Timely (m : Machine c) (n : Nat) (t : c.TaskId) : Prop where
  wired : m.kernel.Wired
  now : m.kernel.now = .ofNat n
  timer : m.TimerOfWait t

theorem exists_timeoutTimer (ht : c.tasks.size ≤ c.timerCount) (t : c.TaskId) :
    ∃ id : c.TimerId, id.val = c.userTimers + t := by
  refine ⟨⟨c.userTimers + t, ?_⟩, rfl⟩
  have := t.isLt
  unfold Config.userTimers
  omega

/-- Where the kernel is at work, a move of the application is no move at all. -/
theorem act_move_of_kernel (hc : m.control = .dispatching ∨ m.control = .resuming ∨ ∃ reply, m.control = .leaving reply)
    (move : Move) : m.act (.move move) = m := by
  rcases hc with hc | hc | ⟨reply, hc⟩ <;> simp only [act, Machine.move, hc]

/-- While a task is suspended, what others do is not about to let it go on. -/
theorem away_of_act {wait : Wait c} (inactive : m.active ≠ some t) (suspended : m.suspensions[t] = .waiting wait)
    (ho : m.operation? a ≠ some (t, .wait wait)) (moves : m.act a ≠ m) : m.Away t := by
  refine ⟨inactive, fun hc running => ?_⟩
  cases a with
  | step => exact ho (operation?_wait hc running suspended)
  | move move => exact moves (act_move_of_kernel (.inr (.inl hc)) move)

theorem act_settles (hc : m.control = .dispatching) : m.act .step = m.run settle fun _ m => m.goto .choosing := by
  simp only [act, step, hc]

/-- The timeout timers stay what they are, and one that the task itself leaves alone fires just if it is due. -/
theorem Orderly.passed (h : m.Orderly detour) (ht : c.tasks.size ≤ c.timerCount) (hw : m.kernel.Wired)
    (hn : ∀ ending, (m.act a).control ≠ .ended ending) {id : c.TimerId} (own : id.val = c.userTimers + t) :
    (m.act a).kernel.Wired ∧ ((∀ op, m.operation? a = some (t, op) → ∃ task, op = .call (.yieldTo task)) →
      Passed t id m.kernel (m.act a).kernel) := by
  by_cases hd : m.control = .dispatching
  · cases a with
    | move move =>
      rw [act_move_of_kernel (.inl hd)]
      exact ⟨hw, fun _ => .still (.refl t _)⟩
    | step =>
      replace h := h.dispatching hd
      rw [act_settles hd] at hn ⊢
      exact run_of_alive (P := fun m' => m'.kernel.Wired ∧ (_ → Passed t id m.kernel m'.kernel))
        (settle_passed h hw own) hn
        fun _ l hl => ⟨hl.1, fun _ => hl.2⟩
  · have transition := h.transition (fun _ => ht) a
    exact ⟨transition.wired hn hd hw, fun ho => .still (transition.spares hn hd ho)⟩

theorem timer_proceed {p : Progress c} {l : Kernel c} (h : Alarmed t p l) (hp : ∀ u s, p ≠ .handOver u s)
    (thread : l.processor.thread = some t) : (proceed p { m with kernel := l }).TimerOfWait t := by
  cases h with
  | off off =>
    left
    cases p with
    | done value => exact off
    | returned value =>
      simp only [proceed, answer]
      split <;> exact off
    | dispatch s =>
      simp only [proceed, goto, kernel_remember]
      exact off
    | handOver u s => exact absurd rfl (hp u s)
  | @waits wait d progress ends on =>
    subst progress
    rw [proceed_dispatch thread]
    exact .inr ⟨inactive_of_dispatching rfl, wait, d, Table.getElem_set_self .., ends, on⟩

theorem alarmed_proceed {k l : Kernel c} {mutex : Option c.MutexId} {p : Progress c} (goes : Goes t k mutex p l)
    (thread : k.processor.thread = some t) (alarmed : Alarmed t p l) :
    (proceed p { m with kernel := l }).TimerOfWait t := by
  refine timer_proceed alarmed (fun u s => ?_) (goes.frame.thread thread)
  cases goes <;> exact nofun

theorem timer_of_operation (h : m.Orderly detour) (ht : c.tasks.size ≤ c.timerCount) {op : Operation c}
    (ho : m.operation? a = some (t, op)) (hy : ∀ task, op ≠ .call (.yieldTo task)) (timer : m.TimerOfWait t)
    (hn : ∀ ending, (m.act a).control ≠ .ended ending) : (m.act a).TimerOfWait t := by
  obtain ⟨running, ⟨call, reply, rfl, rfl, hc⟩ | ⟨wait, rfl, rfl, hc, hs⟩⟩ := operation?_cases ho
  · obtain ⟨executes, ready⟩ := h.program hc running
    have off : m.kernel.Off t := timer.resolve_right fun h => h.1 (by simp only [active, hc, running])
    have hy : ∀ task, call ≠ .yieldTo task := fun task he => hy task (he ▸ rfl)
    rw [act_call hc] at hn ⊢
    exact run_of_alive (P := fun m' => m'.TimerOfWait t)
      ((perform_spec ht ready call hy).and (perform_alarmed ht ready off hy)) hn
      fun p l hl => alarmed_proceed hl.1.1 executes.owned.thread hl.2.2
  · have resumes := h.resumes hc running
    have thread := resumes.between.thread.trans running
    have waiting : m.kernel.Off t ∨ ∃ d, wait.EndsAt d ∧ m.kernel.On t d := by
      refine timer.imp_right ?_
      rintro ⟨_, wait', d, suspended, ends, on⟩
      cases hs.symm.trans suspended
      exact ⟨d, ends, on⟩
    rw [act_wait hc thread hs] at hn ⊢
    refine run_of_alive (P := fun m' => m'.TimerOfWait t)
      ((resumes.resume_spec ht hs).and (resume_alarmed ht running (resumes.stranger hs) waiting)) hn fun p l hl => ?_
    obtain ⟨⟨es, k, edits, _, _, _, goes⟩, _, alarmed⟩ := hl
    exact alarmed_proceed goes (edits.frame.thread thread) alarmed

theorem Orderly.now_of_operation (h : m.Orderly detour) (ht : c.tasks.size ≤ c.timerCount) {op : Operation c}
    (ho : m.operation? a = some (t, op)) (hn : ∀ ending, (m.act a).control ≠ .ended ending) :
    (m.act a).kernel.now = m.kernel.now := by
  refine (h.transition (fun _ => ht) a).now hn fun hd => ?_
  obtain ⟨_, ⟨_, _, _, _, hc⟩ | ⟨_, _, _, hc, _⟩⟩ := operation?_cases ho <;> cases hd.symm.trans hc

/-- The tick counter goes on showing the time, and the timeout timer of a task is on only while the task waits by it. -/
theorem Timely.act (timely : m.Timely n t) (h : m.Orderly detour) (ht : c.tasks.size ≤ c.timerCount) (a : Act)
    (hn : ∀ ending, (m.act a).control ≠ .ended ending) : (m.act a).Timely (n + m.ticks a) t := by
  -- Moves of the application go nowhere while the kernel is at work, even if a wait of the task is what comes next.
  by_cases same : m.act a = m
  · rw [same, ticks_of_eq (by rw [same])]
    exact timely
  obtain ⟨id, own⟩ := exists_timeoutTimer ht t
  obtain ⟨wired, passed⟩ := h.passed ht timely.wired hn own
  have transition := h.transition (fun _ => ht) a
  rcases m.operates_or_yields_self a t with ⟨op, operation, hy⟩ | yields
  · have now := h.now_of_operation ht operation hn
    refine ⟨wired, ?_, timer_of_operation h ht operation hy timely.timer hn⟩
    rw [ticks_of_eq now, now]
    exact timely.now
  -- From here on, the task does nothing itself but yield.
  have passed := passed yields
  refine ⟨wired, ?_, ?_⟩
  · rcases passed.now with still | tick
    · rw [ticks_of_eq still, still, timely.now, Nat.add_zero]
    · rw [ticks_of_tick tick, tick, timely.now, ofNat_succ]
  rcases timely.timer with off | ⟨inactive, wait, d, suspended, ends, on⟩
  · exact .inl (passed.off own off)
  have away : m.Away t := away_of_act inactive suspended (fun operation => nomatch yields _ operation) same
  have apart := transition.apart hn away
  have still : (m.act a).kernel.On t d → (m.act a).TimerOfWait t :=
    fun on => .inr ⟨apart.inactive, wait, d, apart.suspension.trans suspended, ends, on⟩
  rcases passed.on own on with ⟨_, on⟩ | ⟨_, ⟨_, on⟩ | ⟨_, expired⟩⟩
  · exact still on
  · exact still on
  · exact .inl expired.off

theorem timely_play (full : c.timers.size + c.tasks.size ≤ c.timerEntries) (acts : List Act) (t : c.TaskId)
    (hn : ∀ ending, (play c acts).control ≠ .ended ending) : (play c acts).Timely (clock c acts) t := by
  induction acts using play_induction with
  | boot =>
    have dormant : (initial c).kernel.Dormant := (initial_dormant full).of_eq rfl rfl
    exact run_of_alive (P := fun m => m.Timely 0 t) (boot_dormant dormant) hn
      fun _ l hl => ⟨hl.wired, hl.now, .inl (hl.off t)⟩
  | act acts a ih =>
    obtain ⟨orderly, timers⟩ := orderly_play (c := c) acts
    have before := not_ended_of_act hn
    rw [clock_concat]
    exact (ih before).act orderly (timers before) a hn

end Machine

end Rtos
