import Mathlib.Data.Fintype.Card
import Mathlib.Logic.Function.Iterate
import Mathlib.Tactic.Ring
import Rtos.Proofs.Sanity

/-!
# The kernel comes to an end

A task that was woken may lose the race for what it waits for and wait again, a task that succeeds may wake others
before its call returns, and a task may be suspended while it enables preemption. Still the kernel is at work for a
bounded number of steps only, before it is the turn of a program or of an interrupt handler, an idle tick is delivered,
or the run is over.

* `resume_lapses`: a wait is over, or its task stops being runnable and nothing else happens.
* `Machine.rank`: what gets smaller with every step: the number of tasks suspended in a wait, whether something is
  recorded, the number of runnable tasks, whether a task switch is asked for, and the way to go to the next program.
* `Machine.terminates_play`: the main result.
-/

namespace Rtos
set_option autoImplicit false

variable {c : Config}

/-! ## Waiting again -/

namespace Kernel

variable {k l m : Kernel c} {t : c.TaskId} {r : Request c}

/-- Nothing is recorded, and nobody is made runnable or stops being so. -/
structure Placid (k l : Kernel c) : Prop where
  hasPending : l.hasPending = k.hasPending
  fits : k.schedule.Fits → l.schedule.Fits
  isRunnable : ∀ u, l.isRunnable u = k.isRunnable u

namespace Placid

theorem refl (k : Kernel c) : Placid k k := ⟨rfl, id, fun _ => rfl⟩

theorem trans (h : Placid k l) (h' : Placid l m) : Placid k m :=
  ⟨h'.hasPending.trans h.hasPending, fun fits => h'.fits (h.fits fits),
    fun u => (h'.isRunnable u).trans (h.isRunnable u)⟩

theorem noteWaiters (k : Kernel c) (o : WaitObject c) : Placid k (k.noteWaiters o) := by
  cases o with
  | mutex x => exact ⟨rfl, fun fits => fits.waitersChanged, Schedule.isRunnable_waitersChanged k.schedule⟩
  | semaphore s | queue q => exact refl k

theorem setWait (k : Kernel c) (t : c.TaskId) (o : Option (WaitObject c)) : Placid k (k.setWait t o) :=
  ⟨rfl, id, fun _ => rfl⟩

theorem disarmed {deadline : Option Ticks} (h : Disarmed t k deadline l) : Placid k l := by
  cases h with
  | unlimited => exact refl k
  | limited timer own deadline => exact ⟨rfl, id, fun _ => rfl⟩

theorem armed {ticks : Option Ticks} (h : Armed t k ticks l) : Placid k l := by
  cases h with
  | unlimited => exact refl k
  | limited timer own ticks => exact ⟨rfl, id, fun _ => rfl⟩

end Placid

/-- The task stops being runnable, nobody else does or is made runnable, and nothing is recorded. -/
structure Lapses (t : c.TaskId) (k l : Kernel c) : Prop where
  hasPending : l.hasPending = k.hasPending
  isRunnable : ∀ u, l.isRunnable u = (decide (u ≠ t) && k.isRunnable u)

theorem Lapses.after (h : Placid k l) (h' : Lapses t l m) : Lapses t k m :=
  ⟨h'.hasPending.trans h.hasPending, fun u => by rw [h'.isRunnable, h.isRunnable]⟩

theorem lapses_setBlocked (fits : k.schedule.Fits) (t : c.TaskId) :
    Lapses t k { k with schedule := k.schedule.setBlocked t } :=
  ⟨rfl, fits.isRunnable_setBlocked t⟩

theorem lapses_of_stops {wait : Wait c} (h : Stops t k (.waiting wait) l) (fits : k.schedule.Fits) : Lapses t k l := by
  cases h with
  | suspends wait other => exact lapses_setBlocked fits t
  | awaits r deadline refused =>
    have placid := (Placid.setWait k t (some r.object)).trans (.noteWaiters _ r.object)
    exact .after placid (lapses_setBlocked (placid.fits fits) t)

/-- A task that goes on in a wait is done with it, or waits again. -/
theorem resume_lapses (ht : c.tasks.size ≤ c.timerCount) (hr : k.running = some t) (fits : k.schedule.Fits)
    (wait : Wait c) (stranger : ∀ x, wait.mutex? = some x → k.holders[x] ≠ some t) : Ends (resume wait) k
      (fun p l => (∃ value, p = .done value) ∨ (p = .dispatch (.waiting wait) ∧ Lapses t k l)) fun _ _ => True := by
  cases wait with
  | block => exact .inl ⟨.unit, rfl⟩
  | sleep =>
    simp only [resume, sleepOn, ends_bind, ends_current_of_running hr, ends_get, ends_ite, ends_pure, ends_suspend hr]
    exact ⟨fun _ => .inl ⟨_, rfl⟩, fun _ => .inr ⟨trivial, lapses_setBlocked fits t⟩⟩
  | signals set =>
    simp only [resume, takeOrWait, ends_bind, ends_takeSignals hr, ends_ite, ends_pure,
      ends_suspend (k := k.clearSignals t set) hr]
    have cleared : Placid k (k.clearSignals t set) := ⟨rfl, id, fun _ => rfl⟩
    exact ⟨fun _ => .inr ⟨trivial, .after cleared (lapses_setBlocked (cleared.fits fits) t)⟩, fun _ => .inl ⟨_, rfl⟩⟩
  | request r deadline =>
    refine (pursueOn_spec ht hr stranger deadline).mono (fun p l hl => ?_) fun _ _ _ => trivial
    obtain ⟨m, disarmed, pursued⟩ := hl
    have placid := ((Placid.disarmed disarmed).trans (.setWait m t none)).trans (.noteWaiters _ r.object)
    cases pursued with
    | granted allowed | expires timed past refused => exact .inl ⟨_, rfl⟩
    | waits left armed stop =>
      have placid := placid.trans (.armed armed)
      exact .inr ⟨rfl, .after placid (lapses_of_stops stop (placid.fits fits))⟩

/-- The tasks that are runnable. -/
def runnables (k : Kernel c) : Finset c.TaskId := Finset.univ.filter fun t => k.isRunnable t = true

theorem runnables_congr (h : ∀ u, l.isRunnable u = k.isRunnable u) : l.runnables = k.runnables := by
  simp only [runnables, h]

theorem Lapses.card_lt (h : Lapses t k l) (runs : k.isRunnable t = true) : l.runnables.card < k.runnables.card := by
  have erased : l.runnables = k.runnables.erase t := by
    ext u
    simp [runnables, h.isRunnable]
  rw [erased]
  exact Finset.card_erase_lt_of_mem (by simp [runnables, runs])

end Kernel

/-- Whether a task is suspended in a wait. -/
def Suspension.isWait : Suspension c → Bool
  | .waiting _ => true
  | _ => false

/-- Whether the kernel itself is at work: the retry loops, the dispatcher, task switches, and the end of critical
sections. -/
def Control.isInternal : Control → Bool
  | .dispatching | .choosing | .resuming | .leaving _ => true
  | .application _ | .handling | .ended _ => false

/-- The number of steps it takes at most to the next program, if no detour comes in between. -/
def Control.distance : Control → Nat
  | .dispatching => 3
  | .choosing => 2
  | .resuming => 1
  | _ => 0

namespace Machine
open Kernel

variable {m m' : Machine c} {detour : Prop} {t : c.TaskId}

/-! ## The rank of a machine -/

/-- The tasks that are suspended in a wait. -/
def sleepers (m : Machine c) : Finset c.TaskId :=
  Finset.univ.filter fun t => m.active ≠ some t ∧ m.suspensions[t].isWait = true

theorem mem_sleepers : t ∈ m.sleepers ↔ m.active ≠ some t ∧ m.suspensions[t].isWait = true := by
  simp only [sleepers, Finset.mem_filter, Finset.mem_univ, true_and]

/-- What a step makes smaller only by ending a wait or by applying what was recorded. -/
def backlog (m : Machine c) : Nat := 2 * m.sleepers.card + if m.kernel.hasPending then 1 else 0

/-- What gets smaller otherwise. -/
def toDo (m : Machine c) : Nat :=
  8 * m.kernel.runnables.card + (if m.kernel.preemptPending then 4 else 0) + m.control.distance

/-- What gets smaller with every step of the kernel. -/
def rank (m : Machine c) : Nat := m.backlog * (8 * (c.tasks.size + 1)) + m.toDo

theorem card_le (s : Finset c.TaskId) : s.card ≤ c.tasks.size :=
  (Finset.card_le_univ s).trans_eq (Fintype.card_fin c.tasks.size)

theorem toDo_lt (m : Machine c) : m.toDo < 8 * (c.tasks.size + 1) := by
  have runnables := card_le m.kernel.runnables
  have distance : m.control.distance ≤ 3 := by
    unfold Control.distance
    split <;> omega
  unfold toDo
  split <;> omega

theorem rank_lt (m : Machine c) : m.rank < 16 * (c.tasks.size + 1) ^ 2 := by
  have sleepers := card_le m.sleepers
  have backlog : m.backlog ≤ 2 * c.tasks.size + 1 := by
    unfold Machine.backlog
    split <;> omega
  calc m.rank
    _ < m.backlog * (8 * (c.tasks.size + 1)) + 8 * (c.tasks.size + 1) := Nat.add_lt_add_left m.toDo_lt _
    _ = (m.backlog + 1) * (8 * (c.tasks.size + 1)) := (Nat.succ_mul ..).symm
    _ ≤ (2 * (c.tasks.size + 1)) * (8 * (c.tasks.size + 1)) := Nat.mul_le_mul_right _ (by omega)
    _ = 16 * (c.tasks.size + 1) ^ 2 := by ring

theorem rank_lt_of_backlog (h : m'.backlog < m.backlog) : m'.rank < m.rank :=
  calc m'.rank
    _ < m'.backlog * (8 * (c.tasks.size + 1)) + 8 * (c.tasks.size + 1) := Nat.add_lt_add_left m'.toDo_lt _
    _ = (m'.backlog + 1) * (8 * (c.tasks.size + 1)) := (Nat.succ_mul ..).symm
    _ ≤ m.backlog * (8 * (c.tasks.size + 1)) := Nat.mul_le_mul_right _ h
    _ ≤ m.rank := Nat.le_add_right _ _

theorem rank_lt_of_toDo (h : m'.backlog ≤ m.backlog) (h' : m'.toDo < m.toDo) : m'.rank < m.rank :=
  Nat.add_lt_add_of_le_of_lt (Nat.mul_le_mul_right _ h) h'

theorem backlog_le (hs : m'.sleepers ⊆ m.sleepers) (hp : m'.kernel.hasPending = true → m.kernel.hasPending = true) :
    m'.backlog ≤ m.backlog := by
  have fewer := Finset.card_le_card hs
  unfold backlog
  by_cases pending : m'.kernel.hasPending = true
  · rw [if_pos pending, if_pos (hp pending)]
    omega
  · rw [if_neg pending]
    split <;> omega

theorem backlog_lt (h : m'.sleepers.card < m.sleepers.card) : m'.backlog < m.backlog := by
  unfold backlog
  split <;> omega

/-- Who is on the way to a program without any of the others being affected comes closer to it. -/
theorem rank_lt_of_distance (hs : m'.sleepers ⊆ m.sleepers) (hp : m'.kernel.hasPending = m.kernel.hasPending)
    (hr : ∀ u, m'.kernel.isRunnable u = m.kernel.isRunnable u) (hq : m'.kernel.preemptPending = m.kernel.preemptPending)
    (hd : m'.control.distance < m.control.distance) : m'.rank < m.rank := by
  refine rank_lt_of_toDo (backlog_le hs (hp ▸ id)) ?_
  rw [toDo, toDo, runnables_congr hr, hq]
  omega

theorem sleepers_subset (hs : ∀ u : c.TaskId, m'.suspensions[u].isWait = true → m.suspensions[u].isWait = true)
    (ha : m.active = none) :
    m'.sleepers ⊆ m.sleepers := by
  intro u hu
  rw [mem_sleepers] at hu ⊢
  exact ⟨by simp [ha], hs u hu.2⟩

/-! ## Steps of the kernel -/

/-- An idle tick is delivered in the next step. -/
structure Idles (m : Machine c) : Prop where
  choosing : m.control = .choosing
  dispatching : m.step.control = .dispatching
  tick : m.step.kernel.pendingTicks = m.kernel.pendingTicks + 1

/-- What a step of the kernel comes to. -/
inductive Descends (m m' : Machine c) : Prop
  | rests (control : m'.control.isInternal = false)
  | idles (idles : m.Idles)
  | nears (less : m'.rank < m.rank)

theorem Orderly.descends_settle (h : m.Orderly detour) (hc : m.control = .dispatching) : m.Descends m.step := by
  replace h := h.dispatching hc
  simp only [step, hc]
  refine run_of_ends (P := m.Descends) (settle_spec h).result (fun _ l hl => ?_) fun ending l _ => .rests rfl
  obtain ⟨result, _, settled, _⟩ := hl
  have inactive : m.active = none := by rw [active, hc]
  have fewer : (goto { m with kernel := l } .choosing).sleepers ⊆ m.sleepers := sleepers_subset (fun _ => id) inactive
  by_cases pending : m.kernel.hasPending = true
  · refine .nears (rank_lt_of_backlog ?_)
    have fewer := Finset.card_le_card fewer
    have settled : (goto { m with kernel := l } .choosing).kernel.hasPending = false := settled
    rw [backlog, backlog, settled, pending]
    simp only [Bool.false_eq_true, if_false, if_true]
    omega
  · cases (settle_settled h (Bool.eq_false_iff.mpr pending)).symm.trans result
    refine .nears (rank_lt_of_distance fewer rfl (fun _ => rfl) rfl ?_)
    rw [hc]
    exact Nat.lt_succ_self 2

theorem Orderly.descends_choose (h : m.Orderly detour) (sane : m.Sane) (hc : m.control = .choosing) :
    m.Descends m.step := by
  obtain ⟨s, refreshed, runs⟩ := m.kernel.refresh_eq
  cases h.chooses sane hc with
  | idles decision control kernel =>
    refine .idles ⟨hc, control, ?_⟩
    rw [show m.step.kernel = m.kernel.refresh.idled from kernel, refreshed]
    rfl
  | dispatches t decision control handed =>
    have control : m.step.control = .resuming := control
    obtain ⟨p, kernel⟩ := handed.rest
    have kernel : m.step.kernel = { m.kernel with schedule := s, running := some t, processor := p } := by
      rw [show m.step.kernel = _ from kernel, refreshed]
    have inactive : m.active = none := by rw [active, hc]
    refine .nears (rank_lt_of_distance (sleepers_subset (fun u => ?_) inactive) ?_ (fun u => ?_) ?_ ?_)
    · rw [show m.step.suspensions = m.suspensions from suspensions_choosing hc]
      exact id
    · rw [kernel]
      rfl
    · rw [kernel]
      exact runs u
    · rw [kernel]
    · rw [control, hc]
      exact Nat.lt_succ_self 1
  | starves long control => exact .rests (by rw [show m.step.control = _ from control]; rfl)

theorem Orderly.descends_resume (h : m.Orderly detour) (ht : c.tasks.size ≤ c.timerCount) (hc : m.control = .resuming) :
    m.Descends m.step := by
  obtain ⟨t, resumes⟩ := h.resuming hc
  have thread := resumes.between.thread.trans resumes.running
  have inactive : m.active = none := by rw [active, hc]
  cases hs : m.suspensions[t] with
  | entry | returning reply =>
    simp only [step, hc, thread, resumeAt, hs]
    refine .nears (rank_lt_of_distance (sleepers_subset (fun _ => id) inactive) rfl (fun _ => rfl) rfl ?_)
    rw [hc]
    exact Nat.lt_succ_self 0
  | waiting wait =>
    have asleep : t ∈ m.sleepers := mem_sleepers.mpr ⟨by simp [inactive], by rw [hs]; rfl⟩
    simp only [step, hc, thread, resumeAt, hs]
    refine run_of_ends (P := m.Descends) ((resumes.resume_spec ht hs).and
      (resume_lapses ht resumes.running resumes.between.scheduled.fits wait (resumes.stranger hs))) (fun p l hl => ?_)
      fun ending l _ => .rests rfl
    obtain ⟨⟨es, k, edits, _, _, _, goes⟩, ⟨value, rfl⟩ | ⟨rfl, lapses⟩⟩ := hl
    · -- The wait is over, so there is one less.
      have running : l.running = some t := (goes.frame.running.trans edits.frame.running).trans resumes.running
      have fewer : (goto { m with kernel := l } (.leaving (some value))).sleepers ⊆ m.sleepers.erase t := by
        intro u hu
        obtain ⟨other, waits⟩ := mem_sleepers.mp hu
        have other : u ≠ t := fun he => other (he ▸ running)
        exact Finset.mem_erase.mpr ⟨other, mem_sleepers.mpr ⟨by simp [inactive], waits⟩⟩
      have fewer := (Finset.card_le_card fewer).trans_lt (Finset.card_erase_lt_of_mem asleep)
      exact .nears (rank_lt_of_backlog (backlog_lt fewer))
    · have thread : l.processor.thread = some t := goes.frame.thread (edits.frame.thread thread)
      rw [proceed_dispatch thread]
      have again : m.suspensions.set t (.waiting wait) = m.suspensions := by
        rw [← hs]
        exact m.suspensions.set_getElem t
      have fewer := lapses.card_lt resumes.runnable
      refine .nears (rank_lt_of_toDo (backlog_le (sleepers_subset (fun u => ?_) inactive) ?_) ?_)
      · rw [again]
        exact id
      · exact fun pending => lapses.hasPending.symm.trans pending
      · simp only [toDo, Control.distance, hc]
        split <;> omega

theorem Orderly.descends_leave (h : m.Orderly detour) {reply : Option Value} (hc : m.control = .leaving reply) :
    m.Descends m.step := by
  obtain ⟨t, executes, _⟩ := h.leaving hc
  have leaving : m.step = m.leave reply := by simp only [step, hc]
  rw [leaving, leave]
  split
  · next pending =>
    have running := executes.owned.running
    simp only [remember_eq (m := { m with
      kernel := { m.kernel with preemptDisabled := true, preemptPending := false } }) executes.owned.thread]
    refine .nears (rank_lt_of_toDo (backlog_le (fun u hu => ?_) id) ?_)
    · have waits : (m.suspensions.set t (.returning reply))[u].isWait = true := (mem_sleepers.mp hu).2
      have active : m.active = some t := by
        rw [active, hc]
        exact running
      by_cases he : u = t
      · rw [he, Table.getElem_set_self] at waits
        cases waits
      · rw [Table.getElem_set_of_ne _ _ he] at waits
        exact mem_sleepers.mpr ⟨fun hu => he (Option.some.inj (active.symm.trans hu)).symm, waits⟩
    · simp only [toDo, goto, Control.distance, hc, pending, Bool.false_eq_true, if_false, if_true]
      exact Nat.lt_succ_self _
  · exact .rests rfl

/-- Every step of the kernel leads to the end of its work, or nearer to it. -/
theorem Orderly.descends (h : m.Orderly detour) (sane : m.Sane) (hi : m.control.isInternal = true) :
    m.Descends m.step := by
  cases hc : m.control with
  | dispatching => exact h.descends_settle hc
  | choosing => exact h.descends_choose sane hc
  | resuming => exact h.descends_resume sane.accepted.timers hc
  | leaving reply => exact h.descends_leave hc
  | application reply | handling | ended ending =>
    rw [hc] at hi
    cases hi

/-! ## The way to the next program -/

theorem step_play (acts : List Act) : (play c acts).step = play c (acts ++ [.step]) := (play_concat acts .step).symm

theorem descends_play (acts : List Act) (hi : (play c acts).control.isInternal = true) :
    (play c acts).Descends (play c acts).step := by
  refine (orderly_play (c := c) acts).1.descends (sane_play acts fun ending hc => ?_) hi
  rw [hc] at hi
  cases hi

/-- The kernel is at work for no more steps than its rank tells. -/
theorem yields_play (acts : List Act) : ∃ n ≤ (play c acts).rank + 1,
    (step^[n] (play c acts)).control.isInternal = false ∨ (step^[n] (play c acts)).Idles := by
  induction hr : (play c acts).rank using Nat.strongRecOn generalizing acts with
  | ind rank ih =>
    cases hi : (play c acts).control.isInternal with
    | false => exact ⟨0, Nat.zero_le _, .inl hi⟩
    | true =>
      cases descends_play acts hi with
      | rests control => exact ⟨1, Nat.le_add_left 1 rank, .inl control⟩
      | idles idles => exact ⟨0, Nat.zero_le _, .inr idles⟩
      | nears less =>
        rw [step_play, hr] at less
        obtain ⟨n, hn, done⟩ := ih _ less _ rfl
        refine ⟨n + 1, by omega, ?_⟩
        rw [Function.iterate_succ_apply, step_play]
        exact done

/-! ## Calls of the dispatcher -/

/-- A round of the dispatcher: what was recorded is applied, and a task is chosen, or an idle tick delivered. -/
def round (m : Machine c) : Machine c := m.step.step

/-- How a call of the dispatcher may end. -/
inductive Dispatched (m : Machine c) : Prop
  | chosen (t : c.TaskId) (control : m.control = .resuming) (running : m.kernel.running = some t)
    (runnable : m.kernel.isRunnable t = true)
  | failed (error : FatalError) (control : m.control = .ended (.fatal error))
  | deadlocked (control : m.control = .ended starved)

/-- The dispatcher is at work for another round, because an idle tick was delivered. -/
structure GoesRound (m : Machine c) : Prop where
  idles : m.step.Idles
  patient : m.kernel.processor.idleTicks < maxIdleTicks
  count : m.round.kernel.processor.idleTicks = m.kernel.processor.idleTicks + 1

theorem Orderly.dispatched (h : m.Orderly detour) (sane : m.Sane) (hc : m.control = .choosing) :
    (m.Idles ∧ m.kernel.processor.idleTicks < maxIdleTicks ∧
      m.step.kernel.processor.idleTicks = m.kernel.processor.idleTicks + 1) ∨ m.step.Dispatched := by
  obtain ⟨s, refreshed, runs⟩ := m.kernel.refresh_eq
  cases h.chooses sane hc with
  | idles decision control kernel patient =>
    have kernel : m.step.kernel = m.kernel.refresh.idled := kernel
    rw [refreshed] at kernel
    refine .inl ⟨⟨hc, control, ?_⟩, patient, ?_⟩
    · rw [kernel]
      rfl
    · rw [kernel]
      rfl
  | dispatches t decision control handed =>
    obtain ⟨p, kernel⟩ := handed.rest
    have kernel : m.step.kernel = { m.kernel with schedule := s, running := some t, processor := p } := by
      rw [show m.step.kernel = _ from kernel, refreshed]
    have scheduled := h.scheduled (not_ended_of_control hc nofun)
    refine .inr (.chosen t control (by rw [kernel]) ?_)
    rw [kernel]
    exact (runs t).trans (scheduled.isRunnable_of_decision decision)
  | starves long control => exact .inr (.deadlocked control)

theorem round_play (acts : List Act) (hc : (play c acts).control = .dispatching) :
    (play c acts).GoesRound ∨ (play c acts).round.Dispatched := by
  have alive := not_ended_of_control hc nofun
  -- The run is over before the dispatcher chooses.
  have ended : ∀ {error : FatalError}, ((play c acts).act .step).control = .ended (.fatal error) →
      (play c acts).round.Dispatched :=
    fun {error} control =>
    .failed error (by rw [round, show (play c acts).step.step = _ from act_ended control .step]; exact control)
  cases (orderly_play acts).1.settles (accepted_of_not_ended alive).aimed hc with
  | overflows many control => exact .inr (ended control)
  | faults one ending faulty control =>
    rcases faulty with ⟨_, error, _, rfl⟩ | ⟨_, _, _, _, _, rfl⟩ <;> exact .inr (ended control)
  | passes few control now settled processor =>
    have control : (play c acts).step.control = .choosing := control
    have processor : (play c acts).step.kernel.processor = (play c acts).kernel.processor := processor
    have next : (play c (acts ++ [.step])).control = .choosing := by rw [← step_play, control]
    have dispatched :=
      (orderly_play (acts ++ [.step])).1.dispatched (sane_play _ (not_ended_of_control next nofun)) next
    rw [← step_play, processor] at dispatched
    exact dispatched.imp_left fun ⟨idles, patient, count⟩ => ⟨idles, patient, count⟩

/-- The dispatcher idles for as many rounds as it has patience left. -/
theorem dispatched_play (patience : Nat) (acts : List Act) (hc : (play c acts).control = .dispatching)
    (hp : maxIdleTicks ≤ (play c acts).kernel.processor.idleTicks + patience) : ∃ idle ≤ patience,
      (∀ i < idle, (round^[i] (play c acts)).step.Idles) ∧ (round^[idle + 1] (play c acts)).Dispatched := by
  induction patience generalizing acts with
  | zero =>
    rcases round_play acts hc with again | done
    · have := again.patient
      omega
    · exact ⟨0, Nat.le_refl 0, nofun, done⟩
  | succ patience ih =>
    rcases round_play acts hc with again | done
    · have next : (play c acts).round = play c (acts ++ [.step, .step]) := by rw [play_append]; rfl
      have control : (play c acts).round.control = .dispatching := again.idles.dispatching
      have count := again.count
      rw [next] at control count
      obtain ⟨idle, few, idles, done⟩ := ih _ control (by omega)
      rw [← next] at idles done
      refine ⟨idle + 1, Nat.succ_le_succ few, fun i hi => ?_, done⟩
      cases i with
      | zero => exact again.idles
      | succ i => exact idles i (Nat.lt_of_succ_lt_succ hi)
    · exact ⟨0, Nat.zero_le _, nofun, done⟩

/-! ## The main result -/

/-- The kernel comes to an end with what it is doing. -/
structure Terminates (m : Machine c) : Prop where
  /-- After a bounded number of steps it is the turn of a program or of an interrupt handler, an idle tick is delivered,
  or the run is over. -/
  yields : ∃ n ≤ 16 * (c.tasks.size + 1) ^ 2, (step^[n] m).control.isInternal = false ∨ (step^[n] m).Idles
  /-- A call of the dispatcher gives a runnable task the processor, or ends the run, after a number of rounds in which
  an idle tick was delivered. -/
  dispatched : m.control = .dispatching →
    ∃ idle ≤ maxIdleTicks, (∀ i < idle, (round^[i] m).step.Idles) ∧ (round^[idle + 1] m).Dispatched

/-- From every state of every run, the kernel comes to an end with what it is doing: there is no livelock. -/
theorem terminates_play (acts : List Act) : (play c acts).Terminates where
  yields := by
    obtain ⟨n, hn, done⟩ := yields_play (c := c) acts
    exact ⟨n, hn.trans (play c acts).rank_lt, done⟩
  dispatched hc := dispatched_play maxIdleTicks acts hc (Nat.le_add_left ..)

end Machine

end Rtos
