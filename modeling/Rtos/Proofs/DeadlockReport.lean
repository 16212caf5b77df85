import Rtos.Proofs.IdleTime

/-!
# The report of a deadlock

A deadlock is reported after too many idle ticks. The report says that no task became runnable in the meantime, but the
processor counts the idle ticks since it was last handed to another thread: a task that goes on where it was, as nobody
else ran, does not make it start over.

* `Machine.SilentFor`: while the latest ticks of a run were delivered, no task was runnable and none executed code.
* `Machine.Relapsed`: a task has gone on, and idle ticks from before that still count.
* `Machine.deadlock_reported`: the main result.
* `Machine.thread_of_single`: in a system with a single task the processor never starts over.
-/

namespace Rtos
set_option autoImplicit false

variable {c : Config}

namespace Machine
open Kernel

variable {m : Machine c} {detour : Prop} {t : c.TaskId} {a : Act} {acts : List Act} {n : Nat}

/-- The act ends the run with the report of a deadlock, and it is not the application that says so. -/
def Reports (m : Machine c) (a : Act) : Prop :=
  (∀ ending, m.control ≠ .ended ending) ∧ a ≠ .move (.stop starved) ∧ (m.act a).control = .ended starved

/-- No task is runnable, and no code of a task is executed. -/
structure Silent (m : Machine c) : Prop where
  dispatcher : m.control = .dispatching ∨ m.control = .choosing
  nobody : ∀ t, m.kernel.isRunnable t = false

theorem Silent.control_ne (h : m.Silent) {control : Control} (hd : control ≠ .dispatching) (hc : control ≠ .choosing) :
    m.control ≠ control := by
  rintro rfl
  exact h.dispatcher.elim hd hc

theorem Silent.not_ended (h : m.Silent) (ending : Ending) : m.control ≠ .ended ending := h.control_ne nofun nofun

/-- All the time while the latest `n` ticks of the run were delivered, no task was runnable, and no code of a task was
executed. -/
def SilentFor (c : Config) (n : Nat) (acts : List Act) : Prop := ∃ before during, acts = before ++ during ∧
  deliveredTicks c acts = deliveredTicks c before + n ∧ ∀ part, part <+: during → (play c (before ++ part)).Silent

/-- A task has gone on after idle ticks, and the processor has not been handed over since, so that they still count. -/
def Relapsed (c : Config) : List Act → Prop :=
  Since (fun acts => (play c acts).control = .resuming ∧ 0 < idleCount c acts) fun acts a => (play c acts).HandsOver a

/-! ## Relapses -/

/-- Ticks that still count do count. -/
theorem Relapsed.counted (h : Relapsed c acts) : 0 < idleCount c acts := by
  induction acts using List.reverseRecOn with
  | nil => exact (since_nil_iff.mp h).2
  | append_singleton acts a ih =>
    rcases since_concat_iff.mp h with ⟨before, kept⟩ | ⟨_, counted⟩
    · have counted := ih before
      rw [idleCount_concat, countIdle, if_neg kept]
      split <;> omega
    · exact counted

/-! ## Silence -/

theorem SilentFor.zero (h : (play c acts).Silent) : SilentFor c 0 acts := by
  refine ⟨acts, [], (List.append_nil acts).symm, rfl, fun part hp => ?_⟩
  rw [List.prefix_nil.mp hp, List.append_nil]
  exact h

theorem SilentFor.silent (h : SilentFor c n acts) : (play c acts).Silent := by
  obtain ⟨before, during, rfl, _, silent⟩ := h
  exact silent during (List.prefix_refl during)

theorem SilentFor.concat (h : SilentFor c n acts) (ha : ((play c acts).act a).Silent) :
    SilentFor c (n + (play c acts).deliveries a) (acts ++ [a]) := by
  obtain ⟨before, during, rfl, ticks, silent⟩ := h
  refine ⟨before, during ++ [a], List.append_assoc .., ?_, fun part hp => ?_⟩
  · rw [deliveredTicks_concat, ticks, Nat.add_assoc]
  · rcases List.prefix_concat_iff.mp hp with rfl | hp
    · rw [← List.append_assoc, play_concat]
      exact ha
    · exact silent part hp

theorem deliveries_of_idle (hi : m.IdlesIn a) : m.deliveries a = 1 := by
  obtain ⟨rfl, hc, hd⟩ := hi
  exact if_pos ⟨hc, hd⟩

theorem deliveries_of_busy (hh : m.control ≠ .handling) (hi : ¬ m.IdlesIn a) : m.deliveries a = 0 := by
  cases a with
  | step => exact if_neg fun ⟨hc, hd⟩ => hi ⟨rfl, hc, hd⟩
  | move move =>
    cases move with
    | tick => exact if_neg hh
    | _ => rfl

/-- What becomes of the dispatcher: it lets an idle tick pass, lets a task go on, or changes nothing the processor knows
of. -/
theorem Orderly.dispatcher (h : m.Orderly detour) (sane : m.Sane)
    (hd : m.control = .dispatching ∨ m.control = .choosing) (hn : ∀ ending, (m.act a).control ≠ .ended ending) :
    m.IdlesIn a ∨ (m.act a).control = .resuming ∨
      ((m.act a).kernel.processor = m.kernel.processor ∧
        (m.act a = m ∨ (m.control = .dispatching ∧ (m.act a).control = .choosing))) := by
  cases a with
  | move move =>
    have rests : m.act (.move move) = m := by rcases hd with hc | hc <;> simp only [Machine.act, Machine.move, hc]
    exact .inr (.inr ⟨by rw [rests], .inl rests⟩)
  | step =>
    rcases hd with hc | hc
    · cases h.settles sane.accepted.aimed hc with
      | overflows many control => exact absurd control (hn _)
      | faults one ending faulty control => exact absurd control (hn _)
      | passes few control now settled processor => exact .inr (.inr ⟨processor, .inr ⟨hc, control⟩⟩)
    · cases h.chooses sane hc with
      | idles decision control => exact .inl ⟨rfl, hc, control⟩
      | dispatches t decision control => exact .inr (.inl control)
      | starves long control => exact absurd control (hn _)

/-- As long as there is silence, all ticks that are delivered are idle ticks, and none of them is forgotten. -/
theorem Silent.countIdle (hm : m.Silent) (ha : (m.act a).Silent) (h : m.Orderly detour) (sane : m.Sane) (n : Nat) :
    m.countIdle n a = n + m.deliveries a := by
  unfold Machine.countIdle
  by_cases idle : m.IdlesIn a
  · rw [if_neg (not_handsOver_of_idle h sane idle), if_pos idle, deliveries_of_idle idle]
  · have same : ¬ m.HandsOver a := by
      rcases h.dispatcher sane hm.dispatcher ha.not_ended with idles | resumes | ⟨processor, _⟩
      · exact absurd idles idle
      · exact absurd resumes (ha.control_ne nofun nofun)
      · exact not_not.mpr (congrArg Processor.thread processor)
    rw [if_neg same, if_neg idle, deliveries_of_busy (hm.control_ne nofun nofun) idle, Nat.add_zero]

theorem idleCount_of_silent {before : List Act} (during : List Act)
    (silent : ∀ part, part <+: during → (play c (before ++ part)).Silent) :
    idleCount c (before ++ during) + deliveredTicks c before =
      idleCount c before + deliveredTicks c (before ++ during) := by
  induction during using List.reverseRecOn with
  | nil => rw [List.append_nil]
  | append_singleton during a ih =>
    have earlier := ih fun part hp => silent part (hp.trans (List.prefix_append ..))
    have here := silent during (List.prefix_append ..)
    have next := silent (during ++ [a]) (List.prefix_refl _)
    rw [← List.append_assoc] at next ⊢
    rw [play_concat] at next
    have counts := here.countIdle next (orderly_play _).1 (sane_play _ here.not_ended)
    rw [idleCount_concat, deliveredTicks_concat, counts]
    omega

/-- Who has gone on since the first of the idle ticks that count has not been silent all that time. -/
theorem Relapsed.not_silentFor (h : Relapsed c acts) : ¬ SilentFor c (idleCount c acts) acts := by
  rintro ⟨before, during, rfl, ticks, silent⟩
  obtain ⟨first, rest, he, ⟨resumes, counted⟩, kept⟩ := h
  -- All the ticks of the silence count, so none from before it does.
  have counts := idleCount_of_silent during silent
  have none : idleCount c before = 0 := by omega
  -- Nobody goes on in silence. If somebody went on before, ticks from before the silence still count.
  rcases List.append_eq_append_iff.mp he with ⟨part, rfl, rfl⟩ | ⟨part, rfl, rfl⟩
  · exact absurd resumes ((silent part (List.prefix_append ..)).control_ne nofun nofun)
  · have relapsed : Relapsed c (first ++ part) :=
      ⟨first, part, rfl, ⟨resumes, counted⟩, fun p b hp => kept p b (hp.trans (List.prefix_append ..))⟩
    exact absurd none (Nat.pos_iff_ne_zero.mp relapsed.counted)

/-! ## Why idle ticks count -/

theorem Orderly.silent_of_idle (h : m.Orderly detour) (sane : m.Sane) (hn : ∀ ending, m.control ≠ .ended ending)
    (hi : m.IdlesIn a) : m.Silent ∧ (m.act a).Silent := by
  obtain ⟨rfl, hc, hd⟩ := hi
  cases h.chooses sane hc with
  | idles decision control kernel =>
    have nobody := (h.scheduled hn).nobody_runnable decision
    refine ⟨⟨.inr hc, nobody⟩, .inl hd, fun t => ?_⟩
    obtain ⟨s, hs, runs⟩ := m.kernel.refresh_eq
    rw [kernel, hs, ← nobody t]
    exact runs t
  | dispatches t decision control => cases hd.symm.trans control
  | starves long control => cases hd.symm.trans control

/-- The idle ticks that count were delivered in silence, and the dispatcher may just have ended it. -/
def CountedInSilence (c : Config) (acts : List Act) : Prop :=
  SilentFor c (idleCount c acts) acts ∨
  ((play c acts).control = .choosing ∧ ∃ t, (play c acts).kernel.isRunnable t = true)

theorem CountedInSilence.dispatcher (h : CountedInSilence c acts) :
    (play c acts).control = .dispatching ∨ (play c acts).control = .choosing := by
  rcases h with silent | ⟨hc, _⟩
  · exact silent.silent.dispatcher
  · exact .inr hc

theorem CountedInSilence.silentFor (h : CountedInSilence c acts) (here : (play c acts).Silent) :
    SilentFor c (idleCount c acts) acts := by
  rcases h with silent | ⟨_, t, runnable⟩
  · exact silent
  · cases (here.nobody t).symm.trans runnable

/-- An act that delivers no tick and lets nobody go on leaves it at that. -/
theorem CountedInSilence.concat (h : CountedInSilence c acts) (same : idleCount c (acts ++ [a]) = idleCount c acts)
    (busy : ¬ (play c acts).IdlesIn a)
    (stays : (play c acts).act a = play c acts ∨
      ((play c acts).control = .dispatching ∧ ((play c acts).act a).control = .choosing)) :
    CountedInSilence c (acts ++ [a]) := by
  have outside : (play c acts).control ≠ .handling := fun hh => by
    rcases h.dispatcher with hc | hc <;> cases hc.symm.trans hh
  have longer : SilentFor c (idleCount c acts) acts → ((play c acts).act a).Silent →
      SilentFor c (idleCount c (acts ++ [a])) (acts ++ [a]) := fun silent next => by
    have concat := silent.concat next
    rw [deliveries_of_busy outside busy] at concat
    rwa [same]
  unfold CountedInSilence
  rw [play_concat]
  rcases stays with stays | ⟨hd, hc⟩
  · rw [stays] at longer ⊢
    exact h.imp_left fun silent => longer silent silent.silent
  · have silent := h.resolve_right fun ready => by cases hd.symm.trans ready.1
    by_cases ready : ∃ t, ((play c acts).act a).kernel.isRunnable t = true
    · exact .inr ⟨hc, ready⟩
    · exact .inl (longer silent ⟨.inr hc, fun t => Bool.eq_false_iff.mpr fun runs => ready ⟨t, runs⟩⟩)

/-- If idle ticks count, they were delivered in silence, unless somebody has gone on since. -/
theorem countedInSilence_play (acts : List Act) (hn : ∀ ending, (play c acts).control ≠ .ended ending) :
    idleCount c acts = 0 ∨ Relapsed c acts ∨ CountedInSilence c acts := by
  induction acts using play_induction with
  | boot => exact .inl rfl
  | act acts a ih =>
    -- What ends the silence is either a hand-over, which makes the processor start over, or a relapse.
    have before := not_ended_of_act hn
    have orderly := (orderly_play (c := c) acts).1
    have sane := sane_play acts before
    have count := idleCount_concat (c := c) acts a
    unfold countIdle at count
    by_cases handed : (play c acts).HandsOver a
    · rw [if_pos handed] at count
      exact .inl count
    rw [if_neg handed] at count
    have relapses : Relapsed c acts → Relapsed c (acts ++ [a]) :=
      fun relapsed => since_concat_iff.mpr (.inl ⟨relapsed, handed⟩)
    by_cases idle : (play c acts).IdlesIn a
    · obtain ⟨here, next⟩ := orderly.silent_of_idle sane before idle
      rw [if_pos idle, ← deliveries_of_idle idle] at count
      have longer : SilentFor c (idleCount c acts) acts → CountedInSilence c (acts ++ [a]) := fun silent => .inl (by
        rw [count]
        exact silent.concat next)
      rcases ih before with zero | relapsed | quiet
      · exact .inr (.inr (longer (zero ▸ .zero here)))
      · exact .inr (.inl (relapses relapsed))
      · exact .inr (.inr (longer (quiet.silentFor here)))
    · rw [if_neg idle] at count
      rcases ih before with zero | relapsed | quiet
      · exact .inl (count.trans zero)
      · exact .inr (.inl (relapses relapsed))
      · rcases orderly.dispatcher sane quiet.dispatcher hn with idles | resumes | ⟨_, stays⟩
        · exact absurd idles idle
        · rcases Nat.eq_zero_or_pos (idleCount c acts) with zero | counted
          · exact .inl (count.trans zero)
          · rw [← play_concat] at resumes
            exact .inr (.inl (since_concat_iff.mpr (.inr ⟨resumes, count ▸ counted⟩)))
        · exact .inr (.inr (quiet.concat count idle stays))

/-! ## The result -/

theorem Orderly.starves_iff (h : m.Orderly detour) (sane : m.Sane) (hc : m.control = .choosing) :
    (m.act .step).control = .ended starved ↔
      (∀ t, m.kernel.isRunnable t = false) ∧ maxIdleTicks ≤ m.kernel.processor.idleTicks := by
  have scheduled := h.scheduled fun ending he => by cases hc.symm.trans he
  obtain ⟨task, decision⟩ := scheduled.exists_decision
  cases task with
  | none =>
    have nobody := scheduled.nobody_runnable decision
    rcases h.idles_of_decision sane hc decision with idles | ⟨long, ended⟩
    · refine iff_of_false (fun ended => ?_) fun ⟨_, long⟩ => ?_
      · cases idles.2.2.symm.trans ended
      · exact absurd (h.idles_of_idle sane idles).1 (Nat.not_lt.mpr long)
    · exact iff_of_true ended ⟨nobody, long⟩
  | some t =>
    refine iff_of_false (fun ended => ?_) fun ⟨nobody, _⟩ => ?_
    · cases (h.dispatches_of_decision sane hc decision).1.symm.trans ended
    · cases (nobody t).symm.trans (scheduled.isRunnable_of_decision decision)

/-- A run ends with the report only if the application says so, or the dispatcher makes it. -/
theorem Cause.of_starved {ending : Ending} (h : m.Cause a ending) (he : ending = Kernel.starved) :
    a = .move (.stop Kernel.starved) ∨ (a = .step ∧ m.control = .choosing) := by
  cases h with
  | stopped => exact .inl (by rw [he])
  | starved control long => exact .inr ⟨rfl, control⟩
  | faulty control one faulty => rcases faulty with ⟨_, _, _, rfl⟩ | ⟨_, _, _, _, _, rfl⟩ <;> cases he
  | nested => exact absurd he (by decide)
  | refused | misplaced | collides | late => cases he

theorem reports_iff (acts : List Act) (a : Act) :
    (play c acts).Reports a ↔ a = .step ∧ (play c acts).control = .choosing ∧
    (∀ t, (play c acts).kernel.isRunnable t = false) ∧ idleCount c acts = maxIdleTicks := by
  have orderly := (orderly_play (c := c) acts).1
  constructor
  · rintro ⟨alive, other, ended⟩
    have sane := sane_play acts alive
    obtain ⟨counts, few⟩ := idleTicks_play acts alive
    rcases outcome_play acts alive a with ⟨lives, _⟩ | ⟨ending, control, cause⟩
    · exact absurd ended (lives _)
    · obtain ⟨rfl, hc⟩ := (cause.of_starved (Control.ended.inj (control.symm.trans ended))).resolve_left other
      obtain ⟨nobody, long⟩ := (orderly.starves_iff sane hc).mp ended
      exact ⟨rfl, hc, nobody, Nat.le_antisymm few (counts ▸ long)⟩
  · rintro ⟨rfl, hc, nobody, count⟩
    have alive : ∀ ending, (play c acts).control ≠ .ended ending := fun ending he => by cases hc.symm.trans he
    refine ⟨alive, nofun, (orderly.starves_iff (sane_play acts alive) hc).mpr ⟨nobody, ?_⟩⟩
    rw [(idleTicks_play acts alive).1, count]

/-- A deadlock is reported just if there is no task to choose and as many ticks as there may be were delivered while
idle since the processor was last handed to another thread. The report is right that no task became runnable and none
executed code while the latest of these ticks were delivered, unless the task that had the processor has gone on after
some of them. -/
theorem deadlock_reported (c : Config) (acts : List Act) (a : Act) :
    ((play c acts).Reports a ↔ a = .step ∧ (play c acts).control = .choosing ∧
      (∀ t, (play c acts).kernel.isRunnable t = false) ∧ idleCount c acts = maxIdleTicks) ∧
    ((play c acts).Reports a → (SilentFor c maxIdleTicks acts ↔ ¬ Relapsed c acts)) := by
  refine ⟨reports_iff acts a, fun reports => ?_⟩
  obtain ⟨_, _, nobody, count⟩ := (reports_iff acts a).mp reports
  rw [← count]
  refine ⟨fun silent relapsed => relapsed.not_silentFor silent, fun steady => ?_⟩
  rcases countedInSilence_play acts reports.1 with zero | relapsed | quiet
  · cases count.symm.trans zero
  · exact absurd relapsed steady
  · exact quiet.silentFor ⟨quiet.dispatcher, nobody⟩

/-! ## A single task -/

/-- A task that is the only one keeps the processor once it has it. -/
theorem thread_of_single (one : c.tasks.size = 1) {t : c.TaskId} (h : (play c acts).kernel.processor.thread = some t)
    (more : List Act) : (play c (acts ++ more)).kernel.processor.thread = some t := by
  induction more using List.reverseRecOn with
  | nil => rwa [List.append_nil]
  | append_singleton more a ih =>
    rw [← List.append_assoc, play_concat]
    by_cases he : ∃ ending, (play c (acts ++ more)).control = .ended ending
    · obtain ⟨ending, he⟩ := he
      rwa [act_ended he]
    rcases (orderly_play (acts ++ more)).1.shifts (sane_play _ fun ending hc => he ⟨ending, hc⟩)
      a with same | ⟨u, hands⟩
    · exact (congrArg Prod.fst same).trans ih
    · have only : u = t := Fin.ext (by omega)
      rw [hands.thread, only]

theorem relapsed_of_single (one : c.tasks.size = 1) {t : c.TaskId} (h : (play c acts).kernel.processor.thread = some t)
    (resumes : (play c acts).control = .resuming) (counted : 0 < idleCount c acts) (more : List Act) :
    Relapsed c (acts ++ more) := by
  refine ⟨acts, more, rfl, ⟨resumes, counted⟩, fun part a _ => ?_⟩
  have before := thread_of_single one h part
  have after := thread_of_single one h (part ++ [a])
  rw [← List.append_assoc, play_concat] at after
  exact not_not.mpr (after.trans before.symm)

/-! ## Idling on -/

theorem Idling.silent (idling : m.Idling) (h : m.Orderly detour) : m.Silent :=
  ⟨.inr idling.choosing, (h.scheduled idling.not_ended).nobody_runnable idling.decision⟩

theorem SilentFor.round {k : Nat} (h : SilentFor c k acts) (idling : (play c acts).Idling)
    (patient : (play c acts).kernel.processor.idleTicks < maxIdleTicks)
    (next : (play c (acts ++ [.step] ++ [.step])).Idling) :
    SilentFor c (k + 1) (acts ++ [.step] ++ [.step]) := by
  have sane := sane_play acts idling.not_ended
  have ticks := idling.idlesIn (orderly_play acts).1 sane patient
  have tick := h.concat ((orderly_play acts).1.silent_of_idle sane idling.not_ended ticks).2
  rw [deliveries_of_idle ticks] at tick
  have dispatching : (play c (acts ++ [.step])).control = .dispatching := by
    rw [play_concat]
    exact ticks.2.2
  have none : (play c (acts ++ [.step])).deliveries .step = 0 :=
    deliveries_eq_zero (by rw [dispatching]; exact nofun) (by rw [dispatching]; exact nofun) .step
  have silent := next.silent (orderly_play _).1
  rw [play_concat] at silent
  have settled := tick.concat silent
  rwa [none] at settled

theorem SilentFor.rounds {k : Nat} (h : SilentFor c k acts) (idling : (play c acts).Idling) (n : Nat)
    (patient : (play c acts).kernel.processor.idleTicks + n ≤ maxIdleTicks) (early : (play c acts).kernel.NoneDue n) :
    SilentFor c (k + n) (acts ++ idleRounds n) := by
  induction n with
  | zero => rwa [idleRounds, List.append_nil]
  | succ n ih =>
    have before := play_idleRounds idling n (by omega) early.sooner
    have here := idling.aged n
    have next := idling.aged (n + 1)
    have rounds : acts ++ idleRounds (n + 1) = acts ++ idleRounds n ++ [.step] ++ [.step] := by simp [idleRounds]
    rw [← before] at here
    rw [← play_idleRounds idling (n + 1) patient early, rounds] at next
    rw [rounds]
    exact (ih (by omega) early.sooner).round here (by rw [before]; exact patient) next

/-- If no task is runnable and none can be woken by a timer in time, a deadlock is reported in the end. -/
theorem Idling.reports (idling : (play c acts).Idling) (n : Nat)
    (full : (play c acts).kernel.processor.idleTicks + n = maxIdleTicks) (early : (play c acts).kernel.NoneDue n) :
    (play c (acts ++ idleRounds n)).Reports .step := by
  have played := play_idleRounds idling n full.le early
  have still := idling.aged n
  rw [← played] at still
  have counts : (play c (acts ++ idleRounds n)).kernel.processor.idleTicks = maxIdleTicks := by
    rw [played]
    exact full
  refine (reports_iff _ _).mpr ⟨rfl, still.choosing, (still.silent (orderly_play _).1).nobody, ?_⟩
  rw [← (idleTicks_play _ still.not_ended).1, counts]

/-! ## Sleeping twice -/

/-- A system with nothing but a task. -/
def lone : Config := Declarations.config { policy := .strict, tasks := #[{}] }

/-- The task blocks. -/
def blocked : List Act := [.step, .step, .step, .step, .move (.call .block), .step]

theorem idling_blocked : (play lone blocked).Idling := ⟨by decide +kernel, by decide +kernel, by decide +kernel⟩

theorem reports_blocked : (play lone (blocked ++ idleRounds maxIdleTicks)).Reports .step :=
  idling_blocked.reports maxIdleTicks (by decide +kernel) (by decide +kernel)

theorem deadlock_reported_blocked : (play lone (blocked ++ idleRounds maxIdleTicks)).Reports .step ∧
    ¬ Relapsed lone (blocked ++ idleRounds maxIdleTicks) := by
  have silent := (SilentFor.zero (idling_blocked.silent (orderly_play _).1)).rounds idling_blocked maxIdleTicks
    (by decide +kernel) (by decide +kernel)
  rw [Nat.zero_add] at silent
  exact ⟨reports_blocked,
    ((deadlock_reported lone (blocked ++ idleRounds maxIdleTicks) .step).2 reports_blocked).mp silent⟩

/-- The task falls asleep for less time than it takes to report a deadlock. -/
def drowsy : List Act := [.step, .step, .step, .step, .move (.call (.sleep 60000)), .step]

/-- It goes on when the time has come. -/
def woken : List Act := drowsy ++ idleRounds 59999 ++ [.step, .step, .step]

/-- It returns to its program, and falls asleep again. -/
def drowsyAgain : List Act := [.step, .step, .step, .step, .step, .step, .move (.call (.sleep 60000)), .step]

theorem play_woken : play lone woken = [.step, .step, .step].foldl act ((play lone drowsy).aged 59999) := by
  have idling : (play lone drowsy).Idling := ⟨by decide +kernel, by decide +kernel, by decide +kernel⟩
  rw [woken, play_append, play_idleRounds idling 59999 (by decide +kernel) (by decide +kernel)]

theorem relapsed_woken (more : List Act) : Relapsed lone (woken ++ more) := by
  have resumes : (play lone woken).control = .resuming := by
    rw [play_woken]
    decide +kernel
  refine relapsed_of_single rfl (t := ⟨0, by decide⟩) ?_ resumes ?_ more
  · rw [play_woken]
    decide +kernel
  · rw [← (idleTicks_play woken fun ending he => by cases resumes.symm.trans he).1, play_woken]
    decide +kernel

/-- A deadlock is reported while the only task sleeps for the second time: the ticks of its first sleep still count. -/
theorem deadlock_misreported : (play lone (woken ++ drowsyAgain ++ idleRounds 40000)).Reports .step ∧
    ¬ SilentFor lone maxIdleTicks (woken ++ drowsyAgain ++ idleRounds 40000) := by
  have played : play lone (woken ++ drowsyAgain) =
      drowsyAgain.foldl act ([.step, .step, .step].foldl act ((play lone drowsy).aged 59999)) := by
        rw [play_append, play_woken]
  have idling : (play lone (woken ++ drowsyAgain)).Idling := by
    rw [played]
    exact ⟨by decide +kernel, by decide +kernel, by decide +kernel⟩
  have reports : (play lone (woken ++ drowsyAgain ++ idleRounds 40000)).Reports .step := by
    refine idling.reports 40000 ?_ ?_ <;> rw [played] <;> decide +kernel
  have relapsed := relapsed_woken (drowsyAgain ++ idleRounds 40000)
  rw [← List.append_assoc] at relapsed
  have count := ((reports_iff _ _).mp reports).2.2.2
  refine ⟨reports, ?_⟩
  rw [← count]
  exact relapsed.not_silentFor

end Machine

end Rtos
