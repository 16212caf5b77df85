import Rtos.Proofs.TickAccount
import Rtos.Proofs.Timetable
import Rtos.Showcase

/-!
# Timers are punctual

* `Machine.timer_of_act`: outside of the dispatcher, a timer of the application changes only by operations that are
  about it.
* `Machine.ahead_play`: no timer is ever set to the current tick.
* `Machine.Log`: the timetable of a timer, since when it keeps to it, and the ticks at which it has fired since then.
* `Machine.Stretch`: what a timer does as long as no operation sets it.
* `Machine.timers_punctual`: the main result.
-/

namespace Rtos
set_option autoImplicit false

variable {c : Config}

namespace Machine
open Kernel

variable {m m' : Machine c} {detour : Prop} {t : c.TaskId} {a : Act} {id : c.TimerId}

/-! ## What becomes of timers outside of the dispatcher -/

/-- Outside of the dispatcher, a timer of the application changes only by calls that are about it. -/
theorem Orderly.timer_of_act (h : m.Orderly detour) (ht : c.tasks.size ≤ c.timerCount)
    (hn : ∀ ending, (m.act a).control ≠ .ended ending) (hd : m.control ≠ .dispatching) (user : id.val < c.userTimers) :
    (m.act a).kernel.timers[id] = match m.operation? a with
      | some (_, .call call) => call.retimed m.kernel.now id m.kernel.timers[id]
      | _ => m.kernel.timers[id] := by
  rcases m.operates_or_yields a with ⟨u, op, operation, hy⟩ | yields
  · rw [operation]
    refine h.kernel_of_operation ht operation hy hn
      (P := fun l => l.timers[id] = match some (u, op) with
        | some (_, .call call) => call.retimed m.kernel.now id m.kernel.timers[id]
        | _ => m.kernel.timers[id])
      (fun call hop ready => ?_) fun wait hop running stranger => ?_
    · subst hop
      exact (perform_timers ht ready fun task he => hy task (he ▸ rfl)).mono (fun _ l hl => hl id user)
        fun _ _ _ => trivial
    · subst hop
      exact (resume_timers ht running stranger).mono (fun _ l hl => hl id user) fun _ _ _ => trivial
  · rw [((h.transition (fun _ => ht) a).passive hn hd yields).timers]
    split
    · next u call operation =>
      obtain ⟨task, he⟩ := yields u _ operation
      cases he
      rfl
    · rfl

/-! ## Timers lie ahead -/

/-- What an act of the dispatcher makes of timers. -/
theorem Orderly.timers_of_settling (h : m.Orderly detour) (hn : ∀ ending, (m.act .step).control ≠ .ended ending)
    (hd : m.control = .dispatching) :
    (m.kernel.pendingTicks = 0 ∧ (m.act .step).kernel.now = m.kernel.now ∧ (m.act .step).kernel.timers =
      m.kernel.timers) ∨
      (m.kernel.pendingTicks = 1 ∧
        Ticked (List.finRange c.timerCount) { m.kernel with now := m.kernel.now + 1 } (m.act .step).kernel) := by
  replace h := h.dispatching hd
  rw [act_settles hd] at hn ⊢
  exact run_of_alive (P := fun m' => (_ ∧ m'.kernel.now = _ ∧ m'.kernel.timers = _) ∨ (_ ∧ Ticked _ _ m'.kernel))
    (settle_timers h) hn fun _ _ hl => hl

theorem Orderly.ahead (h : m.Orderly detour) (ht : c.tasks.size ≤ c.timerCount)
    (hn : ∀ ending, (m.act a).control ≠ .ended ending) (ahead : m.kernel.Ahead) : (m.act a).kernel.Ahead := by
  by_cases hd : m.control = .dispatching
  · cases a with
    | move move =>
      rw [act_move_of_kernel (.inl hd)]
      exact ahead
    | step =>
      rcases h.timers_of_settling hn hd with ⟨_, now, timers⟩ | ⟨_, ticked⟩
      · exact ahead.of_eq now timers
      · intro id
        obtain ⟨overflow, own⟩ := ticked.ticked id (List.mem_finRange id)
        rw [own, ticked.now]
        exact m.kernel.timers[id].ahead_ticked (m.kernel.now + 1)
  rcases m.operates_or_yields a with ⟨u, op, operation, hy⟩ | yields
  · refine h.kernel_of_operation ht operation hy hn (P := Ahead) (fun call hop ready => ?_)
      fun wait _ running stranger => ?_
    · exact ahead.perform ht ready fun task he => hy task (by rw [hop, he])
    · exact ahead.resume ht running stranger
  · have passive := (h.transition (fun _ => ht) a).passive hn hd yields
    exact ahead.of_eq passive.now passive.timers

theorem ahead_play (acts : List Act) (hn : ∀ ending, (play c acts).control ≠ .ended ending) :
    (play c acts).kernel.Ahead := by
  induction acts using play_induction with
  | boot =>
    refine run_of_alive (P := fun m => m.kernel.Ahead) (boot_prepared rfl fun id => Table.getElem_ofFn ..) hn
      fun _ l hl => ?_
    have ahead : l.Ahead := fun id => by
      rw [hl.now]
      by_cases user : id.val ∈ List.range c.userTimers
      · rw [hl.booted id user]
        exact bootedTimer_ahead id
      · rw [hl.later id user]
        exact initialTimer_ahead id
    exact ahead
  | act acts a ih =>
    obtain ⟨orderly, timers⟩ := orderly_play (c := c) acts
    have before := not_ended_of_act hn
    exact orderly.ahead (timers before) hn (ih before)

/-! ## Logs -/

/-- The dispatcher lets the timer fire in the act. -/
def firesIn (m : Machine c) (id : c.TimerId) : Act → Bool
  | .step => m.control = .dispatching && (m.kernel.turn? id).any (·.isDue id)
  | _ => false

/-- The timetable of a timer, since when it keeps to it, and the ticks at which it has fired since then. -/
structure Log where
  now : Nat := 0
  since : Nat := 0
  timetable : Timetable
  fired : List Nat := []
  deriving DecidableEq

/-- The timetable of a timer at the start. -/
def Log.start (id : c.TimerId) : Log where
  timetable := if autostarts id then .periodic 0 (initialTimer c id).reload.toNat else .never

theorem shows_booted (id : c.TimerId) : Shows 0 (Log.start id).timetable (bootedTimer id) := by
  have off : (initialTimer c id).enabled = false := by
    unfold initialTimer
    split <;> rfl
  have idle : Shows 0 .never (initialTimer c id) := .of_eq (TimerState.timetable_off off).symm
  unfold Log.start bootedTimer
  split
  · have started := idle.retimed (initialTimer_ahead id) (.enableTimer id) id
    simp only [Call.timetable?, Call.retimed, Call.change?, if_true, Option.getD_some] at started
    exact started
  · exact idle

/-- The timetable that a timer gets in an act, if it gets a new one. -/
def timetable? (m : Machine c) (id : c.TimerId) (log : Log) (a : Act) : Option Timetable :=
  match m.operation? a with
  | some (_, .call call) => call.timetable? id log.now m.kernel.timers[id].reload.toNat log.timetable
  | _ => none

/-- Keep the log of a timer through an act. -/
def Log.after (id : c.TimerId) (m : Machine c) (log : Log) (a : Act) : Log :=
  match m.timetable? id log a with
  | some timetable => { now := log.now, since := log.now, timetable := timetable }
  | none =>
    { log with
      now := log.now + m.ticks a
      fired := if m.firesIn id a then log.fired ++ [log.now + 1] else log.fired }

/-- The log of a timer at the end of a run. -/
def log (c : Config) (id : c.TimerId) (acts : List Act) : Log := watch (Log.after id) (.start id) acts

theorem log_concat (acts : List Act) (a : Act) : log c id (acts ++ [a]) = (log c id acts).after id (play c acts) a :=
  watch_concat _ _ acts a

/-- From a point of the run on, no operation sets the timer. -/
def Undisturbed (c : Config) (id : c.TimerId) (start during : List Act) : Prop := ∀ part a, part ++ [a] <+: during →
  (play c (start ++ part)).timetable? id (log c id (start ++ part)) a = none

/-- As long as no operation sets the timer, it keeps its timetable. -/
theorem log_of_stretch {start during : List Act} (undisturbed : Undisturbed c id start during) :
    (log c id (start ++ during)).since = (log c id start).since ∧
      (log c id (start ++ during)).timetable = (log c id start).timetable := by
  induction during using List.reverseRecOn with
  | nil =>
    rw [List.append_nil]
    exact ⟨rfl, rfl⟩
  | append_singleton part a ih =>
    have none := undisturbed part a (List.prefix_refl _)
    obtain ⟨since, timetable⟩ := ih fun earlier b hp => undisturbed earlier b (hp.trans (List.prefix_append part [_]))
    rw [← List.append_assoc, log_concat, Log.after, none]
    exact ⟨since, timetable⟩

/-- An operation that sets the timer gives it a timetable from now on. -/
theorem log_of_given {before : List Act} {τ : Timetable}
    (given : (play c before).timetable? id (log c id before) a = some τ) :
    (log c id (before ++ [a])).since = (log c id before).now ∧ (log c id (before ++ [a])).timetable = τ := by
  rw [log_concat, Log.after, given]
  exact ⟨rfl, rfl⟩

theorem Log.after_of_none {log : Log} (hl : m.timetable? id log a = none) (hf : m.firesIn id a = false) :
    log.after id m a = { log with now := log.now + m.ticks a } := by
  simp only [Log.after, hl, hf, Bool.false_eq_true, if_false]

theorem firesIn_of_not_dispatching (hd : m.control ≠ .dispatching) (id : c.TimerId) (a : Act) :
    m.firesIn id a = false := by
  cases a with
  | step => simp [firesIn, hd]
  | move move => rfl

theorem firesIn_of_no_tick (none : m.kernel.pendingTicks ≠ 1) (id : c.TimerId) (a : Act) : m.firesIn id a = false := by
  have turnless : m.kernel.turn? id = Option.none := if_neg none
  cases a with
  | step => simp [firesIn, turnless]
  | move move => rfl

/-- The log is true: it tells the time, the timer has fired just when its timetable says so, and it will go on with
that. -/
structure Logs (m : Machine c) (id : c.TimerId) (n : Nat) (log : Log) : Prop where
  now : log.now = n
  since : log.since ≤ n
  fired : log.fired = (List.range' (log.since + 1) (n - log.since)).filter (log.timetable.Includes ·)
  shows : Shows n log.timetable m.kernel.timers[id]

theorem Logs.keeps {n : Nat} {log : Log} (logs : m.Logs id n log) (still : (m.act a).kernel.now = m.kernel.now)
    (same : (m.act a).kernel.timers[id] = m.kernel.timers[id]) (hl : m.timetable? id log a = none)
    (hf : m.firesIn id a = false) :
    (m.act a).Logs id (n + m.ticks a) (log.after id m a) := by
  rw [Log.after_of_none hl hf, ticks_of_eq still]
  refine ⟨logs.now, logs.since, logs.fired, ?_⟩
  rw [same]
  exact logs.shows

/-! ### Operations -/

theorem Logs.retimed {n : Nat} {log : Log} {call : Call} (logs : m.Logs id n log) (ahead : m.kernel.Ahead)
    (now : m.kernel.now = .ofNat n) (still : (m.act a).kernel.now = m.kernel.now)
    (ho : m.operation? a = some (t, .call call))
    (made : (m.act a).kernel.timers[id] = call.retimed m.kernel.now id m.kernel.timers[id])
    (hf : m.firesIn id a = false) :
    (m.act a).Logs id (n + m.ticks a) (log.after id m a) := by
  have given : m.timetable? id log a = call.timetable? id n m.kernel.timers[id].reload.toNat log.timetable := by
    simp only [timetable?, ho, logs.now]
  rw [now] at made
  have shows := logs.shows.retimed (now ▸ ahead id) call id
  rw [← given, ← made] at shows
  cases hl : m.timetable? id log a with
  | none =>
    rw [hl] at shows
    rw [Log.after_of_none hl hf, ticks_of_eq still]
    exact ⟨logs.now, logs.since, logs.fired, shows⟩
  | some timetable =>
    rw [hl] at shows
    simp only [Log.after, hl]
    rw [ticks_of_eq still]
    refine ⟨logs.now, Nat.le_of_eq logs.now, ?_, shows⟩
    simp only [logs.now, Nat.add_zero, Nat.sub_self]
    rfl

/-! ### Ticks -/

theorem Orderly.exists_settled (h : m.Orderly detour) (hd : m.control = .dispatching)
    (hn : ∀ ending, (m.act .step).control ≠ .ended ending) :
    m.kernel.Between m.suspensions ∧ ∃ l, settle m.kernel = .ok () l := by
  replace h := h.dispatching hd
  rw [act_settles hd] at hn
  exact ⟨h, run_of_alive (P := fun _ => ∃ l, settle m.kernel = .ok () l) (settle_timers h).result hn
    fun _ l hl => ⟨l, hl.1⟩⟩

theorem firesIn_iff (h : m.Orderly detour) (hd : m.control = .dispatching)
    (hn : ∀ ending, (m.act .step).control ≠ .ended ending) (one : m.kernel.pendingTicks = 1) (id : c.TimerId) :
    m.firesIn id .step = true ↔
      m.kernel.timers[id].enabled = true ∧ m.kernel.timers[id].expiry = m.kernel.now + 1 := by
  obtain ⟨between, l, hs⟩ := h.exists_settled hd hn
  obtain ⟨k, turn⟩ := exists_turn between one hs id
  obtain ⟨_, now, same⟩ := turn?_spec between turn
  simp only [firesIn, hd, turn, decide_true, Bool.true_and, Option.any_some]
  rw [isDue_iff, now, same]

theorem Logs.tick {n : Nat} {log : Log} (logs : m.Logs id n log) (h : m.Orderly detour) (ahead : m.kernel.Ahead)
    (now : m.kernel.now = .ofNat n) (hd : m.control = .dispatching)
    (hn : ∀ ending, (m.act .step).control ≠ .ended ending)
    (one : m.kernel.pendingTicks = 1)
    (ticked : Ticked (List.finRange c.timerCount) { m.kernel with now := m.kernel.now + 1 } (m.act .step).kernel) :
    (m.act .step).Logs id (n + m.ticks .step) (log.after id m .step) := by
  have none : m.timetable? id log .step = none := by rw [timetable?, operation?_of_dispatching hd]
  have due : m.firesIn id .step = true ↔ log.timetable.Includes (n + 1) := by
    rw [firesIn_iff h hd hn one, now]
    exact (logs.shows.due_iff (now ▸ ahead id)).symm
  have past := logs.since
  have length : n + 1 - log.since = n - log.since + 1 := by omega
  have last : log.since + 1 + (n - log.since) = n + 1 := by omega
  rw [ticks_of_tick ticked.now, Log.after, none]
  dsimp only
  rw [ticks_of_tick ticked.now]
  refine ⟨congrArg (· + 1) logs.now, Nat.le_succ_of_le past, ?_, ?_⟩
  · show (if m.firesIn id .step then log.fired ++ [log.now + 1] else log.fired) = _
    rw [length, List.range'_1_concat, List.filter_append, ← logs.fired, last, logs.now]
    by_cases hf : m.firesIn id .step = true
    · simp [hf, due.mp hf]
    · simp [hf, mt due.mpr hf]
  · obtain ⟨overflow, own⟩ := ticked.ticked id (List.mem_finRange id)
    have shows := logs.shows.ticked (now ▸ ahead id)
    rw [own]
    simp only [now]
    exact shows

theorem Logs.act {n : Nat} {log : Log} (logs : m.Logs id n log) (h : m.Orderly detour)
    (ht : c.tasks.size ≤ c.timerCount) (ahead : m.kernel.Ahead) (now : m.kernel.now = .ofNat n)
    (user : id.val < c.userTimers) (hn : ∀ ending, (m.act a).control ≠ .ended ending) :
    (m.act a).Logs id (n + m.ticks a) (log.after id m a) := by
  by_cases hd : m.control = .dispatching
  · have none : m.timetable? id log a = none := by rw [timetable?, operation?_of_dispatching hd]
    cases a with
    | move move =>
      have rest := act_move_of_kernel (.inl hd) move
      exact logs.keeps (by rw [rest]) (by rw [rest]) none rfl
    | step =>
      rcases h.timers_of_settling hn hd with ⟨zero, still, timers⟩ | ⟨one, ticked⟩
      · exact logs.keeps still (by rw [timers]) none (firesIn_of_no_tick (by rw [zero]; exact nofun) id .step)
      · exact logs.tick h ahead now hd hn one ticked
  · have still := (h.transition (fun _ => ht) a).now hn hd
    have quiet := firesIn_of_not_dispatching hd id a
    have timer := h.timer_of_act ht hn hd user
    cases ho : m.operation? a with
    | none =>
      rw [ho] at timer
      exact logs.keeps still timer (by rw [timetable?, ho]) quiet
    | some made =>
      obtain ⟨u, op⟩ := made
      rw [ho] at timer
      cases op with
      | call call => exact logs.retimed ahead now still ho timer quiet
      | wait wait => exact logs.keeps still timer (by rw [timetable?, ho]) quiet

/-! ## The result -/

theorem logs_play (acts : List Act) (user : id.val < c.userTimers)
    (hn : ∀ ending, (play c acts).control ≠ .ended ending) :
    (play c acts).Logs id (clock c acts) (log c id acts) := by
  induction acts using play_induction with
  | boot =>
    refine run_of_alive (P := fun m => m.Logs id 0 (.start id)) (boot_prepared rfl fun id => Table.getElem_ofFn ..) hn
      fun _ l hl => ?_
    have booted : l.timers[id] = bootedTimer id := hl.booted id (List.mem_range.mpr user)
    have shows : Shows 0 (Log.start id).timetable l.timers[id] := by
      rw [booted]
      exact shows_booted id
    exact ⟨rfl, Nat.le_refl 0, rfl, shows⟩
  | act acts a ih =>
    obtain ⟨orderly, timers⟩ := orderly_play (c := c) acts
    have before := not_ended_of_act hn
    rw [clock_concat, log_concat]
    exact (ih before).act orderly (timers before) (ahead_play acts before) (balanced_play acts before).1.now user hn

theorem ticksToFiring_told {k : Kernel c} (h : k.Ready t) (user : id.val < c.userTimers) :
    Ends (perform (.ticksToFiring id)) k
    (fun p _ => p = .done (.number (k.ticksToFiring id).toNat)) fun _ _ => False := by
  simp only [perform, ends_bind, h.ends_enter, ends_timerId, ends_get, ends_pure]
  exact ⟨fun _ => rfl, fun hn => hn user⟩

/-- What is known of a timer of the application, given the time and the log of the timer. -/
structure Punctual (m : Machine c) (id : c.TimerId) (n : Nat) (log : Log) : Prop where
  /-- The tick counter shows the time. -/
  now : m.kernel.now = .ofNat n
  since : log.since ≤ n
  /-- Since the timer has kept to its timetable, it has fired at the ticks of the timetable and at no others. -/
  fired : log.fired = (List.range' (log.since + 1) (n - log.since)).filter (log.timetable.Includes ·)
  /-- When the timer has its turn at the next tick, it fires just if that tick is one of the timetable. -/
  fires : ∀ k, m.control = .dispatching → m.kernel.turn? id = some k →
    (k.isDue id = true ↔ log.timetable.Includes (n + 1))
  /-- At every tick the timer has its turn, unless the run ends before. -/
  comes : m.control = .dispatching → m.kernel.pendingTicks = 1 → (∀ ending, (m.act .step).control ≠ .ended ending) →
    ∃ k, m.kernel.turn? id = some k
  /-- The timer is enabled as long as it is to fire again. -/
  enabled : m.kernel.timers[id].enabled = (log.timetable.next? n).isSome
  /-- A program that asks is told how many ticks are left until the timer fires next. -/
  told : ∀ reply, m.control = .application reply →
    (m.act (.move (.call (.ticksToFiring id)))).control = .leaving (some (.number (log.timetable.left n)))
  /-- That is zero just if the timer is disabled. -/
  idle : log.timetable.left n = 0 ↔ m.kernel.timers[id].enabled = false

theorem Logs.punctual {n : Nat} {log : Log} (logs : m.Logs id n log) (h : m.Orderly detour) (ahead : m.kernel.Ahead)
    (now : m.kernel.now = .ofNat n) (user : id.val < c.userTimers) : m.Punctual id n log := by
  have lies : m.kernel.timers[id].Ahead (.ofNat n) := now ▸ ahead id
  have enabled := logs.shows.enabled_iff lies
  refine ⟨now, logs.since, logs.fired, fun k hd turn => ?_, fun hd one hn => ?_, enabled, fun reply hc => ?_, ?_⟩
  · obtain ⟨_, next, same⟩ := turn?_spec (h.dispatching hd) turn
    rw [isDue_iff, next, same, now]
    exact (logs.shows.due_iff lies).symm
  · obtain ⟨between, l, hs⟩ := h.exists_settled hd hn
    exact exists_turn between one hs id
  · have told : (m.kernel.ticksToFiring id).toNat = log.timetable.left n := by
      rw [ticksToFiring, now]
      exact logs.shows.left lies
    obtain ⟨t, _, ready, _⟩ := h.application hc
    rw [act_call hc, ← told]
    refine run_of_ends (P := fun m' => m'.control = _) (ticksToFiring_told ready user) (fun p l hp => ?_)
      fun _ _ => False.elim
    rw [hp]
    rfl
  · rw [Timetable.left_eq_zero_iff, ← Option.isNone_iff_eq_none, ← Option.not_isSome, enabled, Bool.not_eq_true']

theorem Punctual.mem_fired {n tick : Nat} {log : Log} (h : m.Punctual id n log) :
    tick ∈ log.fired ↔ (log.since < tick ∧ tick ≤ n) ∧ log.timetable.Includes tick := by
  have since := h.since
  rw [h.fired, List.mem_filter, List.mem_range'_1, decide_eq_true_iff]
  exact and_congr_left fun _ => by omega

/-- The timer has fired at the end of every period since the given tick, up to now, and at no other ticks. -/
def FiredEvery (period tick n : Nat) (fired : List Nat) : Prop :=
  ∀ i, i ∈ fired ↔ i ≤ n ∧ period ≠ 0 ∧ ∃ round, i = tick + (round + 1) * period

theorem Punctual.firedEvery {n tick period : Nat} {log : Log} (h : m.Punctual id n log) (since : log.since = tick)
    (timetable : log.timetable = .periodic tick period) : FiredEvery period tick n log.fired := by
  intro i
  rw [h.mem_fired, since, timetable, Timetable.includes_periodic_iff]
  refine ⟨fun fired => ⟨fired.1.2, fired.2⟩, fun fired => ⟨⟨?_, fired.1⟩, fired.2⟩⟩
  obtain ⟨_, some, round, rfl⟩ := fired
  exact Nat.lt_add_of_pos_right (Nat.mul_pos (Nat.succ_pos round) (Nat.pos_of_ne_zero some))

/-- What a timer has done in a stretch of the run, throughout which no operation sets it. -/
structure Stretch (c : Config) (id : c.TimerId) (start during : List Act) : Prop where
  /-- A timer that starts with the kernel fires periodically from the start on. -/
  booted : start = [] → autostarts id = true →
    FiredEvery (initialTimer c id).reload.toNat 0 (clock c during) (log c id during).fired
  /-- So does a timer that is enabled, from then on. -/
  enabled : ∀ before a t, start = before ++ [a] → (play c before).operation? a = some (t, .call (.enableTimer id)) →
    FiredEvery (play c before).kernel.timers[id].reload.toNat (clock c before) (clock c (start ++ during))
      (log c id (start ++ during)).fired
  /-- A timer that is set to fire once does so, and is disabled then. -/
  once : ∀ before a t timeout, start = before ++ [a] →
    (play c before).operation? a = some (t, .call (.oneShot id timeout)) →
    (∀ i, i ∈ (log c id (start ++ during)).fired ↔
      i ≤ clock c (start ++ during) ∧ i = clock c before + max timeout.toNat 1) ∧
    ((play c (start ++ during)).kernel.timers[id].enabled = true ↔
      clock c (start ++ during) < clock c before + max timeout.toNat 1)

theorem punctual_play (acts : List Act) (user : id.val < c.userTimers)
    (hn : ∀ ending, (play c acts).control ≠ .ended ending) :
    (play c acts).Punctual id (clock c acts) (log c id acts) :=
  (logs_play acts user hn).punctual (orderly_play acts).1 (ahead_play acts hn) (balanced_play acts hn).1.now user

theorem stretch_play {start during : List Act} (user : id.val < c.userTimers)
    (hn : ∀ ending, (play c (start ++ during)).control ≠ .ended ending) (undisturbed : Undisturbed c id start during) :
    Stretch c id start during := by
  have punctual := punctual_play _ user hn
  have begun := not_ended_of_append during hn
  obtain ⟨since, timetable⟩ := log_of_stretch undisturbed
  refine ⟨fun first on => ?_, fun before a t first operation => ?_, fun before a t timeout first operation => ?_⟩
  · subst first
    exact punctual.firedEvery since (timetable.trans (if_pos on))
  · subst first
    have logs := logs_play before user (not_ended_of_append [a] begun)
    have given : (play c before).timetable? id (log c id before) a =
        some (.periodic (clock c before) (play c before).kernel.timers[id].reload.toNat) := by
      simp only [timetable?, operation, Call.timetable?, if_true, logs.now]
    obtain ⟨since', timetable'⟩ := log_of_given given
    exact punctual.firedEvery ((since.trans since').trans logs.now) (timetable.trans timetable')
  · subst first
    have logs := logs_play before user (not_ended_of_append [a] begun)
    have given : (play c before).timetable? id (log c id before) a = some (.once (clock c before) timeout.toNat) := by
      simp only [timetable?, operation, Call.timetable?, if_true, logs.now]
    obtain ⟨since', timetable'⟩ := log_of_given given
    have start : (log c id (before ++ [a] ++ during)).since = clock c before := (since.trans since').trans logs.now
    have keeps := timetable.trans timetable'
    refine ⟨fun i => ?_, ?_⟩
    · rw [punctual.mem_fired, start, keeps, Timetable.includes_once_iff]
      omega
    · rw [punctual.enabled, keeps, Timetable.once, Timetable.next?]
      split
      · next ahead => exact iff_of_true rfl ahead
      · next past => exact iff_of_false Bool.false_ne_true past

/-- Whatever the tasks, the other timers and the interrupt handlers do, and however often the tick counter wraps around:
until the run is over, every timer of the application keeps to the timetable that it got from the latest operation on it
or at the start, and fires at no other ticks. So in a stretch of the run throughout which no operation sets it, a timer
that was enabled with a period fires at the end of every period, and one that was set to fire once does just that. No
timer that is enabled, be it one of the application or one that ends the wait of a task, is ever set to the current
tick. -/
theorem timers_punctual (c : Config) (acts : List Act) (hn : ∀ ending, (play c acts).control ≠ .ended ending) :
    (play c acts).kernel.Ahead ∧
      ∀ id : c.TimerId, id.val < c.userTimers → (play c acts).Punctual id (clock c acts) (log c id acts) ∧
        ∀ start during, acts = start ++ during → Undisturbed c id start during → Stretch c id start during := by
  refine ⟨ahead_play acts hn, fun id user => ⟨punctual_play acts user hn, fun start during he undisturbed => ?_⟩⟩
  subst he
  exact stretch_play user hn undisturbed

/-- An interrupt handler delivers a tick, and the dispatcher accounts for it. -/
def handledTick : List Act :=
  [.move .beginInterrupt, .move .tick, .move .endInterrupt, .step, .step, .step, .step, .step]

/-- After five ticks, the period of a timer that has fired once is halved; then there are six ticks more. -/
def halvedPeriod : List Act :=
  [.step, .step, .step, .step] ++ (List.replicate 5 handledTick).flatten ++ [.move (.call (.setReload 0 2)), .step] ++
    (List.replicate 6 handledTick).flatten

theorem timers_punctual_halvedPeriod :
    (log (Showcase.full .strict).scenario.config ⟨0, by decide⟩ halvedPeriod).fired = [8, 10] ∧
      (play (Showcase.full .strict).scenario.config (halvedPeriod ++ [.move (.call (.ticksToFiring 0))])).control =
        .leaving (some (.number 1)) := by
  have here : (play (Showcase.full .strict).scenario.config halvedPeriod).control = .application (some .unit) := by
    decide +kernel
  have punctual := ((timers_punctual (Showcase.full .strict).scenario.config halvedPeriod fun ending he => by
    cases here.symm.trans he).2 ⟨0, by decide⟩ (by decide)).1
  have ticks : clock (Showcase.full .strict).scenario.config halvedPeriod = 11 := by decide +kernel
  have since : (log (Showcase.full .strict).scenario.config ⟨0, by decide⟩ halvedPeriod).since = 5 := by decide +kernel
  have timetable : (log (Showcase.full .strict).scenario.config ⟨0, by decide⟩ halvedPeriod).timetable =
      .starting 8 2 := by
    decide +kernel
  refine ⟨?_, ?_⟩
  · rw [punctual.fired, ticks, since, timetable]
    decide
  · have told := punctual.told _ here
    rw [ticks, timetable] at told
    rw [play_concat]
    exact told

end Machine

end Rtos
