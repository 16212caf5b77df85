import Rtos.Proofs.Kernel.Overflow
import Rtos.Proofs.SignalDelivery

/-!
# Timers overflow exactly

A timer overflows when it fires while one of its signals is still pending. The flag that tells so stays set until it is
asked for.

* `Machine.trafficBefore`: the signals sent in an act before a timer has its turn.
* `Machine.Clashes`: in the act, the timer fires into a signal that was sent and not taken since.
* `Machine.Overflowed`: the timer has clashed in a run, and has not been asked about it since.
* `Orderly.overflow_of_act`: what an act makes of the flag.
* `Machine.overflow_exact`: the main result.
-/

namespace Rtos
set_option autoImplicit false

variable {c : Config}

/-- Of all calls about a timer, only the one that tells its flag changes the flag. -/
theorem Call.overflow_change? {call : Call} {now : Ticks} {timer : Nat} {change : TimerState c → TimerState c}
    (hc : call.change? now = some (timer, change)) (s : TimerState c) :
    (change s).overflow = true ↔ s.overflow = true ∧ call ≠ .takeOverflow timer := by
  cases call with
  | enableTimer timer =>
    cases hc
    unfold TimerState.started
    split <;> simp
  | takeOverflow timer | disableTimer timer | oneShot timer timeout | setReload timer reload
  | setTimerSignal timer task set
  | setTimerError timer error =>
    cases hc
    simp [TimerState.stopped, TimerState.once]
  | _ => cases hc

theorem Call.overflow_retimed (call : Call) (now : Ticks) (id : c.TimerId) (s : TimerState c) :
    (call.retimed now id s).overflow = true ↔ s.overflow = true ∧ call ≠ .takeOverflow id := by
  unfold Call.retimed
  cases hc : call.change? (c := c) now with
  | none =>
    have other : call ≠ .takeOverflow id := by
      rintro rfl
      cases hc
    simp [other]
  | some made =>
    obtain ⟨timer, change⟩ := made
    dsimp only
    by_cases he : timer = id
    · rw [if_pos he, call.overflow_change? hc, he]
    · have other : call ≠ .takeOverflow id := by
        rintro rfl
        cases hc
        exact he rfl
      rw [if_neg he]
      simp [other]

namespace Machine
open Kernel Traffic

variable {m : Machine c} {detour : Prop} {t : c.TaskId} {a : Act} {id : c.TimerId} {log : List (Traffic c)}

/-! ## Clashes -/

/-- The signals that are sent in an act of the dispatcher before a timer has its turn: those of the events, and then
those of the timers before it in the timer pool that fire. -/
def trafficBefore (m : Machine c) (id : c.TimerId) (a : Act) : List (Traffic c) :=
  m.kernel.raisedEvents.filterMap eventTraffic? ++
    (((List.finRange c.timerCount).take id).filter (m.firesIn · a)).filterMap fun id => m.kernel.timers[id].traffic?

/-- In the act, the timer fires with a set of signals of which the task still has one: it was sent, in the run so far or
earlier in the act, and the task has not taken it since. -/
def Clashes (m : Machine c) (log : List (Traffic c)) (id : c.TimerId) (a : Act) : Prop := m.firesIn id a = true ∧
  ∃ (task : c.TaskId) (set : SignalSet) (bit : Nat), m.kernel.timers[id].effect = .user (.signal task set) ∧
    set.has bit = true ∧ Outstanding (log ++ m.trafficBefore id a) task bit

/-- In the act, the running task asks whether the timer has overflowed. -/
def AsksOverflow (m : Machine c) (id : c.TimerId) (a : Act) : Prop :=
  ∃ t, m.operation? a = some (t, .call (.takeOverflow id))

/-- The timer has clashed in the run, and no task has asked about it since. -/
def Overflowed (c : Config) (id : c.TimerId) : List Act → Prop :=
  Since (fun acts => ∃ before a, acts = before ++ [a] ∧ (play c before).Clashes (signalLog c before) id a)
    fun acts a => (play c acts).AsksOverflow id a

theorem not_overflowed_nil (id : c.TimerId) : ¬ Overflowed c id [] := fun h => by
  obtain ⟨before, a, he, _⟩ := since_nil_iff.mp h
  exact List.append_ne_nil_of_right_ne_nil before (List.cons_ne_nil a []) he.symm

theorem overflowed_concat_iff (acts : List Act) (a : Act) (id : c.TimerId) : Overflowed c id (acts ++ [a]) ↔
    (play c acts).Clashes (signalLog c acts) id a ∨ (Overflowed c id acts ∧ ¬ (play c acts).AsksOverflow id a) := by
  refine since_concat_iff.trans (or_comm.trans (or_congr_left ⟨?_, fun clash => ⟨acts, a, rfl, clash⟩⟩))
  rintro ⟨before, b, he, clash⟩
  obtain ⟨rfl, same⟩ := List.append_inj' he rfl
  obtain rfl := List.singleton_inj.mp same
  exact clash

theorem not_clashes (log : List (Traffic c)) (quiet : m.firesIn id a = false) : ¬ m.Clashes log id a := fun clash => by
  cases quiet.symm.trans clash.1

/-! ## One act -/

/-- When the timer has its turn, it meets its signal just if one of the set was sent and not taken since. -/
theorem clashes_iff (h : m.Orderly detour) (hd : m.control = .dispatching)
    (hn : ∀ ending, (m.act .step).control ≠ .ended ending) (one : m.kernel.pendingTicks = 1)
    (pending : ∀ t : c.TaskId, m.kernel.tasks[t].signals = deliver t 0 log) {k : Kernel c}
    (turn : m.kernel.turn? id = some k) : m.Clashes log id .step ↔ k.isDue id = true ∧ k.Meets id := by
  obtain ⟨between, _⟩ := h.exists_settled hd hn
  obtain ⟨_, _, same⟩ := turn?_spec between turn
  have fires : m.firesIn id .step = k.isDue id := by simp [firesIn, hd, turn]
  have earlier : ((List.finRange c.timerCount).take id).filter (m.firesIn · .step) =
      ((List.finRange c.timerCount).take id).filter
      fun id => m.kernel.timers[id].enabled ∧ m.kernel.timers[id].expiry = m.kernel.now + 1 := by
    refine List.filter_congr fun id _ => ?_
    rw [Bool.eq_iff_iff, firesIn_iff h hd hn one, decide_eq_true_iff]
  have signals : ∀ (u : c.TaskId) (bit : Nat), k.tasks[u].signals.has bit = true ↔
      Outstanding (log ++ m.trafficBefore id .step) u bit := by
    intro u bit
    rw [turn?_signals between turn u, pending u, ← earlier, ← deliver_append]
    exact has_deliver_iff _ u bit
  unfold Clashes Meets
  rw [fires, same]
  refine and_congr_right fun _ => ?_
  constructor
  · rintro ⟨task, set, bit, effect, has, outstanding⟩
    exact ⟨task, set, effect,
      (k.pendingSignals_ne_zero_iff task set).mpr ⟨bit, has, (signals task bit).mpr outstanding⟩⟩
  · rintro ⟨task, set, effect, some⟩
    obtain ⟨bit, has, left⟩ := (k.pendingSignals_ne_zero_iff task set).mp some
    exact ⟨task, set, bit, effect, has, (signals task bit).mp left⟩

/-- An act sets the flag of a timer if the timer clashes, clears it if the running task asks for it, and else leaves
it. -/
theorem Orderly.overflow_of_act (h : m.Orderly detour) (ht : c.tasks.size ≤ c.timerCount)
    (hn : ∀ ending, (m.act a).control ≠ .ended ending) (user : id.val < c.userTimers)
    (pending : ∀ t : c.TaskId, m.kernel.tasks[t].signals = deliver t 0 log) :
    (m.act a).kernel.timers[id].overflow = true ↔
      m.Clashes log id a ∨ (m.kernel.timers[id].overflow = true ∧ ¬ m.AsksOverflow id a) := by
  by_cases hd : m.control = .dispatching
  · have silent : ¬ m.AsksOverflow id a := fun ⟨t, ho⟩ => by
      rw [operation?_of_dispatching hd] at ho
      cases ho
    cases a with
    | move move =>
      have quiet : m.firesIn id (.move move) = false := rfl
      rw [act_move_of_kernel (.inl hd)]
      simp [silent, not_clashes log quiet]
    | step =>
      rcases h.timers_of_settling hn hd with ⟨zero, _, timers⟩ | ⟨one, _⟩
      · have quiet := firesIn_of_no_tick (m := m) (by rw [zero]; exact nofun) id .step
        rw [timers]
        simp [silent, not_clashes log quiet]
      · obtain ⟨between, l, hs⟩ := h.exists_settled hd hn
        obtain ⟨k, turn⟩ := exists_turn between one hs id
        have settled : (m.act .step).kernel = l := by
          rw [act_settles hd, run, hs]
          rfl
        rw [settled, settle_overflow between hs turn, clashes_iff h hd hn one pending turn]
        simp [silent, or_comm]
  · rw [h.timer_of_act ht hn hd user]
    have quiet := not_clashes log (firesIn_of_not_dispatching hd id a)
    unfold AsksOverflow
    cases ho : m.operation? a with
    | none => simp [quiet]
    | some made =>
      obtain ⟨u, op⟩ := made
      cases op with
      | call call => simp [quiet, call.overflow_retimed, ne_eq]
      | wait wait => simp [quiet]

/-! ## Runs -/

theorem overflow_play (acts : List Act) (user : id.val < c.userTimers)
    (hn : ∀ ending, (play c acts).control ≠ .ended ending) :
    (play c acts).kernel.timers[id].overflow = true ↔ Overflowed c id acts := by
  induction acts using play_induction with
  | boot =>
    refine run_of_alive (P := fun m => m.kernel.timers[id].overflow = true ↔ Overflowed c id [])
      (boot_prepared rfl fun id => Table.getElem_ofFn ..) hn fun _ l hl => ?_
    have unset : l.timers[id].overflow = false := by
      rw [hl.booted id (List.mem_range.mpr user)]
      unfold bootedTimer TimerState.started initialTimer
      split <;> split <;> (try split) <;> rfl
    exact ⟨fun set => absurd (unset.symm.trans set) Bool.false_ne_true,
      fun overflowed => absurd overflowed (not_overflowed_nil id)⟩
  | act acts a ih =>
    obtain ⟨orderly, timers⟩ := orderly_play (c := c) acts
    have before := not_ended_of_act hn
    rw [orderly.overflow_of_act (timers before) hn user (signals_play acts before), ih before, overflowed_concat_iff]

theorem takeOverflow_told {k : Kernel c} (h : k.Ready t) (user : id.val < c.userTimers) :
    Ends (perform (.takeOverflow id)) k
    (fun p l => p = .done (.bool k.timers[id].overflow) ∧ l.timers[id].overflow = false) fun _ _ => False := by
  simp only [perform, ends_bind, h.ends_enter, ends_timerId, ends_get, ends_modify, ends_pure]
  refine ⟨fun _ => ⟨rfl, ?_⟩, fun hn => hn user⟩
  rw [modifyTimer, Table.getElem_set_self]

/-- What is known of the overflow flag of a timer of the application after a run. -/
structure OverflowExact (m : Machine c) (id : c.TimerId) (acts : List Act) : Prop where
  /-- The flag is set just if the timer has fired into a pending signal since it was asked for last. -/
  flag : m.kernel.timers[id].overflow = true ↔ Overflowed c id acts
  /-- A program that asks is told the flag, which is cleared thereby. -/
  told : ∀ reply, m.control = .application reply →
    (m.act (.move (.call (.takeOverflow id)))).control = .leaving (some (.bool m.kernel.timers[id].overflow)) ∧
      (m.act (.move (.call (.takeOverflow id)))).kernel.timers[id].overflow = false
  /-- No other operation changes it. -/
  kept : ∀ a t op, m.operation? a = some (t, op) → op ≠ .call (.takeOverflow id) →
    (∀ ending, (m.act a).control ≠ .ended ending) →
      (m.act a).kernel.timers[id].overflow = m.kernel.timers[id].overflow

/-- Whatever the tasks, the events and the other timers do: until the run is over, the overflow flag of a timer of the
application is set just if the timer has fired while one of its signals was pending, and no task has asked since. -/
theorem overflow_exact (c : Config) (acts : List Act) (hn : ∀ ending, (play c acts).control ≠ .ended ending)
    (id : c.TimerId) (user : id.val < c.userTimers) : (play c acts).OverflowExact id acts := by
  obtain ⟨orderly, timers⟩ := orderly_play (c := c) acts
  refine ⟨overflow_play acts user hn, fun reply hc => ?_, fun a t op ho other alive => ?_⟩
  · obtain ⟨t, _, ready, _⟩ : ∃ t, (play c acts).kernel.Executes (play c acts).suspensions t _ ∧
        (play c acts).kernel.Ready t ∧ _ := by
      unfold Orderly at orderly
      rw [hc] at orderly
      exact orderly
    rw [act_call hc]
    refine run_of_ends (P := fun m' => m'.control = _ ∧ m'.kernel.timers[id].overflow = false)
      (takeOverflow_told ready user)
      (fun p l hp => ?_) fun _ _ => False.elim
    obtain ⟨rfl, cleared⟩ := hp
    exact ⟨rfl, cleared⟩
  · have silent : ¬ (play c acts).AsksOverflow id a := by
      rintro ⟨u, asked⟩
      cases ho.symm.trans asked
      exact other rfl
    have awake : (play c acts).control ≠ .dispatching := fun hd => by
      rw [operation?_of_dispatching hd] at ho
      cases ho
    rw [Bool.eq_iff_iff, orderly.overflow_of_act (timers hn) alive user (signals_play acts hn)]
    simp [silent, not_clashes _ (firesIn_of_not_dispatching awake id a)]

/-- The timer of the system that signals the most urgent task. -/
def periodic : (Showcase.full .strict).scenario.config.TimerId := ⟨0, by decide⟩

/-- The timer has fired twice, and the most urgent task has taken no signal. -/
def unheard : List Act := [.step, .step, .step, .step] ++ (List.replicate 8 handledTick).flatten

/-- Then the task asks. -/
def askOverflow : Act := .move (.call (.takeOverflow 0))

theorem overflow_exact_unheard :
    Overflowed (Showcase.full .strict).scenario.config periodic unheard ∧
      (play (Showcase.full .strict).scenario.config (unheard ++ [askOverflow])).control = .leaving (some (.bool true)) ∧
      ¬ Overflowed (Showcase.full .strict).scenario.config periodic (unheard ++ [askOverflow]) := by
  have here : (play (Showcase.full .strict).scenario.config unheard).control = .application (some .unit) := by
    decide +kernel
  have set : (play (Showcase.full .strict).scenario.config unheard).kernel.timers[periodic].overflow = true := by
    decide +kernel
  have exact :=
    overflow_exact (Showcase.full .strict).scenario.config unheard (fun ending he => by cases here.symm.trans he)
    periodic (by decide)
  have ask : .move (.call (.takeOverflow periodic)) = askOverflow := rfl
  obtain ⟨told, cleared⟩ := exact.told _ here
  rw [set, ask] at told
  rw [ask] at cleared
  have asked : (play (Showcase.full .strict).scenario.config (unheard ++ [askOverflow])).control =
      .leaving (some (.bool true)) := by
    rw [play_concat]
    exact told
  have after := overflow_exact (Showcase.full .strict).scenario.config (unheard ++ [askOverflow])
    (fun ending he => by cases asked.symm.trans he) periodic (by decide)
  refine ⟨exact.flag.mp set, asked, fun overflowed => ?_⟩
  have still := after.flag.mpr overflowed
  rw [play_concat] at still
  cases cleared.symm.trans still

end Machine

end Rtos
