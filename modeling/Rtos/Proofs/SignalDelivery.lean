import Rtos.Proofs.Kernel.Traffic
import Rtos.Proofs.Punctuality
import Rtos.Proofs.Resting

/-!
# Signals are delivered

* `Machine.traffic`: the signals that are sent and taken in an act.
* `Orderly.signals_of_act`: an act changes the signals of a task just as its traffic says.
* `Orderly.received`: what a task gets that has waited for signals.
* `Orderly.listening`: a task that is not runnable and waits for signals has none of them pending.
* `Machine.signals_delivered`: the main result.
-/

namespace Rtos
set_option autoImplicit false

variable {c : Config}

/-- The traffic an operation makes on behalf of a task. -/
def Operation.traffic? (t : c.TaskId) : Operation c → Option (Traffic c)
  | .call made => made.traffic? t
  | .wait left => left.traffic? t

/-- The signals that the operation attempts to get. -/
def Operation.awaits? : Operation c → Option SignalSet
  | .call (.waitSignals set) => some set
  | .wait (.signals set) => some set
  | _ => none

theorem traffic?_of_awaits {op : Operation c} {set : SignalSet} (h : op.awaits? = some set) (t : c.TaskId) :
    op.traffic? t = some (.take t set) := by
  cases op with
  | call made =>
    cases made <;> cases h
    rfl
  | wait left =>
    cases left <;> cases h
    rfl

namespace Machine
open Kernel Traffic

variable {m : Machine c} {detour : Prop} {t : c.TaskId} {a : Act} {set : SignalSet}

/-! ## Traffic -/

/-- The signals that are sent and taken in an act: by the operation of a task, or where the dispatcher applies events
and lets timers fire. -/
def traffic (m : Machine c) (a : Act) : List (Traffic c) :=
  match m.operation? a with
  | some (t, op) => (op.traffic? t).toList
  | none =>
    if m.control = .dispatching ∧ a = .step then
      m.kernel.raisedEvents.filterMap eventTraffic? ++
        ((List.finRange c.timerCount).filter (m.firesIn · a)).filterMap fun id => m.kernel.timers[id].traffic?
    else []

/-- The signals that are sent and taken in a run. -/
def signalLog (c : Config) (acts : List Act) : List (Traffic c) := watch (fun m log a => log ++ m.traffic a) [] acts

theorem signalLog_concat (acts : List Act) (a : Act) :
    signalLog c (acts ++ [a]) = signalLog c acts ++ (play c acts).traffic a :=
  watch_concat _ _ acts a

theorem traffic_operation {op : Operation c} (ho : m.operation? a = some (t, op)) :
    m.traffic a = (op.traffic? t).toList := by
  rw [traffic, ho]

theorem traffic_of_not_dispatching (ho : m.operation? a = none) (hd : ¬ (m.control = .dispatching ∧ a = .step)) :
    m.traffic a = [] := by
  rw [traffic, ho]
  exact if_neg hd

/-- The dispatcher sends the signals of the events that are recorded and of the timers that fire. -/
theorem Orderly.signals_of_settling (h : m.Orderly detour) (hd : m.control = .dispatching)
    (hn : ∀ ending, (m.act .step).control ≠ .ended ending) (t : c.TaskId) :
    (m.act .step).kernel.tasks[t].signals = deliver t m.kernel.tasks[t].signals (m.traffic .step) := by
  have fires : (List.finRange c.timerCount).filter (m.firesIn · .step) = if m.kernel.pendingTicks = 1 then
      (List.finRange c.timerCount).filter fun id => m.kernel.timers[id].enabled ∧ m.kernel.timers[id].expiry =
        m.kernel.now + 1
    else [] := by
    split
    · next one =>
      refine List.filter_congr fun id _ => ?_
      rw [Bool.eq_iff_iff, firesIn_iff h hd hn one, decide_eq_true_iff]
    · next none => simp [firesIn_of_no_tick none]
  rw [traffic, operation?_of_dispatching hd]
  dsimp only
  rw [if_pos ⟨hd, rfl⟩, fires]
  replace h := h.dispatching hd
  rw [act_settles hd] at hn ⊢
  refine run_of_alive (P := fun m' => m'.kernel.tasks[t].signals = _) (settle_signals h) hn fun _ l hl => hl t

/-- What an act does to the signals of a task is what its traffic says. -/
theorem Orderly.signals_of_act (h : m.Orderly detour) (ht : c.tasks.size ≤ c.timerCount)
    (hn : ∀ ending, (m.act a).control ≠ .ended ending) (t : c.TaskId) :
    (m.act a).kernel.tasks[t].signals = deliver t m.kernel.tasks[t].signals (m.traffic a) := by
  by_cases hd : m.control = .dispatching
  · cases a with
    | move move =>
      have quiet : m.traffic (.move move) = [] :=
        traffic_of_not_dispatching (operation?_of_dispatching hd _) fun he => Act.noConfusion he.2
      rw [quiet, act_move_of_kernel (.inl hd)]
      rfl
    | step => exact h.signals_of_settling hd hn t
  rcases m.operates_or_yields a with ⟨u, op, operation, hy⟩ | yields
  · rw [traffic_operation operation]
    refine h.kernel_of_operation ht operation hy hn
      (P := fun l => l.tasks[t].signals = deliver t m.kernel.tasks[t].signals (op.traffic? u).toList)
      (fun call hop ready => ?_) fun wait hop running stranger => ?_
    · subst hop
      exact (perform_signals ht ready fun task he => hy task (he ▸ rfl)).mono (fun _ l hl => hl t) fun _ _ _ => trivial
    · subst hop
      exact (resume_signals ht running wait stranger).mono (fun _ l hl => hl t) fun _ _ _ => trivial
  · have quiet : m.traffic a = [] := by
      cases ho : m.operation? a with
      | none => exact traffic_of_not_dispatching ho fun he => hd he.1
      | some made =>
        obtain ⟨task, he⟩ := yields made.1 made.2 ho
        rw [traffic_operation ho, he]
        rfl
    rw [quiet, ((h.transition (fun _ => ht) a).passive hn hd yields).tasks]
    rfl

/-! ## Waiting for signals -/

/-- If a task returns from waiting for signals, it got those that are pending, and there are some. -/
theorem received_of_takes {k l : Kernel c} {p : Progress c} {value : Value}
    (hp : (p = .dispatch (.waiting (.signals set)) ∧ k.pendingSignals t set = 0) ∨
      (p = .done (.number (k.pendingSignals t set).toNat) ∧ k.pendingSignals t set ≠ 0))
    (hc : (proceed p { m with kernel := l }).control = .leaving (some value)) :
    value = .number (k.pendingSignals t set).toNat ∧ k.pendingSignals t set ≠ 0 := by
  rcases hp with ⟨rfl, _⟩ | ⟨rfl, some⟩
  · cases hc
  · cases hc
    exact ⟨rfl, some⟩

theorem Orderly.received (h : m.Orderly detour) {e : Completion c} (hc : m.completion? a = some e)
    (hw : e.operation.awaits? = some set) :
    e.value = .number (m.kernel.pendingSignals e.task set).toNat ∧ m.kernel.pendingSignals e.task set ≠ 0 := by
  obtain ⟨ho, returns⟩ := completion?_eq_some.mp hc
  obtain ⟨running, ⟨call, reply, rfl, operation, control⟩ | ⟨wait, rfl, operation, control, suspended⟩⟩ :=
    operation?_cases ho
  · obtain ⟨_, ready⟩ := h.program control running
    rw [operation] at hw
    cases call <;> cases hw
    rw [act_call control] at returns
    have takes : Ends (perform (.waitSignals set)) m.kernel _ _ :=
      (ends_bind _ _).mpr (ready.ends_enter.mpr (takeOrWait_takes (k := m.kernel.entered) ready.running set))
    exact run_of_ends (P := fun m' => m'.control = .leaving (some e.value) → _) takes
      (fun p l hl => received_of_takes hl.2) (fun _ _ => False.elim) returns
  · rw [operation] at hw
    cases wait <;> cases hw
    rw [act_wait control ((h.resumes control running).between.thread.trans running) suspended] at returns
    exact run_of_ends (P := fun m' => m'.control = .leaving (some e.value) → _) (takeOrWait_takes running set)
      (fun p l hl => received_of_takes hl.2) (fun _ _ => False.elim) returns

/-- If the task is not runnable and waits for signals, then none of them is pending. -/
def Listening (m : Machine c) (t : c.TaskId) : Prop := ∀ set,
  m.kernel.isRunnable t = false → m.suspensions[t] = .waiting (.signals set) → m.kernel.pendingSignals t set = 0

theorem Orderly.listening (h : m.Orderly detour) (ht : c.tasks.size ≤ c.timerCount)
    (hn : ∀ ending, (m.act a).control ≠ .ended ending) (listening : m.Listening t) : (m.act a).Listening t := by
  intro set blocked suspended
  rcases m.operates_or_yields_self a t with ⟨op, operation, hy⟩ | others
  · obtain ⟨wait, parked, listens⟩ := h.parked ht operation hy hn (P := Listens t)
      (fun call _ ready => perform_listens ht ready call) (fun wait running stranger =>
        resume_listens ht running wait stranger) blocked
    cases parked.symm.trans suspended
    exact listens set rfl
  have transition := h.transition (fun _ => ht) a
  have hushed := transition.hushed h hn others
  -- The task was not runnable before either, so whoever has sent it signals would have made it so.
  have before := hushed.blocked blocked
  have signals := hushed.signals.resolve_left (Bool.eq_false_iff.mp blocked)
  rw [(transition.apart hn (h.away (not_ended_of_act hn) before)).suspension] at suspended
  rw [pendingSignals, signals]
  exact listening set before suspended

theorem listening_play (acts : List Act) (hn : ∀ ending, (play c acts).control ≠ .ended ending) (t : c.TaskId) :
    (play c acts).Listening t := by
  induction acts using play_induction with
  | boot =>
    -- No task has run yet.
    refine run_of_alive (P := fun m => m.Listening t) (boot_tasks (initial c).kernel) hn fun _ l _ set _ suspended => ?_
    cases (Table.getElem_replicate ..).symm.trans suspended
  | act acts a ih =>
    obtain ⟨orderly, timers⟩ := orderly_play (c := c) acts
    have before := not_ended_of_act hn
    exact orderly.listening (timers before) hn (ih before)

/-! ## The result -/

theorem signals_play (acts : List Act) (hn : ∀ ending, (play c acts).control ≠ .ended ending) (t : c.TaskId) :
    (play c acts).kernel.tasks[t].signals = deliver t 0 (signalLog c acts) := by
  induction acts using play_induction with
  | boot =>
    refine run_of_alive (P := fun m => m.kernel.tasks[t].signals = 0) (boot_tasks (initial c).kernel) hn
      fun _ l hl => ?_
    have none : l.tasks[t].signals = 0 := by
      rw [hl]
      simp [initial, Kernel.initial]
    exact none
  | act acts a ih =>
    obtain ⟨orderly, timers⟩ := orderly_play (c := c) acts
    have before := not_ended_of_act hn
    rw [signalLog_concat, deliver_append, ← ih before]
    exact orderly.signals_of_act (timers before) hn t

/-- What is known of signals, given what was sent and taken so far. -/
structure Delivered (m : Machine c) (log : List (Traffic c)) : Prop where
  /-- A signal is pending just if it was sent and has not been taken since. -/
  pending : ∀ (t : c.TaskId) (bit : Nat), m.kernel.tasks[t].signals.has bit = true ↔ Outstanding log t bit
  /-- Whoever returns from waiting for signals gets just those that are pending, at least one, and takes no others. -/
  received : ∀ (a : Act) (e : Completion c) (set : SignalSet), m.completion? a = some e →
    e.operation.awaits? = some set →
    e.value = .number (m.kernel.pendingSignals e.task set).toNat ∧ m.kernel.pendingSignals e.task set ≠ 0 ∧
      (m.act a).kernel.tasks[e.task].signals = m.kernel.tasks[e.task].signals &&& ~~~m.kernel.pendingSignals e.task set
  /-- Whatever neither sends signals to a task nor takes them on its behalf leaves its signals alone. -/
  kept : ∀ (a : Act) (t : c.TaskId), (∀ ending, (m.act a).control ≠ .ended ending) → (∀ e ∈ m.traffic a, e.task ≠ t) →
    (m.act a).kernel.tasks[t].signals = m.kernel.tasks[t].signals
  /-- A task that is not runnable and waits for signals has none of them pending. -/
  listens : ∀ (t : c.TaskId) (set : SignalSet), m.kernel.isRunnable t = false →
    m.suspensions[t] = .waiting (.signals set) →
    m.kernel.pendingSignals t set = 0

/-- Signals are delivered exactly: until the run is over, no signal gets lost, none comes from nowhere or is received
twice, and no task sleeps through a signal it waits for. -/
theorem signals_delivered (c : Config) (acts : List Act) (hn : ∀ ending, (play c acts).control ≠ .ended ending) :
    (play c acts).Delivered (signalLog c acts) := by
  obtain ⟨orderly, timers⟩ := orderly_play (c := c) acts
  have ht := timers hn
  refine ⟨fun t bit => ?_, fun a e set hc hw => ?_, fun a t alive others => ?_,
    fun t set => listening_play acts hn t set⟩
  · rw [signals_play acts hn t]
    exact has_deliver_iff (signalLog c acts) t bit
  · obtain ⟨ho, returns⟩ := completion?_eq_some.mp hc
    obtain ⟨told, some⟩ := orderly.received hc hw
    refine ⟨told, some, ?_⟩
    have takes : (play c acts).traffic a = [.take e.task set] := by
      rw [traffic_operation ho, traffic?_of_awaits hw]
      rfl
    rw [orderly.signals_of_act ht (fun ending he => by cases returns.symm.trans he) e.task, takes, pendingSignals,
      and_not_and]
    exact if_pos rfl
  · rw [orderly.signals_of_act ht alive t]
    exact deliver_of_others others

def firstTask : (Showcase.full .strict).scenario.config.TaskId := ⟨0, Showcase.full_tasks_pos⟩

/-- The first task sends two signals to itself. -/
def sendToSelf : List Act :=
  [.step, .step, .step, .step, .move (.call (.sendSignals 0 5)), .step, .step, .step, .step, .step]

/-- Then it waits for one of them. -/
def takeOne : Act := .move (.call (.waitSignals 4))

theorem signals_delivered_sendToSelf :
    (play (Showcase.full .strict).scenario.config sendToSelf).kernel.pendingSignals firstTask 4 ≠ 0 ∧
      (play (Showcase.full .strict).scenario.config (sendToSelf ++ [takeOne])).kernel.tasks[firstTask].signals.has 0 =
        true ∧
      (play (Showcase.full .strict).scenario.config (sendToSelf ++ [takeOne])).kernel.tasks[firstTask].signals.has 2 =
        false := by
  have sent : (play (Showcase.full .strict).scenario.config sendToSelf).control = .application (some .unit) := by
    decide +kernel
  have took : (play (Showcase.full .strict).scenario.config (sendToSelf ++ [takeOne])).control =
      .leaving (some (.number 4)) := by
    decide +kernel
  have before := signals_delivered (Showcase.full .strict).scenario.config sendToSelf fun ending he => by
    cases sent.symm.trans he
  have after := signals_delivered (Showcase.full .strict).scenario.config (sendToSelf ++ [takeOne]) fun ending he => by
    cases took.symm.trans he
  have log : signalLog (Showcase.full .strict).scenario.config (sendToSelf ++ [takeOne]) =
      [.send firstTask 5, .take firstTask 4] := by decide +kernel
  rw [log] at after
  have completed : (play (Showcase.full .strict).scenario.config sendToSelf).completion? takeOne =
      some ⟨firstTask, .call (.waitSignals 4), .number 4⟩ := by decide +kernel
  refine ⟨(before.received takeOne _ 4 completed rfl).2.1, ?_, ?_⟩
  · refine (after.pending firstTask 0).mpr ⟨[], 5, [.take firstTask 4], rfl, by decide, fun taken hm => ?_⟩
    cases List.mem_singleton.mp hm
    decide
  · refine Bool.eq_false_iff.mpr fun pending => ?_
    have outstanding := (after.pending firstTask 2).mp pending
    rw [← has_deliver_iff] at outstanding
    exact absurd outstanding (by decide)

end Machine

end Rtos
