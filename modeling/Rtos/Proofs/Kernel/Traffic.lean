import Mathlib.Data.List.Induction
import Rtos.Proofs.Kernel.Firing
import Rtos.Proofs.Kernel.Retry

/-!
# Signal traffic

* `Traffic`: signals are sent to a task, or taken by it. `deliver` tells what is pending after some traffic.
* `has_deliver_iff`: a signal is pending just if it was sent and has not been taken since.
* `perform_signals`, `resume_signals`, `settle_signals`: what operations and the dispatcher do to signals is a matter of
  traffic.
* `takeOrWait_takes`: what a task gets that waits for signals.
* `perform_listens`, `resume_listens`: a task that has to wait for signals finds none of them pending.
-/

namespace Rtos
set_option autoImplicit false

variable {c : Config}

/-! ## Sets of signals -/

/-- Whether a signal belongs to a set. -/
def SignalSet.has (set : SignalSet) (bit : Nat) : Bool := set.toBitVec.getLsbD bit

theorem has_zero (bit : Nat) : SignalSet.has 0 bit = false := by simp [SignalSet.has]

theorem has_or (set set' : SignalSet) (bit : Nat) :
    SignalSet.has (set ||| set') bit = (set.has bit || set'.has bit) := by
  simp [SignalSet.has]

theorem has_and_not (set set' : SignalSet) (bit : Nat) :
    SignalSet.has (set &&& ~~~set') bit = (set.has bit && !set'.has bit) := by
  by_cases inside : bit < 32
  · simp [SignalSet.has, inside]
  · simp [SignalSet.has, inside, BitVec.getLsbD_of_ge set.toBitVec bit (Nat.le_of_not_lt inside)]

theorem has_and (set set' : SignalSet) (bit : Nat) :
    SignalSet.has (set &&& set') bit = (set.has bit && set'.has bit) := by
  simp [SignalSet.has]

/-- A set is not empty just if a signal belongs to it. -/
theorem ne_zero_iff_has (set : SignalSet) : set ≠ 0 ↔ ∃ bit, set.has bit = true := by
  constructor
  · intro some
    by_contra! none
    refine some (UInt32.toBitVec_inj.mp (BitVec.eq_of_getLsbD_eq fun i hi => ?_))
    simpa [SignalSet.has] using none i
  · rintro ⟨bit, has⟩ rfl
    rw [has_zero] at has
    exact Bool.false_ne_true has

theorem and_not_and (signals set : SignalSet) : signals &&& ~~~(signals &&& set) = signals &&& ~~~set := by
  refine UInt32.toBitVec_inj.mp (BitVec.eq_of_getLsbD_eq fun i hi => ?_)
  simp only [UInt32.toBitVec_and, UInt32.toBitVec_not, BitVec.getLsbD_and, BitVec.getLsbD_not, hi, decide_true,
    Bool.true_and]
  cases signals.toBitVec.getLsbD i <;> rfl

/-! ## Traffic -/

/-- Signals are sent to a task, or a task takes those of a set that are pending. -/
inductive Traffic (c : Config)
  | send (task : c.TaskId) (set : SignalSet)
  | take (task : c.TaskId) (set : SignalSet)
  deriving DecidableEq

namespace Traffic

variable {t : c.TaskId} {pending : SignalSet} {log log' : List (Traffic c)} {bit : Nat}

def task : Traffic c → c.TaskId
  | send task _ => task
  | take task _ => task

/-- Signals are sent to a task, if it exists. -/
def send? (task : Nat) (set : SignalSet) : Option (Traffic c) :=
  if h : task < c.tasks.size then some (send ⟨task, h⟩ set) else none

/-- What is pending on a task after one piece of traffic. -/
def on (t : c.TaskId) (pending : SignalSet) : Traffic c → SignalSet
  | send task set => if t = task then pending ||| set else pending
  | take task set => if t = task then pending &&& ~~~set else pending

/-- What is pending on a task after some traffic. -/
def deliver (t : c.TaskId) (pending : SignalSet) (log : List (Traffic c)) : SignalSet := log.foldl (on t) pending

theorem deliver_append : deliver t pending (log ++ log') = deliver t (deliver t pending log) log' := List.foldl_append

/-- A task is not affected by the traffic of others. -/
theorem deliver_of_others (h : ∀ e ∈ log, e.task ≠ t) : deliver t pending log = pending := by
  induction log generalizing pending with
  | nil => rfl
  | cons e log ih =>
    have other : on t pending e = pending := by
      have hne := (h e List.mem_cons_self).symm
      cases e <;> exact if_neg hne
    rw [deliver, List.foldl_cons, other]
    exact ih fun e he => h e (List.mem_cons_of_mem _ he)

/-- A signal was sent to the task, and the task has taken no set since to which it belongs. -/
def Outstanding (log : List (Traffic c)) (t : c.TaskId) (bit : Nat) : Prop := ∃ before set after,
  log = before ++ send t set :: after ∧ set.has bit = true ∧ ∀ taken, take t taken ∈ after → taken.has bit = false

theorem not_outstanding_nil :
    ¬ Outstanding [] t bit :=
      fun ⟨_, _, _, he, _⟩ => List.append_ne_nil_of_right_ne_nil _ (List.cons_ne_nil _ _) he.symm

theorem outstanding_concat_iff {e : Traffic c} : Outstanding (log ++ [e]) t bit ↔
    (∃ set, e = send t set ∧ set.has bit = true) ∨
    (Outstanding log t bit ∧ ∀ taken, e = take t taken → taken.has bit = false) := by
  constructor
  · rintro ⟨before, set, after, he, sent, kept⟩
    rcases List.eq_nil_or_concat after with rfl | ⟨after, last, rfl⟩
    · obtain ⟨_, he⟩ := List.append_inj' he rfl
      exact .inl ⟨set, List.singleton_inj.mp he, sent⟩
    · rw [List.concat_eq_append, ← List.cons_append, ← List.append_assoc] at he
      obtain ⟨rfl, same⟩ := List.append_inj' he rfl
      obtain rfl := List.singleton_inj.mp same
      refine .inr ⟨⟨before, set, after, rfl, sent, fun taken hm => kept taken ?_⟩, fun taken he => kept taken ?_⟩
      · exact List.concat_eq_append ▸ List.mem_append_left [e] hm
      · simp [he]
  · rintro (⟨set, rfl, sent⟩ | ⟨⟨before, set, after, rfl, sent, kept⟩, last⟩)
    · exact ⟨log, set, [], rfl, sent, nofun⟩
    · refine ⟨before, set, after ++ [e], by simp, sent, fun taken hm => ?_⟩
      rcases List.mem_append.mp hm with hm | hm
      · exact kept taken hm
      · exact last taken (List.mem_singleton.mp hm).symm

theorem has_on (e : Traffic c) : SignalSet.has (on t pending e) bit = true ↔
    (∃ set, e = send t set ∧ set.has bit = true) ∨
    (pending.has bit = true ∧ ∀ taken, e = take t taken → taken.has bit = false) := by
  cases e with
  | send task set =>
    by_cases he : t = task
    · subst he
      simp [on, has_or, or_comm]
    · simp [on, he, Ne.symm he]
  | take task set =>
    by_cases he : t = task
    · subst he
      simp [on, has_and_not]
    · simp [on, he, Ne.symm he]

/-- A signal is pending just if it was sent and has not been taken since. -/
theorem has_deliver_iff (log : List (Traffic c)) (t : c.TaskId) (bit : Nat) :
    (deliver t 0 log).has bit = true ↔ Outstanding log t bit := by
  induction log using List.reverseRecOn with
  | nil =>
    exact ⟨fun h => absurd h (by rw [deliver, List.foldl_nil, has_zero]; exact Bool.false_ne_true),
      fun h => absurd h not_outstanding_nil⟩
  | append_singleton log e ih =>
    rw [deliver_append, outstanding_concat_iff, ← ih]
    exact has_on e

end Traffic

/-- The traffic a call makes on behalf of a task. -/
def Call.traffic? (t : c.TaskId) : Call → Option (Traffic c)
  | .sendSignals task set => Traffic.send? task set
  | .waitSignals set | .pollSignals set => some (.take t set)
  | _ => none

/-- The traffic the next round of a wait makes on behalf of a task. -/
def Wait.traffic? (t : c.TaskId) : Wait c → Option (Traffic c)
  | .signals set => some (.take t set)
  | _ => none

/-- The traffic an event makes. -/
def eventTraffic? (event : c.EventId) : Option (Traffic c) :=
  match c.eventAction event with
  | .signal task set => Traffic.send? task set
  | _ => none

/-- The traffic a timer makes when it fires. -/
def TimerState.traffic? (s : TimerState c) : Option (Traffic c) :=
  match s.effect with
  | .user (.signal task set) => Traffic.send? task set
  | _ => none

namespace Kernel
open Traffic

variable {k l : Kernel c} {t : c.TaskId} {call : Call} {suspensions : Table (Suspension c) c.tasks.size}

/-! ## Operations -/

theorem deliver_take (k : Kernel c) (t u : c.TaskId) (set : SignalSet) :
    (k.clearSignals t set).tasks[u].signals = deliver u k.tasks[u].signals [.take t set] :=
      k.signals_clearSignals t u set

theorem deliver_send (k : Kernel c) (t u : c.TaskId) (set : SignalSet) :
    (k.sendSignals t set).tasks[u].signals = deliver u k.tasks[u].signals [.send t set] := k.signals_sendSignals t u set

theorem signals_edit? {e : Edit c} (ht : call.traffic? t = none) (he : call.edit? k = some e) : e.signals = false := by
  cases hc : call.change? (c := c) k.now with
  | some made =>
    obtain ⟨timer, change⟩ := made
    simp only [Call.edit?, hc] at he
    obtain ⟨_, he⟩ := Option.dite_none_right_eq_some.mp he
    cases he
    rfl
  | none =>
    cases call with
    | sendSignals task set =>
      obtain ⟨hi, he⟩ := Option.dite_none_right_eq_some.mp he
      simp only [Call.traffic?, send?, dif_pos hi] at ht
      cases ht
    | waitSignals set | pollSignals set => cases ht
    | unblock task | start task | unlock mutex | initMax semaphore max | raise event =>
      obtain ⟨_, he⟩ := Option.dite_none_right_eq_some.mp he
      cases he
      rfl
    | post semaphore =>
      obtain ⟨_, he⟩ := Option.dite_none_right_eq_some.mp he
      obtain ⟨value, _, rfl⟩ := Option.map_eq_some_iff.mp he
      rfl
    | effectivePriority task =>
      cases he
      rfl
    | enableTimer timer | disableTimer timer | oneShot timer timeout | setReload timer reload
    | setTimerSignal timer task set
    | setTimerError timer error | takeOverflow timer => cases hc
    | _ => cases he

theorem signals_changed (k : Kernel c) (t u : c.TaskId) (call : Call) :
    (k.changed t call).tasks[u].signals = deliver u k.tasks[u].signals (call.traffic? t).toList := by
  cases ht : call.traffic? t with
  | none =>
    cases he : call.edit? k with
    | none => rw [changed_of_none he]; rfl
    | some e =>
      rw [changed_of_edit he]
      exact signals_edit k.entered t u (signals_edit? ht he)
  | some traffic =>
    cases call with
    | sendSignals task set =>
      obtain ⟨hi, he⟩ := Option.dite_none_right_eq_some.mp ht
      cases he
      rw [changed_of_edit (e := .send ⟨task, hi⟩ set) (by simp only [Call.edit?, Call.change?, dif_pos hi])]
      exact deliver_send k.entered ⟨task, hi⟩ u set
    | waitSignals set | pollSignals set =>
      cases ht
      rw [changed_of_edit (e := .clear set) rfl]
      exact deliver_take k.entered t u set
    | _ => cases ht

theorem traffic?_of_waits (t : c.TaskId) (waits : call.asks = true ∨ ∃ ticks, call = .sleep ticks) :
    call.traffic? t = none := by
  rcases waits with asks | ⟨ticks, rfl⟩
  · cases call <;> first | rfl | cases asks
  · rfl

/-- Whatever a call does to signals is a matter of traffic. -/
theorem perform_signals (ht : c.tasks.size ≤ c.timerCount) (h : k.Ready t) (hy : ∀ task, call ≠ .yieldTo task) :
    Ends (perform call) k (fun _ l => ∀ u : c.TaskId, l.tasks[u].signals =
      deliver u k.tasks[u].signals (call.traffic? t).toList) fun _ _ => True := by
  rcases call.waits_or_plain hy with waits | plain
  · refine (perform_retains ht h waits).mono (fun _ l retains u => ?_) fun _ _ _ => trivial
    rw [retains.signals u, traffic?_of_waits t waits]
    rfl
  · refine (perform_plain h plain).mono (fun _ l hl u => ?_) fun _ _ _ => trivial
    rw [← signals_changed]
    rcases hl with rfl | rfl <;> rfl

/-- A task that waits for signals takes those that are pending, or waits if there are none. -/
theorem takeOrWait_takes (hr : k.running = some t) (set : SignalSet) : Ends (takeOrWait set) k
    (fun p l => (∀ u : c.TaskId, l.tasks[u].signals = deliver u k.tasks[u].signals [.take t set]) ∧
      ((p = .dispatch (.waiting (.signals set)) ∧ k.pendingSignals t set = 0) ∨
        (p = .done (.number (k.pendingSignals t set).toNat) ∧ k.pendingSignals t set ≠ 0))) fun _ _ => False := by
  simp only [takeOrWait, ends_bind, ends_takeSignals hr, ends_ite, ends_pure,
    ends_suspend (k := k.clearSignals t set) hr]
  exact ⟨fun none => ⟨fun u => k.deliver_take t u set, .inl ⟨trivial, none⟩⟩,
    fun some => ⟨fun u => k.deliver_take t u set, .inr ⟨trivial, some⟩⟩⟩

theorem resume_signals (ht : c.tasks.size ≤ c.timerCount) (hr : k.running = some t) (wait : Wait c)
    (stranger : ∀ x, wait.mutex? = some x → k.holders[x] ≠ some t) : Ends (resume wait) k (fun _ l => ∀ u : c.TaskId,
      l.tasks[u].signals = deliver u k.tasks[u].signals (wait.traffic? t).toList) fun _ _ => True := by
  cases wait with
  | signals set => exact (takeOrWait_takes hr set).mono (fun _ _ hl => hl.1) fun _ _ => False.elim
  | block | sleep | request r deadline =>
    exact (resume_retains ht hr stranger nofun).mono (fun _ _ retains u => retains.signals u) fun _ _ _ => trivial

/-! ## The dispatcher -/

theorem applyEvent_signals (event : c.EventId) (k : Kernel c) : Ends (applyEvent event) k
    (fun _ l => ∀ u : c.TaskId, l.tasks[u].signals = deliver u k.tasks[u].signals (eventTraffic? event).toList)
      fun _ _ => True := by
  unfold applyEvent eventTraffic?
  cases c.eventAction event with
  | unblock task =>
    simp only [ends_bind, ends_taskId, ends_modify]
    exact ⟨fun _ _ => rfl, fun _ => trivial⟩
  | signal task set =>
    simp only [ends_bind, ends_taskId, ends_modify, send?]
    refine ⟨fun hi u => ?_, fun _ => trivial⟩
    rw [dif_pos hi]
    exact k.deliver_send ⟨task, hi⟩ u set

theorem applyEvents_signals (events : List c.EventId) (k : Kernel c) : Ends (events.forM applyEvent) k
    (fun _ l => ∀ u : c.TaskId, l.tasks[u].signals = deliver u k.tasks[u].signals (events.filterMap eventTraffic?))
      fun _ _ => True := by
  refine Ends.forM_of_prefix (I := fun done l => ∀ u : c.TaskId, l.tasks[u].signals =
    deliver u k.tasks[u].signals (done.filterMap eventTraffic?)) events (fun done event rest he l hl => ?_) k
      fun _ => rfl
  refine (applyEvent_signals event l).mono (fun _ m hm u => ?_) fun _ _ _ => trivial
  rw [hm u, hl u, List.filterMap_append, deliver_append, List.filterMap_cons]
  cases eventTraffic? event <;> rfl

theorem fire_signals (id : c.TimerId) (k : Kernel c) : Ends (fire id) k
    (fun _ l => ∀ u : c.TaskId, l.tasks[u].signals = deliver u k.tasks[u].signals k.timers[id].traffic?.toList)
      fun _ _ => True := by
  refine (ends_bind _ _).mpr (ends_get.mpr ?_)
  unfold TimerState.traffic?
  split
  · next he =>
    rw [he]
    exact fun _ => rfl
  · next task set he =>
    rw [he]
    simp only [ends_bind, ends_taskId, ends_get, ends_ite, ends_modify, send?]
    refine ⟨fun hi => ?_, fun _ => trivial⟩
    rw [dif_pos hi]
    exact ⟨fun _ u => deliver_send _ ⟨task, hi⟩ u set, fun _ u => deliver_send _ ⟨task, hi⟩ u set⟩
  · trivial
  · next task he =>
    rw [he]
    exact fun u => signals_modifyTask k task u (f := fun s => { s with timedOut := true }) fun _ => rfl

theorem fireIfDue_signals (id : c.TimerId) (k : Kernel c) : Ends (fireIfDue id) k (fun _ l => ∀ u : c.TaskId,
    l.tasks[u].signals = deliver u k.tasks[u].signals (if k.isDue id then k.timers[id].traffic?.toList else []))
      fun _ _ => True := by
  simp only [fireIfDue, ends_bind, ends_get, ends_ite, ends_modify, ends_pure]
  constructor
  · intro due
    have effect : (k.rearm id).timers[id].traffic? = k.timers[id].traffic? := by
      rw [rearm, modifyTimer, Table.getElem_set_self]
      split <;> rfl
    refine (fire_signals id (k.rearm id)).mono (fun _ l hl u => ?_) fun _ _ _ => trivial
    rw [hl u, effect, if_pos due]
    rfl
  · intro idle u
    rw [if_neg idle]
    rfl

/-- The timers that are due send their signals, in the order of their turns. -/
theorem fireAll_signals {ids : List c.TimerId} (nodup : ids.Nodup) (k : Kernel c) : Ends (ids.forM fireIfDue) k
    (fun _ l => ∀ u : c.TaskId, l.tasks[u].signals = deliver u k.tasks[u].signals
      ((ids.filter (k.isDue ·)).filterMap fun id => k.timers[id].traffic?)) fun _ _ => True := by
  refine (Ends.forM_of_prefix (I := fun done l => Ticked done k l ∧ ∀ u : c.TaskId, l.tasks[u].signals =
    deliver u k.tasks[u].signals ((done.filter (k.isDue ·)).filterMap fun id => k.timers[id].traffic?)) ids
    (fun done id rest he l hl => ?_) k ⟨.nil k, fun _ => rfl⟩).mono (fun _ _ hl => hl.2) fun _ _ h => h
  have new : id ∉ done := fun hi => by
    rw [he, List.nodup_append] at nodup
    exact nodup.2.2 id hi id List.mem_cons_self rfl
  have due : l.isDue id = k.isDue id := by rw [isDue, isDue, hl.1.later id new, hl.1.now]
  refine ((fireIfDue_timers id l).and (fireIfDue_signals id l)).mono (fun _ m hm => ⟨hl.1.concat hm.1 new, fun u => ?_⟩)
    fun _ _ _ => trivial
  rw [hm.2 u, hl.2 u, List.filter_append, List.filterMap_append, deliver_append, due, hl.1.later id new]
  cases hd : k.isDue id with
  | false => simp [hd]
  | true => cases ht : k.timers[id].traffic? <;> simp [hd, ht]

/-- Where events are applied and a tick is counted before some timers have their turns, the signals of the events are
sent first. -/
theorem tick_signals {ids : List c.TimerId} (nodup : ids.Nodup) (events : List c.EventId) (k : Kernel c) :
    Ends (do
      events.forM applyEvent
      modify fun k => { k with now := k.now + 1 }
      ids.forM fireIfDue) k (fun _ l => ∀ u : c.TaskId, l.tasks[u].signals = deliver u k.tasks[u].signals
        (events.filterMap eventTraffic? ++
          (ids.filter fun id => k.timers[id].enabled ∧ k.timers[id].expiry = k.now + 1).filterMap
          fun id => k.timers[id].traffic?)) fun _ _ => True := by
  refine (ends_bind _ _).mpr (((applyEvents_timeless events k).and (applyEvents_signals events k)).mono
    (fun _ l hl => ?_)
    fun _ _ _ => trivial)
  obtain ⟨⟨now, timers, _⟩, signals⟩ := hl
  have due : ∀ id, ({ l with now := l.now + 1 } : Kernel c).isDue id =
      decide (k.timers[id].enabled = true ∧ k.timers[id].expiry = k.now + 1) := fun id => by
    rw [Bool.eq_iff_iff, isDue_iff, decide_eq_true_iff]
    simp only [now, timers]
  refine (ends_bind _ _).mpr ((ends_modify _).mpr ?_)
  refine (fireAll_signals nodup { l with now := l.now + 1 }).mono (fun _ m hm u => ?_) fun _ _ h => h
  rw [deliver_append, hm u, List.filter_congr fun id _ => due id]
  simp only [timers]
  exact congrArg (deliver u · _) (signals u)

/-- What the dispatcher does to signals is a matter of the events that are recorded and of the timers that are due at
the tick. -/
theorem settle_signals (h : k.Between suspensions) : Ends settle k (fun _ l => ∀ u : c.TaskId, l.tasks[u].signals =
    deliver u k.tasks[u].signals (k.raisedEvents.filterMap eventTraffic? ++ (if k.pendingTicks = 1 then
      (List.finRange c.timerCount).filter fun id => k.timers[id].enabled ∧ k.timers[id].expiry = k.now + 1
    else []).filterMap fun id => k.timers[id].traffic?)) fun _ _ => True := by
  rw [settle, ends_bind, ends_takePending h.context_ne_outside h.unmasked]
  rcases k.pendingTicks with _ | _ | n
  · refine Ends.bind (applyEvents_signals k.raisedEvents _) fun _ l signals u => ?_
    rw [if_neg Nat.zero_ne_one, List.filterMap_nil, List.append_nil]
    exact signals u
  · rw [if_pos rfl]
    exact tick_signals (List.nodup_finRange _) k.raisedEvents _
  · exact Ends.bind (applyEvents_signals k.raisedEvents _) fun _ l _ => trivial

/-! ## Waiting for signals -/

/-- If the operation, as far as it got, waits for signals, then none of them is pending. -/
def Listens (t : c.TaskId) (p : Progress c) (l : Kernel c) : Prop :=
  ∀ set, p = .dispatch (.waiting (.signals set)) → l.pendingSignals t set = 0

theorem Parks.listens {p : Progress c} (h : Parks t p l) : Listens t p l := fun set he => h (.signals set) he

theorem Pursued.listens {r : Request c} {deadline : Option Ticks} {p : Progress c} (h : Pursued t k r deadline p l) :
    Listens t p l := by
  cases h <;> exact nofun

theorem Asked.listens {r : Request c} {patience : Patience} {p : Progress c} (h : Asked t k r patience p l) :
    Listens t p l := by
  cases patience with
  | never =>
    obtain ⟨granted, message, rfl, _⟩ := h
    exact nofun
  | forever => exact Pursued.listens h
  | upTo timeout => exact Pursued.listens h

theorem perform_listens (ht : c.tasks.size ≤ c.timerCount) (h : k.Ready t) (call : Call) :
    Ends (perform call) k (Listens t) fun _ _ => True := by
  by_cases ha : call.asks = true
  · refine (asks_spec ht h ha).mono (fun p l asks => ?_) fun _ _ _ => trivial
    obtain ⟨r, patience, _, _, _, asked⟩ := asks
    exact asked.listens
  by_cases hs : ∃ ticks, call = .sleep ticks
  · obtain ⟨ticks, rfl⟩ := hs
    exact (sleep_spec ht h ticks).mono (fun p l sleeps => sleeps.parks.listens) fun _ _ _ => trivial
  by_cases hw : ∃ set, call = .waitSignals set
  · obtain ⟨set, rfl⟩ := hw
    have hr : k.entered.running = some t := h.running
    refine (ends_bind _ _).mpr (h.ends_enter.mpr ((takeOrWait_parks hr set).mono (fun _ _ hl => hl.listens)
      fun _ _ h => h))
  · have carefree := perform_carefree (c := c) (Bool.eq_false_iff.mpr ha) (fun ticks he => hs ⟨ticks, he⟩)
      fun set he => hw ⟨set, he⟩
    exact (carefree.parks (t := t) k).mono (fun _ _ hl => hl.listens) fun _ _ h => h

theorem resume_listens (ht : c.tasks.size ≤ c.timerCount) (hr : k.running = some t) (wait : Wait c)
    (stranger : ∀ x, wait.mutex? = some x → k.holders[x] ≠ some t) : Ends (resume wait) k (Listens t) fun _ _ => True :=
  (resume_parks ht hr wait stranger).mono (fun _ _ hl => hl.listens) fun _ _ h => h

end Kernel

end Rtos
