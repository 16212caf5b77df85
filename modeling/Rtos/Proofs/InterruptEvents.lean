import Mathlib.Data.List.Induction
import Mathlib.Data.List.Perm.Basic
import Mathlib.Tactic.Tauto
import Rtos.Proofs.Abreast
import Rtos.Proofs.Kernel.Firing
import Rtos.Proofs.Preemption

/-!
# Events of interrupt handlers

An interrupt handler only records which events it raises, and that the timer has ticked. The dispatcher applies what was
recorded before the program of a task goes on.

* `Kernel.sendSignals_comm`, `Kernel.applyEvents_perm`: the effects of events commute.
* `Report`, `interruption`: a handler, as the list of what it tells the kernel.
* `Kernel.foldl_noted`, `Kernel.reported_congr`: what is recorded of the reports of a handler depends neither on their
  order nor on how often an event is raised.
* `Machine.Orderly.interrupted`, `Machine.Orderly.settledBy`: what becomes of the reports.
* `Machine.events_applied_once`: the main result.
-/

namespace Rtos
set_option autoImplicit false

variable {c : Config}

/-! ## The effects of events -/

def EventAction.signals : EventAction → SignalSet
  | .unblock _ => 0
  | .signal _ set => set

theorem SlotTable.setRunnable_comm {n m : Nat} (s : SlotTable n m) (t u : Fin n) :
    (s.setRunnable t).setRunnable u = (s.setRunnable u).setRunnable t := by
  unfold setRunnable
  by_cases h : s.taskSlot[t] = s.taskSlot[u]
  · simp only [h]
  · simp only [Array.setIfInBounds_comm _ _ h]

theorem Schedule.setRunnable_comm (s : Schedule c) (t u : c.TaskId) :
    (s.setRunnable t).setRunnable u = (s.setRunnable u).setRunnable t := by
  have table : ∀ runnable : Table Bool c.tasks.size, (runnable.set t true).set u true =
      (runnable.set u true).set t true := by
    intro runnable
    by_cases h : t = u
    · rw [h]
    · exact runnable.set_comm _ _ h
  cases s with
  | strict runnable => exact congrArg Schedule.strict (table runnable)
  | ceiling slots => exact congrArg Schedule.ceiling (slots.setRunnable_comm t u)
  | inheritance runnable priorities stale => exact congrArg (Schedule.inheritance · priorities true) (table runnable)

namespace Kernel

variable {k l : Kernel c}

theorem sendSignals_comm (k : Kernel c) (t u : c.TaskId) (s r : SignalSet) :
    (k.sendSignals t s).sendSignals u r = (k.sendSignals u r).sendSignals t s := by
  have tasks : ((k.sendSignals t s).sendSignals u r).tasks = ((k.sendSignals u r).sendSignals t s).tasks := by
    simp only [sendSignals, modifyTask, makeRunnable]
    by_cases h : t = u
    · subst h
      simp only [Table.getElem_set_self, Table.set_set, UInt32.or_assoc, UInt32.or_comm s r]
    · rw [Table.getElem_set_of_ne _ _ h, Table.getElem_set_of_ne _ _ (Ne.symm h)]
      exact k.tasks.set_comm _ _ h
  have schedule := k.schedule.setRunnable_comm t u
  simp only [sendSignals, modifyTask, makeRunnable] at tasks schedule ⊢
  rw [tasks, schedule]

theorem sendSignals_zero (k : Kernel c) (t : c.TaskId) : k.sendSignals t 0 = k.makeRunnable t := by
  have same : ({ k.tasks[t] with signals := k.tasks[t].signals ||| 0 } : TaskState c) = k.tasks[t] := by
    rw [UInt32.or_zero]
  simp only [sendSignals, modifyTask, same, Table.set_getElem]

/-- The kernel after an event was applied. -/
def afterEvent (aimed : c.Aimed) (k : Kernel c) (event : c.EventId) : Kernel c :=
  k.sendSignals ⟨(c.eventAction event).task, aimed event⟩ (c.eventAction event).signals

theorem applyEvent_eq (aimed : c.Aimed) (k : Kernel c) (event : c.EventId) :
    applyEvent event k = .ok () (k.afterEvent aimed event) := by
  have target := aimed event
  refine Ends.eq_ok ?_
  unfold applyEvent afterEvent
  split <;> next he =>
    simp only [he, EventAction.task] at target
    simp only [ends_bind, ends_taskId, ends_modify, he, EventAction.signals, EventAction.task, sendSignals_zero]
    exact ⟨fun _ => ⟨trivial, trivial⟩, fun hn => hn target⟩

theorem applyEvents_eq (aimed : c.Aimed) (events : List c.EventId) (k : Kernel c) :
    events.forM applyEvent k = .ok () (events.foldl (afterEvent aimed) k) := by
  induction events generalizing k with
  | nil => rfl
  | cons event events ih => exact (bind_ok (applyEvent_eq aimed k event)).trans (ih _)

theorem applyEvents_perm (aimed : c.Aimed) {events events' : List c.EventId} (h : events.Perm events') (k : Kernel c) :
    events.forM applyEvent k = events'.forM applyEvent k := by
  have commutes : RightCommutative (afterEvent (c := c) aimed) := ⟨fun k _ _ => k.sendSignals_comm _ _ _ _⟩
  rw [applyEvents_eq aimed, applyEvents_eq aimed, h.foldl_eq]

end Kernel

/-! ## What a handler reports -/

/-- What an interrupt handler may tell the kernel. -/
inductive Report (c : Config)
  | raise (event : c.EventId)
  | tick
  deriving DecidableEq

def Report.move : Report c → Move
  | .raise event => .call (.raise event)
  | .tick => .tick

/-- An interrupt handler that makes the given reports. -/
def interruption (body : List (Report c)) : List Act :=
  .move .beginInterrupt :: body.map (fun report => .move report.move) ++ [.move .endInterrupt]

namespace Kernel

variable {k : Kernel c} {body body' : List (Report c)}

def noted (k : Kernel c) : Report c → Kernel c
  | .raise event => k.recorded event
  | .tick => requestSwitch { k with pendingTicks := k.pendingTicks + 1 }

/-- The kernel after the reports of a handler were recorded. -/
def reported (k : Kernel c) (body : List (Report c)) : Kernel c :=
  { k with
    raised := Table.ofFn fun event => k.raised[event] || decide (.raise event ∈ body)
    pendingTicks := k.pendingTicks + body.count .tick
    preemptPending := k.preemptPending || !body.isEmpty }

/-- The kernel as the dispatcher finds it after a handler. -/
def interruptedBy (k : Kernel c) (body : List (Report c)) : Kernel c :=
  { k.reported body with preemptDisabled := true, preemptPending := false }

theorem reported_nil (k : Kernel c) : k.reported [] = k := by
  have raised : Table.ofFn (fun event => k.raised[event] || decide (.raise event ∈ ([] : List (Report c)))) =
      k.raised := by
    ext event
    simp
  rw [reported, raised, List.count_nil, List.isEmpty_nil, Bool.not_true, Bool.or_false, Nat.add_zero]

/-- Of the reports only matters which events are raised, and how many ticks there are. -/
theorem reported_congr (k : Kernel c) (same : ∀ report, report ∈ body' ↔ report ∈ body)
    (ticks : body'.count .tick = body.count .tick) : k.reported body' = k.reported body := by
  have empty : body'.isEmpty = body.isEmpty := by
    rw [Bool.eq_iff_iff, List.isEmpty_iff, List.isEmpty_iff, List.eq_nil_iff_forall_not_mem,
      List.eq_nil_iff_forall_not_mem]
    exact forall_congr' fun report => not_congr (same report)
  simp only [reported, same, ticks, empty]

theorem noted_reported (k : Kernel c) (body : List (Report c)) (report : Report c) :
    (k.reported body).noted report = k.reported (body ++ [report]) := by
  cases report with
  | raise event =>
    -- However often an event is raised, it is recorded once.
    have raised : (k.reported body).raised.set event true = (k.reported (body ++ [.raise event])).raised := by
      ext other
      by_cases he : other = event
      · simp [he, reported]
      · rw [Table.getElem_set_of_ne _ _ he]
        simp [he, reported]
    simp only [noted, recorded, requestSwitch, raised]
    simp [reported, List.count_append]
  | tick =>
    simp [noted, requestSwitch, reported, List.count_append, Nat.add_assoc]

theorem foldl_noted (k : Kernel c) (body : List (Report c)) : body.foldl noted k = k.reported body := by
  induction body using List.reverseRecOn with
  | nil => exact k.reported_nil.symm
  | append_singleton body report ih => rw [List.foldl_append, ih, List.foldl_cons, List.foldl_nil, noted_reported]

end Kernel

/-! ## Handlers -/

namespace Machine

open Kernel

variable {m : Machine c} {k : Kernel c} {detour : Prop} {body : List (Report c)} {t : c.TaskId}

theorem act_reports (hc : m.control = .handling) (context : m.kernel.processor.context = .interrupt)
    (unmasked : m.kernel.processor.masked = false) (report : Report c) :
    m.act (.move report.move) = { m with kernel := m.kernel.noted report } := by
  have inside : m.kernel.processor.context ≠ .outside := by
    rw [context]
    exact nofun
  cases report with
  | raise event =>
    have result : perform (.raise event) m.kernel = .ok (.returned .unit) (m.kernel.recorded event) := by
      refine Ends.eq_ok ((ends_bind _ _).mpr ((ends_eventId _).mpr ⟨fun _ => ?_, fun hn => absurd event.isLt hn⟩))
      have context : (m.kernel.recorded event).processor.context = .interrupt := context
      rw [ends_bind, ends_recordEvent inside unmasked, ends_bind, ends_get, ends_ite]
      exact ⟨fun _ => ⟨rfl, rfl⟩, fun hn => absurd context hn⟩
    have context : (m.kernel.recorded event).processor.context = .interrupt := context
    simp only [Report.move, act_handles hc, run, result, proceed, answer, if_pos context, goto, noted, ← hc]
  | tick =>
    have result : deliverTick m.kernel =
        .ok () (requestSwitch { m.kernel with pendingTicks := m.kernel.pendingTicks + 1 }) :=
      Ends.eq_ok ((ends_deliverTick inside unmasked).mpr ⟨rfl, rfl⟩)
    simp only [Report.move, act, move, hc, run, result, noted]

theorem acts_report (hc : m.control = .handling) (context : m.kernel.processor.context = .interrupt)
    (unmasked : m.kernel.processor.masked = false) (body : List (Report c)) :
    (body.map fun report => Act.move report.move).foldl act m = { m with kernel := m.kernel.reported body } := by
  rw [← foldl_noted]
  induction body generalizing m with
  | nil => rfl
  | cons report body ih =>
    have processor : (m.kernel.noted report).processor = m.kernel.processor := by cases report <;> rfl
    rw [List.map_cons, List.foldl_cons, List.foldl_cons, act_reports hc context unmasked report]
    exact ih hc (processor ▸ context) (processor ▸ unmasked)

/-- When the handler is over, it is seen whether a task switch is due. -/
theorem Orderly.reports {reply : Option Value} (h : m.Orderly detour) (hc : m.control = .application reply)
    (body : List (Report c)) :
    (interruption body).foldl Machine.act m =
      { m with kernel := m.kernel.reported body }.run servicePreemption fun serviced m =>
        if serviced then m.goto (.leaving (some .unit)) else m.goto (.application (some .unit)) := by
  obtain ⟨t, undisturbed, executes, ready⟩ := h.undisturbed hc
  have allowed : ¬ (m.kernel.processor.context ≠ .task ∨ m.kernel.processor.masked = true) := by
    simp [ready.context, ready.unmasked]
  let handling : Machine c :=
    { m with kernel := { m.kernel with processor := { m.kernel.processor with context := .interrupt } }
             control := .handling }
  have begun : m.act (.move .beginInterrupt) = handling := by
    simp only [Machine.act, move, hc, beginInterrupt, if_neg allowed, goto, handling]
  have back : { m.kernel.processor with context := .task } = m.kernel.processor := by rw [← ready.context]
  rw [interruption, List.cons_append, List.foldl_cons, List.foldl_append, begun,
    acts_report (m := handling) rfl rfl ready.unmasked body]
  simp only [List.foldl_cons, List.foldl_nil, Machine.act, move, endInterrupt, handling, reported, back]
  let reported : Machine c := { m with kernel := m.kernel.reported body }
  exact show (reported.goto .handling).run _ _ =
    reported.run _ _ from run_goto (fun serviced m => by cases serviced <;> rfl) reported

/-- A handler that has nothing to report goes unnoticed. -/
theorem Orderly.unnoticed {reply : Option Value} (h : m.Orderly detour) (hc : m.control = .application reply) :
    (interruption ([] : List (Report c))).foldl Machine.act m = m.goto (.application (some .unit)) := by
  obtain ⟨t, undisturbed, executes, ready⟩ := h.undisturbed hc
  have result : servicePreemption m.kernel = .ok false m.kernel := by
    refine Ends.eq_ok ?_
    simp [servicePreemption, ends_bind, ends_get, ends_pure, undisturbed.unasked]
  rw [h.reports hc, reported_nil, run, result]
  rfl

/-- After any other handler, the running task is about to leave its critical section, and a task switch is due. -/
theorem Orderly.interrupted {reply : Option Value} (h : m.Orderly detour) (hc : m.control = .application reply)
    (told : body ≠ []) :
    (interruption body).foldl Machine.act m =
      { m with kernel := (m.kernel.reported body).entered, control := .leaving (some .unit) } := by
  obtain ⟨t, undisturbed, executes, ready⟩ := h.undisturbed hc
  have due : (m.kernel.reported body).preemptPending = true := by simp [reported, told]
  have reported : (m.kernel.reported body).Ready t := ⟨ready.running, ready.context, ready.unmasked, ready.enabled⟩
  have result : servicePreemption (m.kernel.reported body) = .ok true (m.kernel.reported body).entered := by
    refine Ends.eq_ok ?_
    simp only [servicePreemption, ends_bind, ends_get, ends_ite, ends_pure, reported.ends_enter]
    exact ⟨fun _ => ⟨trivial, trivial⟩, fun hn => absurd (by simp [due, reported.enabled]) hn⟩
  rw [h.reports hc, run, result]
  rfl

/-! ## What becomes of the reports -/

/-- The machine whose running task was put off while the dispatcher applied the given events and ticks. -/
def settledBy (m : Machine c) (order : List c.EventId) (ticks : Nat) : Machine c :=
  ({ m with kernel := m.kernel.entered }.remember (.returning (some .unit))).run
    (do order.forM applyEvent; applyTicks ticks) fun _ m => m.goto .choosing

/-- The dispatcher applies every event that was raised once, in any order, and then the ticks. -/
theorem settle_interruptedBy (undisturbed : k.Undisturbed t) (ready : k.Ready t) (aimed : c.Aimed)
    {order : List c.EventId} (nodup : order.Nodup) (raised : ∀ event, event ∈ order ↔ .raise event ∈ body) :
    settle (k.interruptedBy body) = (do order.forM applyEvent; applyTicks (body.count Report.tick)) k.entered := by
  have blank : k.raised = Table.replicate _ false := Table.ext fun event => by
    rw [undisturbed.noEvent, Table.getElem_replicate]
  -- Nothing else is recorded, so both lists hold each of the raised events once.
  have events : (k.interruptedBy body).raisedEvents.Perm order := by
    refine (List.perm_ext_iff_of_nodup ((List.nodup_finRange _).filter _) nodup).mpr fun event => ?_
    rw [raised, List.mem_filter]
    simp [interruptedBy, reported, undisturbed.noEvent, List.mem_finRange]
  have ticks : (k.interruptedBy body).pendingTicks = body.count .tick := by
    rw [interruptedBy, reported, undisturbed.noTick, Nat.zero_add]
  have taken : takePending (k.interruptedBy body) = .ok ((k.interruptedBy body).raisedEvents, body.count .tick)
      k.entered := by
    refine Ends.eq_ok ((ends_takePending (k := k.interruptedBy body) ready.inside ready.unmasked).mpr
      ⟨Prod.ext rfl ticks, ?_⟩)
    have quiet : k = { k with raised := Table.replicate _ false, pendingTicks := 0, preemptPending := false } := by
      rw [← blank, ← undisturbed.noTick, ← undisturbed.unasked]
    exact (congrArg entered quiet).symm
  rw [settle, bind_ok taken]
  show EStateM.bind _ _ k.entered = EStateM.bind _ _ k.entered
  rw [EStateM.bind, EStateM.bind, applyEvents_perm aimed events k.entered]

/-- It is the turn of a program or of an interrupt handler. -/
def ProgramTurn (m : Machine c) : Prop := m.control = .handling ∨ ∃ reply, m.control = .application reply

/-- Where it is the kernel's turn, nothing happens before its next step. -/
theorem acts_rest (hm : ¬ m.ProgramTurn) (rest : List Act) :
    rest.foldl Machine.act m = m ∨
      ∃ before after, rest = before ++ after ∧ before.foldl Machine.act m = m.act .step := by
  induction rest with
  | nil => exact .inl rfl
  | cons a rest ih =>
    cases a with
    | step => exact .inr ⟨[.step], rest, rfl, rfl⟩
    -- Only a program or a handler can make a move.
    | move move =>
      have rests : m.act (.move move) = m := by
        simp only [Machine.act, Machine.move]
        split
        · next reply hc => exact absurd (.inr ⟨reply, hc⟩) hm
        · next hc => exact absurd (.inl hc) hm
        · rfl
      rw [List.foldl_cons, rests]
      obtain same | ⟨before, after, split, stepped⟩ := ih
      · exact .inl same
      · refine .inr ⟨.move move :: before, after, congrArg _ split, ?_⟩
        rw [List.foldl_cons, rests, stepped]

/-- Where a handler has reported something, the dispatcher has dealt with it after two steps, and before the next turn
of a program. -/
theorem Orderly.settledBy {reply : Option Value} (h : m.Orderly detour) (hc : m.control = .application reply)
    (aimed : c.Aimed) (told : body ≠ []) {order : List c.EventId} (nodup : order.Nodup)
    (raised : ∀ event, event ∈ order ↔ .raise event ∈ body) {m' : Machine c}
    (hm' : (interruption body).foldl Machine.act m = m') :
    (m'.act .step).act .step = m.settledBy order (body.count .tick) ∧
      ∀ rest, (rest.foldl Machine.act m').ProgramTurn → ∃ before, before <+: rest ∧
        before.foldl Machine.act m' = m.settledBy order (body.count .tick) := by
  obtain ⟨t, undisturbed, executes, ready⟩ := h.undisturbed hc
  have leaving : m' = { m with kernel := (m.kernel.reported body).entered, control := .leaving (some .unit) } :=
    hm'.symm.trans (h.interrupted hc told)
  have dispatching : m'.act .step =
      { m with kernel := m.kernel.interruptedBy body, control := .dispatching
               suspensions := m.suspensions.set t (.returning (some .unit)) } := by
    subst leaving
    exact act_leaves_of_pending rfl (by simp [reported, told, entered]) undisturbed.thread
  have settled : (m'.act .step).act .step = m.settledBy order (body.count .tick) := by
    rw [dispatching, act_settles rfl, Machine.run, settle_interruptedBy undisturbed ready aimed nodup raised,
      Machine.settledBy, remember_eq (m := { m with kernel := m.kernel.entered }) undisturbed.thread, Machine.run]
    rfl
  -- It is the kernel's turn until both steps are done, so the run cannot get past them.
  have first : ¬ m'.ProgramTurn := by simp [leaving, ProgramTurn]
  have second : ¬ (m'.act .step).ProgramTurn := by simp [dispatching, ProgramTurn]
  refine ⟨settled, fun rest turn => ?_⟩
  obtain same | ⟨before, rest, rfl, stepped⟩ := acts_rest first rest
  · exact absurd (same ▸ turn) first
  rw [List.foldl_append, stepped] at turn
  obtain same | ⟨before', rest, rfl, stepped'⟩ := acts_rest second rest
  · exact absurd (same ▸ turn) second
  refine ⟨before ++ before', ⟨rest, List.append_assoc _ _ _⟩, ?_⟩
  rw [List.foldl_append, stepped, stepped', settled]

/-! ## The main result -/

/-- Whatever the tasks have done, and whatever an interrupt handler raises that interrupts the program of a task and
lets the timer tick at most once: every event that was raised is applied exactly once, and then the tick is processed,
before it is the turn of a program again. All that follows depends only on which events were raised and on whether the
timer has ticked, and it does not matter in which order the events are applied. -/
theorem events_applied_once {acts : List Act} {reply : Option Value} (hc : (play c acts).control = .application reply)
    {body : List (Report c)} (once : body.count .tick ≤ 1) :
    (∀ body', body'.count .tick ≤ 1 → (∀ report, report ∈ body' ↔ report ∈ body) → ∀ rest,
      play c (acts ++ interruption body' ++ rest) = play c (acts ++ interruption body ++ rest)) ∧
    (body = [] → play c (acts ++ interruption body) = (play c acts).goto (.application (some .unit))) ∧
    (body ≠ [] → ∀ order : List c.EventId, order.Nodup → (∀ event, event ∈ order ↔ .raise event ∈ body) →
      play c (acts ++ interruption body ++ [.step, .step]) = (play c acts).settledBy order (body.count .tick) ∧
      ∀ rest, (play c (acts ++ interruption body ++ rest)).ProgramTurn → ∃ before, before <+: rest ∧
        play c (acts ++ interruption body ++ before) = (play c acts).settledBy order (body.count .tick)) ∧
    ∀ (k : Kernel c) (order order' : List c.EventId), order.Perm order' →
      order.forM applyEvent k = order'.forM applyEvent k := by
  obtain ⟨orderly, _⟩ := orderly_play (c := c) acts
  have aimed : c.Aimed := (accepted_of_not_ended fun _ he => nomatch hc.symm.trans he).aimed
  have played : ∀ rest, play c (acts ++ rest) = rest.foldl Machine.act (play c acts) := play_append acts
  refine ⟨fun body' once' same rest => ?_, ?_, fun told order nodup raised => ?_,
    fun k _ _ h => applyEvents_perm aimed h k⟩
  · have ticks : body'.count .tick = body.count .tick := by
      have some : 0 < body'.count .tick ↔ 0 < body.count .tick := by
        rw [List.count_pos_iff, List.count_pos_iff, same]
      omega
    rw [play_append, play_append, play_append, play_append, orderly.reports hc, orderly.reports hc,
      reported_congr _ same ticks]
  · rintro rfl
    rw [played, orderly.unnoticed hc]
  · have settled := orderly.settledBy hc aimed told nodup raised rfl
    simp only [play_append]
    exact settled

/-- The most urgent task waits for a signal, and the least urgent one gets its turn. -/
def waitInBackground : List Act :=
  [.step, .step, .step, .step, .move (.call (.waitSignals 1)), .step, .step, .step, .step]

/-- Both events are raised, one of them twice, and the timer ticks in between. -/
def raiseTwice : List (Report (Showcase.full .strict).scenario.config) :=
  [.raise ⟨1, by decide⟩, .tick, .raise ⟨0, by decide⟩, .raise ⟨1, by decide⟩]

def raiseOnce : List (Report (Showcase.full .strict).scenario.config) :=
  [.raise ⟨0, by decide⟩, .raise ⟨1, by decide⟩, .tick]

theorem events_applied_once_waitInBackground :
    (play (Showcase.full .strict).scenario.config waitInBackground).control = .application none ∧
    (∀ rest, play (Showcase.full .strict).scenario.config (waitInBackground ++ interruption raiseTwice ++ rest) =
      play (Showcase.full .strict).scenario.config (waitInBackground ++ interruption raiseOnce ++ rest)) ∧
    play (Showcase.full .strict).scenario.config (waitInBackground ++ interruption raiseOnce ++ [.step, .step]) =
      (play (Showcase.full .strict).scenario.config waitInBackground).settledBy [⟨1, by decide⟩, ⟨0, by decide⟩] 1 := by
  have control : (play (Showcase.full .strict).scenario.config waitInBackground).control = .application none := by
    decide +kernel
  have events : ∀ event, event ∈ [⟨1, by decide⟩, ⟨0, by decide⟩] ↔ .raise event ∈ raiseOnce := by decide
  have same : ∀ report, report ∈ raiseTwice ↔ report ∈ raiseOnce := by
    simp only [raiseTwice, raiseOnce, List.mem_cons, List.not_mem_nil, or_false]
    tauto
  have once := events_applied_once control (show raiseOnce.count .tick ≤ 1 by decide)
  exact ⟨control, once.1 raiseTwice (by decide) same, (once.2.2.1 (by decide) _ (by decide) events).1⟩

end Machine

end Rtos
