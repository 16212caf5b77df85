import Rtos.Proofs.Abreast
import Rtos.Proofs.Agreement
import Rtos.Proofs.Preemption
import Rtos.Showcase

/-!
# Introspection goes unnoticed

A program may ask the kernel about its system at any time. The answer takes a critical section, at whose end a task
switch could be due, and under the inheritance policy it may bring the priorities up to date that the policy keeps.
Nobody notices.

* `Call.inspects`: the calls that only tell about the system, `Machine.inquiry`: a program that makes such calls.
* `Kernel.inspected`: all that such a call changes.
* `Mirrors.refresh_eq`: two states that differ in nothing but the priorities that are kept are the same once they are
  brought up to date.
* `Machine.introspection_unnoticed`: the main result.
-/

namespace Rtos
set_option autoImplicit false

variable {c : Config}

/-! ## Calls that only tell about the system -/

/-- Whether the call only tells about the system, and what it is about exists. -/
def Call.inspects (c : Config) : Call → Bool
  | .currentTask | .peekSignals _ | .now => true
  | .effectivePriority task => task < c.tasks.size
  | .holds mutex | .isLocked mutex => mutex < c.mutexes.size
  | .tokens semaphore => semaphore < c.semaphores.size
  | .messages queue => queue < c.queues.size
  | .ticksToFiring timer => timer < c.userTimers
  | _ => false

namespace Kernel

/-- The kernel after a call that only told about it. -/
def inspected (k : Kernel c) : Call → Kernel c
  | .effectivePriority _ => k.refresh
  | _ => k

variable {k : Kernel c} {call : Call}

theorem inspected_eq (k : Kernel c) (call : Call) : ∃ s, k.inspected call = { k with schedule := s } := by
  unfold inspected
  split
  · obtain ⟨s, hs, _⟩ := k.refresh_eq
    exact ⟨s, hs⟩
  · exact ⟨k.schedule, rfl⟩

/-- The call is answered at once, and changes nothing but the priorities that are kept. -/
theorem Ready.perform_inspects {t : c.TaskId} (h : k.Ready t) (inspects : call.inspects c) :
    Ends (perform call) k (fun p l => (∃ answer, p = .done answer) ∧ l = (k.inspected call).entered)
      fun _ _ => False := by
  have running : k.entered.running = some t := h.running
  cases call with
  | currentTask =>
    simp only [perform, ends_bind, h.ends_enter, ends_current_of_running running, ends_pure]
    exact ⟨⟨_, rfl⟩, rfl⟩
  | now =>
    simp only [perform, ends_bind, h.ends_enter, ends_get, ends_pure]
    exact ⟨⟨_, rfl⟩, rfl⟩
  | peekSignals set =>
    simp only [perform, ends_bind, h.ends_enter, ends_current_of_running running, ends_get, ends_pure]
    exact ⟨⟨_, rfl⟩, rfl⟩
  | effectivePriority task =>
    exact ends_of_eq_ok (h.perform_effectivePriority ⟨task, of_decide_eq_true inspects⟩) ⟨⟨_, rfl⟩, rfl⟩
  | holds mutex =>
    simp only [perform, ends_bind, h.ends_enter, ends_current_of_running running, ends_mutexId, ends_get, ends_pure]
    exact ⟨fun _ => ⟨⟨_, rfl⟩, rfl⟩, fun hn => hn (of_decide_eq_true inspects)⟩
  | isLocked mutex | tokens semaphore | messages queue | ticksToFiring timer =>
    simp only [perform, ends_bind, h.ends_enter, ends_mutexId, ends_semaphoreId, ends_queueId, ends_timerId, ends_get,
      ends_pure]
    exact ⟨fun _ => ⟨⟨_, rfl⟩, rfl⟩, fun hn => hn (of_decide_eq_true inspects)⟩
  | _ => cases inspects

/-! ## Priorities that are kept -/

theorem with_schedule_refresh (k : Kernel c) : { k with schedule := k.refresh.schedule } = k.refresh := by
  obtain ⟨s, hs, _⟩ := k.refresh_eq
  rw [hs]

/-- A policy that does not inherit priorities keeps none. -/
theorem Scheduled.refresh_of_ne (h : k.Scheduled) (hp : c.policy ≠ .inheritance) : k.refresh = k := by
  have fits := h.fits
  unfold Kernel.refresh
  split
  · next hs =>
    rw [hs] at fits
    exact absurd fits hp
  · rfl

theorem foldl_inspected_of_ne (h : k.Scheduled) (hp : c.policy ≠ .inheritance) (calls : List Call) :
    calls.foldl inspected k = k := by
  induction calls with
  | nil => rfl
  | cons call calls ih =>
    have same : k.inspected call = k := by
      unfold inspected
      split
      · exact h.refresh_of_ne hp
      · rfl
    rw [List.foldl_cons, same, ih]

/-- Cast for the policy it is already under, a state keeps everything but its schedule. -/
theorem recast_self (k : Kernel c) (s : Schedule c) : k.recast (p := c.policy) s = { k with schedule := s } := by
  have tasks : k.tasks.map (·.recast c.policy) = k.tasks := Table.ext fun t => by
    rw [Table.getElem_map, TaskState.recast]
    rcases k.tasks[t] with ⟨signals, _ | _ | _ | _, timedOut⟩ <;> rfl
  have timers : k.timers.map (·.recast c.policy) = k.timers := Table.ext fun id => by
    rw [Table.getElem_map, TimerState.recast]
    rcases k.timers[id] with ⟨enabled, expiry, reload, overflow, _ | _⟩ <;> rfl
  simp only [recast, tasks, timers]

namespace Mirrors

theorem self (fits : k.schedule.Fits) : Mirrors (p := c.policy) k k :=
  ⟨(k.recast_self k.schedule).symm, fits, fits, fun _ => rfl⟩

theorem refresh_right {l : Kernel c} (h : Mirrors (p := c.policy) k l) : Mirrors (p := c.policy) k l.refresh := by
  have fits' := fits_refresh h.fits'
  obtain ⟨s, hs, runs⟩ := l.refresh_eq
  rw [hs] at fits' ⊢
  exact h.reschedule h.fits fits' fun t => (runs t).trans (h.runnable t)

theorem inspected (fits : k.schedule.Fits) (calls : List Call) :
    Mirrors (p := c.policy) k (calls.foldl Kernel.inspected k) := by
  induction calls using List.reverseRecOn with
  | nil => exact .self fits
  | append_singleton calls call ih =>
    rw [List.foldl_append, List.foldl_cons, List.foldl_nil]
    cases call with
    | effectivePriority task => exact ih.refresh_right
    | _ => exact ih

/-- Under the inheritance policy, states that differ in nothing but the priorities that are kept are the same once these
are brought up to date. -/
theorem refresh_eq {l : Kernel c} (h : Mirrors (p := c.policy) k l) (hk : k.Scheduled) (hl : l.Scheduled)
    (hp : c.policy = .inheritance) : l.refresh = k.refresh := by
  have same : l = { k with schedule := l.schedule } := h.same.trans (k.recast_self l.schedule)
  have blocker : l.blocker = k.blocker := by
    refine blocker_congr h.runnable (fun u _ => ?_) fun u x _ _ => ?_ <;> rw [same]
  obtain ⟨runnable, hs, runs⟩ := hk.schedule_refresh hp
  obtain ⟨runnable', hs', runs'⟩ := hl.schedule_refresh hp
  have row : runnable' = runnable := Table.ext fun u => (runs' u).trans ((h.runnable u).trans (runs u).symm)
  have schedule : l.refresh.schedule = k.refresh.schedule := by rw [hs, hs', blocker, row]
  calc l.refresh = { l with schedule := l.refresh.schedule } := l.with_schedule_refresh.symm
    _ = { k with schedule := k.refresh.schedule } := by
      rw [schedule]
      exact congrArg (fun l : Kernel c => { l with schedule := k.refresh.schedule }) same
    _ = k.refresh := k.with_schedule_refresh

theorem concurs_self {l : Kernel c} (h : Mirrors (p := c.policy) k l) (hk : k.Scheduled) (hl : l.Scheduled)
    (hp : c.policy = .inheritance) : Concurs (p := c.policy) k l where
  scheduled := hk
  scheduled' := hl
  decision := by
    have same := congrArg Kernel.decision (h.refresh_eq hk hl hp)
    rw [decision_refresh, decision_refresh] at same
    exact same
  priority t := congrArg (Kernel.priorityOf · t) (h.refresh_eq hk hl hp)

end Mirrors

end Kernel

theorem Suspension.recast_self (s : Suspension c) : s.recast c.policy = s := by
  rcases s with _ | _ | (_ | _ | _ | ⟨_ | _ | _ | _, _⟩) <;> rfl

namespace Machine

open Kernel

variable {m m' : Machine c} {detour : Prop} {acts acts' : List Act} {reply : Option Value} {call : Call}
    {calls : List Call}

/-! ## Programs that ask -/

/-- A program makes the given calls, each of which is answered at once. -/
def inquiry (calls : List Call) : List Act := calls.flatMap fun call => [.move (.call call), .step]

theorem Orderly.inspects (h : m.Orderly detour) (hc : m.control = .application reply) (inspects : call.inspects c) :
    ∃ answer,
    m.act (.move (.call call)) =
    { m with kernel := (m.kernel.inspected call).entered, control := .leaving (some answer) } ∧
    (m.act (.move (.call call))).act .step =
      { m with kernel := m.kernel.inspected call, control := .application (some answer) } := by
  obtain ⟨t, undisturbed, executes, ready⟩ := h.undisturbed hc
  obtain ⟨_, _, done, ⟨answer, rfl⟩, rfl⟩ := (ready.perform_inspects inspects).exists_ok
  obtain ⟨s, same⟩ := m.kernel.inspected_eq call
  have unasked : (m.kernel.inspected call).entered.preemptPending = false := by rw [same]; exact undisturbed.unasked
  have enabled : (m.kernel.inspected call).preemptDisabled = false := by rw [same]; exact undisturbed.enabled
  have left : { (m.kernel.inspected call).entered with preemptDisabled := false } = m.kernel.inspected call := by
    rw [← enabled]; rfl
  have asked : m.act (.move (.call call)) =
      { m with kernel := (m.kernel.inspected call).entered, control := .leaving (some answer) } := by
    rw [act_call hc, run, done]
    rfl
  refine ⟨answer, asked, ?_⟩
  rw [asked, act_leaves rfl, leave, if_neg (by rw [unasked]; exact Bool.false_ne_true), left]
  rfl

/-- It is still the same task that holds the processor, and nothing has been dispatched. -/
structure Undiverted (m m' : Machine c) : Prop where
  running : m'.kernel.running = m.kernel.running
  processor : m'.kernel.processor = m.kernel.processor
  suspensions : m'.suspensions = m.suspensions
  control : (∃ reply, m'.control = .application reply) ∨ ∃ reply, m'.control = .leaving reply

theorem Undiverted.refl (hc : m.control = .application reply) : m.Undiverted m := ⟨rfl, rfl, rfl, .inl ⟨reply, hc⟩⟩

theorem Undiverted.trans {m'' : Machine c} (h : m.Undiverted m') (h' : m'.Undiverted m'') : m.Undiverted m'' :=
  ⟨h'.running.trans h.running, h'.processor.trans h.processor, h'.suspensions.trans h.suspensions, h'.control⟩

/-- A program that asks keeps the processor, and has changed nothing but the priorities that are kept. -/
theorem inquiry_play (hc : (play c acts).control = .application reply) (inspect : ∀ call ∈ calls, call.inspects c) :
    (∀ part, part <+: inquiry calls → (play c acts).Undiverted (play c (acts ++ part))) ∧
    ∃ answer, play c (acts ++ inquiry calls) =
      { play c acts with kernel := calls.foldl inspected (play c acts).kernel, control := .application answer } := by
  induction calls generalizing acts reply with
  | nil =>
    refine ⟨fun part within => ?_, reply, ?_⟩
    · rw [List.prefix_nil.mp within, List.append_nil]
      exact .refl hc
    · rw [inquiry, List.flatMap_nil, List.append_nil, ← hc]
      rfl
  | cons call calls ih =>
    obtain ⟨orderly, _⟩ := orderly_play (c := c) acts
    obtain ⟨answer, asked, answered⟩ := orderly.inspects hc (inspect call List.mem_cons_self)
    obtain ⟨s, same⟩ := (play c acts).kernel.inspected_eq call
    have first : play c (acts ++ [.move (.call call)]) = _ := (play_concat ..).trans asked
    have second : play c (acts ++ [.move (.call call), .step]) = _ := (play_append ..).trans answered
    have asking : (play c acts).Undiverted (play c (acts ++ [.move (.call call)])) := by
      rw [first, same]
      exact ⟨rfl, rfl, rfl, .inr ⟨_, rfl⟩⟩
    have told : (play c acts).Undiverted (play c (acts ++ [.move (.call call), .step])) := by
      rw [second, same]
      exact ⟨rfl, rfl, rfl, .inl ⟨_, rfl⟩⟩
    -- What follows is asked on a run that already contains the first call.
    have go : ∀ rest, acts ++ .move (.call call) :: .step :: rest = acts ++ [.move (.call call), .step] ++ rest :=
      fun rest =>
      List.append_assoc acts [.move (.call call), .step] rest |>.symm
    obtain ⟨undiverted, reply', done⟩ := ih (congrArg control second)
      fun call hm => inspect call (List.mem_cons_of_mem _ hm)
    refine ⟨fun part within => ?_, reply', ?_⟩
    · obtain rfl | ⟨after, rfl, within'⟩ := List.prefix_cons_iff.mp within
      · rw [List.append_nil]
        exact .refl hc
      obtain rfl | ⟨rest, rfl, within''⟩ := List.prefix_cons_iff.mp within'
      · exact asking
      rw [go]
      exact told.trans (undiverted rest within'')
    · refine (congrArg (play c) (go (inquiry calls))).trans (done.trans ?_)
      rw [second]
      rfl

/-! ## The rest of the run -/

def refreshed (m : Machine c) : Machine c := { m with kernel := m.kernel.refresh }

/-- Both runs have ended in the same way, or they have come to the same place, and differ in nothing but the priorities
that are kept. -/
def Unaltered (m m' : Machine c) : Prop :=
  (∃ ending, m.control = .ended ending ∧ m'.control = .ended ending) ∨ m'.refreshed = m.refreshed

theorem Parallel.concurs_self (parallel : Parallel (p := c.policy) (play c acts) (play c acts'))
    (hp : c.policy = .inheritance) :
    Concurs (p := c.policy) (play c acts).kernel (play c acts').kernel :=
  parallel.mirrors.concurs_self ((orderly_play acts).1.scheduled_inheritance hp)
    ((orderly_play acts').1.scheduled_inheritance hp) hp

theorem coincides_rest (h : Coincides (p := c.policy) (play c acts) (play c acts')) (hp : c.policy = .inheritance)
    (rest : List Act) :
    Coincides (p := c.policy) (play c (acts ++ rest)) (play c (acts' ++ rest)) := by
  have unguarded : c.Unguarded := fun ceiling => by cases hp.symm.trans ceiling
  induction rest using List.reverseRecOn with
  | nil =>
    rw [List.append_nil, List.append_nil]
    exact h
  | append_singleton rest a ih =>
    rw [← List.append_assoc, ← List.append_assoc, play_concat, play_concat]
    exact ih.act unguarded unguarded (fun parallel _ => parallel.concurs_self hp) a

theorem Coincides.unaltered (h : Coincides (p := c.policy) (play c acts) (play c acts'))
    (hp : c.policy = .inheritance) :
    (play c acts').view = (play c acts).view ∧ (play c acts).Unaltered (play c acts') := by
  refine ⟨h.view fun parallel _ => parallel.concurs_self hp, ?_⟩
  cases h with
  | ends ending first second => exact .inl ⟨ending, first, second⟩
  | goes parallel =>
    have kernel := parallel.mirrors.refresh_eq ((orderly_play acts).1.scheduled_inheritance hp)
      ((orderly_play acts').1.scheduled_inheritance hp) hp
    have suspensions : (play c acts').suspensions = (play c acts).suspensions :=
      parallel.suspensions.trans (Table.ext fun t => by
      rw [Table.getElem_map, Suspension.recast_self])
    refine .inr ?_
    rw [refreshed, refreshed, kernel, suspensions, parallel.control]

/-- From a program's next move on, it makes no difference whether the program has asked before. -/
theorem inquiry_unaltered (hc : (play c acts).control = .application reply) (inspect : ∀ call ∈ calls, call.inspects c)
    {move : Move} (program : move ≠ .tick) (program' : move ≠ .endInterrupt) (rest : List Act) :
    (play c (acts ++ inquiry calls ++ .move move :: rest)).view = (play c (acts ++ .move move :: rest)).view ∧
      (play c (acts ++ .move move :: rest)).Unaltered (play c (acts ++ inquiry calls ++ .move move :: rest)) := by
  obtain ⟨_, answer, asked⟩ := inquiry_play hc inspect
  obtain ⟨orderly, _⟩ := orderly_play (c := c) acts
  have scheduled : (play c acts).kernel.Scheduled := orderly.scheduled fun _ he => by cases hc.symm.trans he
  -- What the last call has returned is forgotten with the next move.
  let anew : Machine c := { play c acts with kernel := calls.foldl inspected (play c acts).kernel }
  have forgotten : play c (acts ++ inquiry calls ++ [.move move]) = anew.act (.move move) := by
    have same : play c (acts ++ inquiry calls) = anew.withReply answer := by
      rw [asked, withReply, show anew.control = .application reply from hc]
      rfl
    rw [play_concat, same]
    exact (withReply_moves (m := anew) hc answer move).resolve_right fun waits => waits.2.2.elim program program'
  have go : ∀ acts, acts ++ .move move :: rest = acts ++ [.move move] ++ rest := fun acts => List.append_cons ..
  rw [go, go]
  by_cases hp : c.policy = .inheritance
  · have parallel : Parallel (p := c.policy) (play c acts) anew :=
      ⟨rfl, Table.ext fun t => by rw [Table.getElem_map, Suspension.recast_self], .inspected scheduled.fits calls⟩
    have scheduled' : anew.kernel.Scheduled := by
      have told := (orderly_play (acts ++ inquiry calls)).1.scheduled_inheritance hp
      rw [asked] at told
      exact told
    have unguarded : c.Unguarded := fun ceiling => by cases hp.symm.trans ceiling
    have moved := parallel.act unguarded unguarded (parallel.mirrors.concurs_self scheduled scheduled' hp) (.move move)
    rw [← play_concat, ← forgotten] at moved
    exact (coincides_rest moved hp rest).unaltered hp
  · have none : anew = play c acts := by
      simp only [anew, foldl_inspected_of_ne scheduled hp]
    have same : play c (acts ++ inquiry calls ++ [.move move] ++ rest) = play c (acts ++ [.move move] ++ rest) := by
      rw [play_append _ rest, play_append _ rest, forgotten, none, play_concat]
    rw [same]
    exact ⟨rfl, .inr rfl⟩

/-! ## The main result -/

/-- Wherever the program of a task is at work, outside of interrupt handlers, it may ask as often as it likes: no task
switch comes of it, and from the next move on the run shows the same, and is the same but for the priorities that are
kept. -/
theorem introspection_unnoticed (hc : (play c acts).control = .application reply)
    (inspect : ∀ call ∈ calls, call.inspects c) :
    (∀ part, part <+: inquiry calls → (play c acts).Undiverted (play c (acts ++ part))) ∧
    (∃ answer, play c (acts ++ inquiry calls) =
      { play c acts with kernel := calls.foldl inspected (play c acts).kernel, control := .application answer }) ∧
    ∀ move, move ≠ .tick → move ≠ .endInterrupt → ∀ rest,
      (play c (acts ++ inquiry calls ++ .move move :: rest)).view = (play c (acts ++ .move move :: rest)).view ∧
      (play c (acts ++ .move move :: rest)).Unaltered (play c (acts ++ inquiry calls ++ .move move :: rest)) := by
  obtain ⟨undiverted, answered⟩ := inquiry_play hc inspect
  exact ⟨undiverted, answered, fun move program program' => inquiry_unaltered hc inspect program program'⟩

/-- The most urgent task locks a mutex, by which the priorities that are kept become stale. -/
def lockFirst : List Act := [.step, .step, .step, .step, .move (.call (.lock 1 .forever)), .step]

/-- It asks how urgent another task is, whether the mutex is locked, and for the time. -/
def askThrice : List Act := inquiry [.effectivePriority 2, .isLocked 1, .now]

theorem introspection_unnoticed_lockFirst :
    (play (Showcase.full .inheritance).scenario.config (lockFirst ++ askThrice)).kernel ≠
      (play (Showcase.full .inheritance).scenario.config lockFirst).kernel ∧
    ∀ rest,
    (play (Showcase.full .inheritance).scenario.config (lockFirst ++ askThrice ++ .move (.call .block) :: rest)).view =
      (play (Showcase.full .inheritance).scenario.config (lockFirst ++ .move (.call .block) :: rest)).view := by
  have control : (play (Showcase.full .inheritance).scenario.config lockFirst).control = .application (some .unit) := by
    decide +kernel
  have inspect : ∀ call ∈ [.effectivePriority 2, .isLocked 1, .now],
      Call.inspects (Showcase.full .inheritance).scenario.config call := by decide
  exact ⟨by decide +kernel,
    fun rest => ((introspection_unnoticed control inspect).2.2 (.call .block) nofun nofun rest).1⟩

end Machine

end Rtos
