import Rtos.Proofs.Kernel.Resources
import Rtos.Proofs.Transition

/-!
# Histories

* `Operation`: what the program of a task has the kernel do in one critical section: a call, or the next round of a
  wait.
* `Machine.history`: the operations that come to an end in a run, in the order of their last critical sections, with the
  values they return.
* `Machine.Attempts`: what an attempt to have a request granted does to a machine (`Orderly.attempts`).
* `Orderly.untouched`: what no operation changes that is about mutexes, semaphores or queues, nothing changes.
* `Machine.Granted`, `Machine.Refused`: how an attempt comes out.
-/

namespace Rtos
set_option autoImplicit false

variable {c : Config}

/-- What the program of a task has the kernel do. -/
inductive Operation (c : Config)
  | call (call : Call)
  /-- The next round of a wait. -/
  | wait (wait : Wait c)
  deriving DecidableEq

/-- The request an operation makes. -/
def Operation.request? : Operation c → Option (Request c)
  | .call made => (made.request? c).map Prod.fst
  | .wait (.request r _) => some r
  | .wait _ => none

/-- The kernel accepts the arguments of an operation: its timeout is not too long, and its message has the right
size. -/
def Operation.Sound : Operation c → Prop
  | .call made => ∀ r patience, made.request? c = some (r, patience) →
    Kernel.Accepts patience ∧ ∀ q, r.object = .queue q → r.buffer.length = Kernel.elementSize q
  | .wait _ => True

/-- Whether a value tells that a request was granted. -/
def Value.granted : Value → Bool
  | .unit => true
  | .bool value => value
  | .number _ => false
  | .message received _ => received

/-- An operation that has come to its end. -/
structure Completion (c : Config) where
  task : c.TaskId
  operation : Operation c
  value : Value
  deriving DecidableEq

/-- The request that was granted by the operation. -/
def Completion.granted? (e : Completion c) : Option (Request c) :=
  if e.value.granted then e.operation.request? else none

theorem granted?_reply {t : c.TaskId} {op : Operation c} {r : Request c} (h : op.request? = some r) (canFail : Bool)
    (message : Buffer) : (⟨t, op, Kernel.reply r canFail true message⟩ : Completion c).granted? = some r := by
  have told : (Kernel.reply r canFail true message).granted = true := by
    cases r <;> cases canFail <;> rfl
  rw [Completion.granted?, if_pos told, h]

theorem granted?_denied {t : c.TaskId} {op : Operation c} {r : Request c} {message : Buffer} :
    (⟨t, op, Kernel.reply r true false message⟩ : Completion c).granted? = none := by
  cases r <;> rfl

namespace Machine
open Kernel

variable {m m' : Machine c} {detour : Prop} {t : c.TaskId} {a : Act}

/-- The operation that an act does a critical section of, and the task it is done for. -/
def operation? (m : Machine c) : Act → Option (c.TaskId × Operation c)
  | .move (.call call) =>
    match m.control with
    | .application _ => m.kernel.running.map fun task => (task, .call call)
    | _ => none
  | .step =>
    match m.control, m.kernel.running with
    | .resuming, some task =>
      match m.suspensions[task] with
      | .waiting wait => some (task, .wait wait)
      | _ => none
    | _, _ => none
  | _ => none

/-- The operation that an act brings to its end. -/
def completion? (m : Machine c) (a : Act) : Option (Completion c) :=
  match m.operation? a, (m.act a).control with
  | some (task, operation), .leaving (some value) => some ⟨task, operation, value⟩
  | _, _ => none

/-- The operations that come to an end from a machine on. -/
def completions (m : Machine c) : List Act → List (Completion c)
  | [] => []
  | a :: acts => (m.completion? a).toList ++ (m.act a).completions acts

/-- The operations that come to an end in a run. -/
def history (c : Config) (acts : List Act) : List (Completion c) := (boot c).completions acts

theorem completions_append (m : Machine c) (acts acts' : List Act) :
    m.completions (acts ++ acts') = m.completions acts ++ (acts.foldl act m).completions acts' := by
  induction acts generalizing m with
  | nil => rfl
  | cons a acts ih => simp only [List.cons_append, completions, List.foldl_cons, ih, List.append_assoc]

theorem history_concat (acts : List Act) (a : Act) :
    history c (acts ++ [a]) = history c acts ++ ((play c acts).completion? a).toList := by
  rw [history, completions_append, ← history, ← play]
  simp only [completions, List.append_nil]

theorem filterMap_history_concat {α : Type} (f : Completion c → Option α) (acts : List Act) (a : Act) :
    (history c (acts ++ [a])).filterMap f =
      (history c acts).filterMap f ++ (((play c acts).completion? a).bind f).toList := by
  rw [history_concat, List.filterMap_append]
  cases (play c acts).completion? a with
  | none => rfl
  | some e => cases he : f e <;> simp [he]

/-- Either a call of the program, or the next round of a wait after the task was given the processor. -/
theorem operation?_cases {op : Operation c} (h : m.operation? a = some (t, op)) : m.kernel.running = some t ∧
    ((∃ call reply, a = .move (.call call) ∧ op = .call call ∧ m.control = .application reply) ∨
      ∃ wait, a = .step ∧ op = .wait wait ∧ m.control = .resuming ∧ m.suspensions[t] = .waiting wait) := by
  unfold operation? at h
  split at h
  · next call =>
    split at h
    · next reply hc =>
      obtain ⟨u, hu, he⟩ := Option.map_eq_some_iff.mp h
      cases he
      exact ⟨hu, .inl ⟨call, reply, rfl, rfl, hc⟩⟩
    · cases h
  · split at h
    · next task hc hr =>
      split at h
      · next wait hs =>
        cases h
        exact ⟨hr, .inr ⟨wait, rfl, rfl, hc, hs⟩⟩
      · cases h
    · cases h
  · cases h

theorem operation?_call {reply : Option Value} (hc : m.control = .application reply) (hr : m.kernel.running = some t)
    (call : Call) : m.operation? (.move (.call call)) = some (t, .call call) := by
  simp [operation?, hc, hr]

theorem operation?_wait {wait : Wait c} (hc : m.control = .resuming) (hr : m.kernel.running = some t)
    (hs : m.suspensions[t] = .waiting wait) : m.operation? .step = some (t, .wait wait) := by
  simp [operation?, hc, hr, hs]

theorem completion?_eq_some {e : Completion c} : m.completion? a = some e ↔
    m.operation? a = some (e.task, e.operation) ∧ (m.act a).control = .leaving (some e.value) := by
  unfold completion?
  split
  · next task operation value ho hc =>
    rw [ho, hc]
    cases e
    simp
    exact and_assoc.symm
  · next hn =>
    refine ⟨nofun, fun h => ?_⟩
    exact absurd h.2 (hn _ _ _ h.1)

/-! ## Attempts -/

theorem act_call {reply : Option Value} (hc : m.control = .application reply) (call : Call) :
    m.act (.move (.call call)) = m.run (perform call) proceed := by
  simp only [act, move, hc]

theorem act_wait {wait : Wait c} (hc : m.control = .resuming) (ht : m.kernel.processor.thread = some t)
    (hs : m.suspensions[t] = .waiting wait) : m.act .step = m.run (resume wait) proceed := by
  simp only [act, step, hc, ht, resumeAt, hs]

theorem act_leaves {reply : Option Value} (hc : m.control = .leaving reply) : m.act .step = m.leave reply := by
  simp only [act, step, hc]

theorem act_leaves_of_pending {reply : Option Value} (hc : m.control = .leaving reply)
    (asked : m.kernel.preemptPending = true) (ht : m.kernel.processor.thread = some t) :
    m.act .step =
      { m with kernel := { m.kernel with preemptDisabled := true, preemptPending := false }, control := .dispatching
               suspensions := m.suspensions.set t (.returning reply) } := by
  simp only [act_leaves hc, leave, asked, if_true, remember, ht, goto]

theorem act_returns {reply : Option Value} (hc : m.control = .resuming) (ht : m.kernel.processor.thread = some t)
    (hs : m.suspensions[t] = .returning reply) : m.act .step = m.goto (.leaving reply) := by
  simp only [act, step, hc, ht, resumeAt, hs]

/-- What an attempt to have a request granted does to a machine. -/
inductive Attempts (m : Machine c) (t : c.TaskId) (r : Request c) (m' : Machine c) : Prop
  | granted (canFail : Bool) (allowed : r.edit.Allowed t m.kernel)
    (control : m'.control = .leaving (some (reply r canFail true (m.kernel.received r))))
    (resources : m'.kernel.resources = (r.edit.apply t m.kernel).resources)
    (suspensions : m'.suspensions = m.suspensions)
  | denied (denied : m.kernel.Denies t r) (control : m'.control = .leaving (some (reply r true false r.buffer)))
    (resources : m'.kernel.resources = m.kernel.resources) (suspensions : m'.suspensions = m.suspensions)
  | waits (deadline : Option Ticks) (refused : m.kernel.Refuses t r) (control : m'.control = .dispatching)
    (resources : m'.kernel.resources = m.kernel.resources)
    (suspensions : m'.suspensions = m.suspensions.set t (.waiting (.request r deadline)))
  | fails (ending : Ending) (control : m'.control = .ended ending)

theorem attempts_of_answered {r : Request c} {p : Progress c} {l : Kernel c} (h : Answered t m.kernel r p l)
    (ht : l.processor.thread = some t) : m.Attempts t r (proceed p { m with kernel := l }) := by
  cases h with
  | granted canFail allowed resources => exact .granted canFail allowed rfl resources rfl
  | denied denied resources => exact .denied denied rfl resources rfl
  | waits deadline refused resources =>
    rw [proceed_dispatch ht]
    exact .waits deadline refused rfl resources rfl

theorem Orderly.attempts (h : m.Orderly detour)
    (ht : (∀ ending, m.control ≠ .ended ending) → c.tasks.size ≤ c.timerCount) {op : Operation c} {r : Request c}
    (ho : m.operation? a = some (t, op)) (hr : op.request? = some r) : m.Attempts t r (m.act a) := by
  obtain ⟨running, ⟨call, reply, rfl, rfl, hc⟩ | ⟨wait, rfl, rfl, hc, hs⟩⟩ := operation?_cases ho
  · have ht := ht fun ending he => by cases hc.symm.trans he
    obtain ⟨executes, ready⟩ := h.program hc running
    obtain ⟨⟨r', patience⟩, hr', he⟩ := Option.map_eq_some_iff.mp hr
    obtain rfl : r' = r := he
    rw [act_call hc]
    refine run_of_ends (P := m.Attempts t r') (asks_spec ht ready (call.asks_of_request hr')) (fun p l asks => ?_)
      fun ending l _ => .fails ending rfl
    obtain ⟨r'', patience', hr'', _, _, asked⟩ := asks
    cases hr'.symm.trans hr''
    exact attempts_of_answered (asked.answered.congr rfl) (asked.goes.frame.thread executes.owned.thread)
  · have ht := ht fun ending he => by cases hc.symm.trans he
    have resumes := h.resumes hc running
    have thread := resumes.between.thread.trans running
    rw [act_wait hc thread hs]
    cases wait with
    | request r' deadline =>
      obtain rfl : r' = r := Option.some.inj hr
      refine run_of_ends (P := m.Attempts t r') (pursueOn_spec ht running (resumes.stranger hs) deadline)
        (fun p l hl => ?_)
        fun ending l _ => .fails ending rfl
      obtain ⟨k, disarmed, pursued⟩ := hl
      obtain ⟨es, edits, _⟩ := disarmed.edits r'.object
      refine attempts_of_answered (pursued.answered.congr ?_) ?_
      · exact (resources_noteWaiters _ _).trans disarmed.resources
      · exact (edits.frame.trans pursued.goes.frame).thread thread
    | block => cases hr
    | sleep => cases hr
    | signals set => cases hr

/-- If the kernel does not accept the arguments of a call, the run is over. -/
theorem Orderly.sound (h : m.Orderly detour)
    (ht : (∀ ending, m.control ≠ .ended ending) → c.tasks.size ≤ c.timerCount) {op : Operation c}
    (ho : m.operation? a = some (t, op)) : (∃ ending, (m.act a).control = .ended ending) ∨ op.Sound := by
  obtain ⟨running, ⟨call, reply, rfl, rfl, hc⟩ | ⟨wait, rfl, rfl, hc, hs⟩⟩ := operation?_cases ho
  · by_cases ha : call.asks = true
    · have ht := ht fun ending he => by cases hc.symm.trans he
      obtain ⟨executes, ready⟩ := h.program hc running
      rw [act_call hc]
      refine run_of_ends (P := fun m' => (∃ ending, m'.control = .ended ending) ∨ (Operation.call call).Sound)
        (asks_spec ht ready ha) (fun p l asks => .inr fun r patience hr => ?_) fun ending l _ => .inl ⟨ending, rfl⟩
      obtain ⟨r', patience', request, accepts, sized, _⟩ := asks
      cases hr.symm.trans request
      exact ⟨accepts, sized⟩
    · exact .inr fun r patience hr => absurd (call.asks_of_request hr) ha
  · exact .inr trivial

theorem not_ended_of_answered {r : Request c} {p : Progress c} {l : Kernel c} (h : Answered t m.kernel r p l)
    (ending : Ending) : (proceed p { m with kernel := l }).control ≠ .ended ending := by
  cases h <;> exact nofun

/-- An attempt to pass a message to or from a queue does not end the run if the arguments are right and the message is
in memory of the caller. -/
theorem Orderly.exchanges (h : m.Orderly detour)
    (ht : (∀ ending, m.control ≠ .ended ending) → c.tasks.size ≤ c.timerCount) {op : Operation c} {r : Request c}
    (ho : m.operation? a = some (t, op)) (hr : op.request? = some r) {q : c.QueueId} (hq : r.object = .queue q)
    {bytes : List UInt8} (own : r.buffer = .own bytes) (sound : op.Sound) (ending : Ending) :
    (m.act a).control ≠ .ended ending := by
  obtain ⟨running, ⟨call, reply, rfl, rfl, hc⟩ | ⟨wait, rfl, rfl, hc, hs⟩⟩ := operation?_cases ho
  · have ht := ht fun ending he => by cases hc.symm.trans he
    obtain ⟨executes, ready⟩ := h.program hc running
    obtain ⟨⟨r', patience⟩, hr', he⟩ := Option.map_eq_some_iff.mp hr
    obtain rfl : r' = r := he
    obtain ⟨accepts, sized⟩ := sound r' patience hr'
    have size : bytes.length = elementSize q := by
      rw [← sized q hq, own]
      rfl
    rw [act_call hc]
    refine run_of_ends (P := fun m' => m'.control ≠ .ended ending) (exchanges_spec ht ready hr' hq own size accepts)
      (fun p l asks => ?_) fun _ _ => False.elim
    obtain ⟨r'', patience', hr'', _, _, asked⟩ := asks
    cases hr'.symm.trans hr''
    exact not_ended_of_answered (asked.answered.congr rfl) ending
  · have ht := ht fun ending he => by cases hc.symm.trans he
    have resumes := h.resumes hc running
    rw [act_wait hc (resumes.between.thread.trans running) hs]
    cases wait with
    | request r' deadline =>
      obtain rfl : r' = r := Option.some.inj hr
      refine run_of_ends (P := fun m' => m'.control ≠ .ended ending)
        (pursueOn_spec ht running (resumes.stranger hs) deadline)
        (fun p l hl => ?_) fun ending l hl => ?_
      · obtain ⟨k, disarmed, pursued⟩ := hl
        have same : ((Edit.endWait r'.object).apply t k).resources = m.kernel.resources :=
          (resources_noteWaiters _ _).trans disarmed.resources
        exact not_ended_of_answered (pursued.answered.congr same) ending
      · obtain ⟨k, _, _, _, start, n, overlaps⟩ := hl
        rw [own] at overlaps
        cases overlaps
    | block => cases hr
    | sleep => cases hr
    | signals set => cases hr

/-! ## Everything else -/

/-- The shared objects stay as they are, and nobody comes to wait for a request. -/
structure Untouched (m m' : Machine c) : Prop where
  resources : m'.kernel.resources = m.kernel.resources
  requests : ∀ (u : c.TaskId) (r : Request c) (d : Option Ticks),
    m'.suspensions[u] = .waiting (.request r d) → m.suspensions[u] = .waiting (.request r d)

theorem requests_set {s : Suspension c} (hs : ∀ r d, s ≠ .waiting (.request r d)) (u : c.TaskId) (r : Request c)
    (d : Option Ticks) (h : (m.suspensions.set t s)[u] = .waiting (.request r d)) :
    m.suspensions[u] = .waiting (.request r d) := by
  by_cases hu : u = t
  · subst hu
    exact absurd ((Table.getElem_set_self ..).symm.trans h) (hs r d)
  · rwa [Table.getElem_set_of_ne m.suspensions s hu] at h

theorem untouched_proceed {p : Progress c} {k l : Kernel c} {mutex : Option c.MutexId} (hg : Goes t k mutex p l)
    (ht : l.processor.thread = some t) (hr : l.resources = m.kernel.resources) (hp : p.awaited? = none) :
    m.Untouched (proceed p { m with kernel := l }) := by
  cases hg with
  | done value edits takes => exact ⟨hr, fun _ _ _ hs => hs⟩
  | @stops l k' es s edits takes stop waits =>
    rw [proceed_dispatch ht]
    refine ⟨hr, requests_set fun r d he => ?_⟩
    rw [he] at hp
    cases hp

/-- An act leaves mutexes, semaphores and queues alone, unless it does an operation that is about them. -/
theorem Orderly.untouched (h : m.Orderly detour)
    (ht : (∀ ending, m.control ≠ .ended ending) → c.tasks.size ≤ c.timerCount) (a : Act)
    (hc : ∀ u call, m.operation? a = some (u, .call call) → call.asks = false ∧ call.gives = false)
    (hw : ∀ u r d, m.operation? a ≠ some (u, .wait (.request r d))) :
    (∃ ending, (m.act a).control = .ended ending) ∨ m.Untouched (m.act a) := by
  have transition := h.transition ht a
  generalize hm : m.act a = m' at transition ⊢
  cases transition with
  | rests => exact .inr ⟨rfl, fun _ _ _ hs => hs⟩
  | stops ending scheduled => exact .inl ⟨ending, rfl⟩
  | fails scheduled misplaced => exact .inl ⟨_, rfl⟩
  | settles control between settled narrows result =>
    exact .inr ⟨(settle_resources m.kernel).of_result result, fun _ _ _ hs => hs⟩
  | idles control between decision idled =>
    exact .inr ⟨idled.resources.trans (resources_refresh _), fun _ _ _ hs => hs⟩
  | dispatches control between settled decision handed =>
    exact .inr ⟨handed.resources.trans (resources_refresh _), fun _ _ _ hs => hs⟩
  | returns control resumes reply suspended => exact .inr ⟨rfl, fun _ _ _ hs => hs⟩
  | @wakes t wait es k l p control resumes suspended edits takes executes goes result =>
    have other : ∀ r d, wait ≠ .request r d := by
      rintro r d rfl
      exact hw t r d (operation?_wait control resumes.running suspended)
    obtain ⟨resources, awaited⟩ := (resume_resources resumes.running other).of_result result
    exact .inr (untouched_proceed goes (goes.frame.thread executes.owned.thread) resources awaited)
  | leaves control executes context unasked => exact .inr ⟨rfl, fun _ _ _ hs => hs⟩
  | preempts control executes context => exact .inr ⟨rfl, requests_set nofun⟩
  | @calls t reply p l control executes ready unasked call other result goes disabled =>
    obtain ⟨asks, gives⟩ := hc t call (operation?_call control ready.running call)
    have timers := ht fun ending he => by cases control.symm.trans he
    obtain ⟨resources, awaited⟩ := (perform_resources timers ready asks gives other).of_result result
    exact .inr (untouched_proceed goes (goes.frame.thread executes.owned.thread) resources awaited)
  | yields control executes ready task => exact .inr ⟨rfl, requests_set nofun⟩
  | yieldsTo control executes ready task runnable handed => exact .inr ⟨handed.resources, requests_set nofun⟩
  | strays control executes task halts => exact .inl ⟨_, rfl⟩
  | interrupts control executes enabled => exact .inr ⟨rfl, fun _ _ _ hs => hs⟩
  | raises control executes context enabled call event => exact .inr ⟨rfl, fun _ _ _ hs => hs⟩
  | ticks control executes context enabled => exact .inr ⟨rfl, fun _ _ _ hs => hs⟩
  | services control executes enabled => exact .inr ⟨rfl, fun _ _ _ hs => hs⟩
  | continues control executes enabled unasked => exact .inr ⟨rfl, fun _ _ _ hs => hs⟩

theorem Orderly.unlocks (h : m.Orderly detour) {mutex : Nat} (ho : m.operation? a = some (t, .call (.unlock mutex))) :
    (∃ ending, (m.act a).control = .ended ending) ∨ ∃ x : c.MutexId, x.val = mutex ∧ m.kernel.holders[x] = some t ∧
      (m.act a).control = .leaving (some .unit) ∧ (m.act a).kernel.resources = (m.kernel.freeMutex x).resources ∧
      (m.act a).suspensions = m.suspensions := by
  obtain ⟨running, ⟨call, reply, rfl, he, hc⟩ | ⟨wait, rfl, he, hc, hs⟩⟩ := operation?_cases ho
  · cases he
    obtain ⟨executes, ready⟩ := h.program hc running
    rw [act_call hc]
    refine run_of_ends (P := fun m' => (∃ ending, m'.control = .ended ending) ∨ ∃ x : c.MutexId, x.val = mutex ∧
        m.kernel.holders[x] = some t ∧ m'.control = .leaving (some .unit) ∧
        m'.kernel.resources = (m.kernel.freeMutex x).resources ∧ m'.suspensions = m.suspensions)
      (unlock_spec ready mutex) (fun p l hl => ?_) fun ending l _ => .inl ⟨ending, rfl⟩
    obtain ⟨rfl, x, hx, holds, resources⟩ := hl
    exact .inr ⟨x, hx, holds, rfl, resources, rfl⟩
  · cases he

theorem Orderly.posts (h : m.Orderly detour) {call : Call} (ho : m.operation? a = some (t, .call call))
    (hc : (∃ semaphore, call = .post semaphore) ∨ ∃ semaphore max, call = .initMax semaphore max) :
    (∃ ending, (m.act a).control = .ended ending) ∨ ((m.act a).control = .leaving (some .unit) ∧
      (m.act a).kernel.holders = m.kernel.holders ∧ (m.act a).kernel.rings = m.kernel.rings ∧
      (m.act a).kernel.pool = m.kernel.pool ∧ (m.act a).suspensions = m.suspensions) := by
  obtain ⟨running, ⟨call', reply, rfl, he, hctrl⟩ | ⟨wait, rfl, he, _⟩⟩ := operation?_cases ho
  · cases he
    obtain ⟨executes, ready⟩ := h.program hctrl running
    rw [act_call hctrl]
    refine run_of_ends (P := fun m' => (∃ ending, m'.control = .ended ending) ∨ (m'.control = .leaving (some .unit) ∧
        m'.kernel.holders = m.kernel.holders ∧ m'.kernel.rings = m.kernel.rings ∧ m'.kernel.pool = m.kernel.pool ∧
        m'.suspensions = m.suspensions))
      (post_resources ready hc) (fun p l hl => ?_) fun ending l _ => .inl ⟨ending, rfl⟩
    obtain ⟨rfl, hh, hq, hp⟩ := hl
    exact .inr ⟨rfl, hh, hq, hp, rfl⟩
  · cases he

/-- A call for an object that does not exist ends the run. -/
theorem Orderly.ended_of_no_request (h : m.Orderly detour)
    (ht : (∀ ending, m.control ≠ .ended ending) → c.tasks.size ≤ c.timerCount) {call : Call}
    (ho : m.operation? a = some (t, .call call)) (ha : call.asks = true) (hr : call.request? c = none) :
    ∃ ending, (m.act a).control = .ended ending := by
  obtain ⟨running, ⟨call', reply, rfl, he, hc⟩ | ⟨wait, rfl, he, _⟩⟩ := operation?_cases ho
  · cases he
    have ht := ht fun ending he => by cases hc.symm.trans he
    obtain ⟨executes, ready⟩ := h.program hc running
    rw [act_call hc]
    refine run_of_ends (P := fun m' => ∃ ending, m'.control = .ended ending) (asks_spec ht ready ha)
      (fun p l asks => ?_)
      fun ending l _ => ⟨ending, rfl⟩
    obtain ⟨r, patience, request, _⟩ := asks
    cases hr.symm.trans request
  · cases he

/-! ## All of it -/

/-- What an act does to mutexes and queues, and which operation it brings to its end. -/
inductive Effect (m : Machine c) (a : Act) (m' : Machine c) : Prop
  | ends (ending : Ending) (control : m'.control = .ended ending)
  | grants {t : c.TaskId} {op : Operation c} {r : Request c} (canFail : Bool) (request : op.request? = some r)
    (allowed : r.edit.Allowed t m.kernel)
    (completion : m.completion? a = some ⟨t, op, reply r canFail true (m.kernel.received r)⟩)
    (resources : m'.kernel.resources = (r.edit.apply t m.kernel).resources)
    (suspensions : m'.suspensions = m.suspensions)
  | denies {t : c.TaskId} {op : Operation c} {r : Request c} (request : op.request? = some r)
    (denied : m.kernel.Denies t r) (completion : m.completion? a = some ⟨t, op, reply r true false r.buffer⟩)
    (resources : m'.kernel.resources = m.kernel.resources) (suspensions : m'.suspensions = m.suspensions)
  | waits {t : c.TaskId} {op : Operation c} {r : Request c} (deadline : Option Ticks)
    (operation : m.operation? a = some (t, op)) (request : op.request? = some r) (refused : m.kernel.Refuses t r)
    (completion : m.completion? a = none) (resources : m'.kernel.resources = m.kernel.resources)
    (suspensions : m'.suspensions = m.suspensions.set t (.waiting (.request r deadline)))
  | unlocks {t : c.TaskId} {x : c.MutexId} (holds : m.kernel.holders[x] = some t)
    (completion : m.completion? a = some ⟨t, .call (.unlock x), .unit⟩)
    (resources : m'.kernel.resources = (m.kernel.freeMutex x).resources) (suspensions : m'.suspensions = m.suspensions)
  | otherwise (completion : ∀ e, m.completion? a = some e → e.operation.request? = none ∧
      ∀ mutex, e.operation ≠ .call (.unlock mutex))
    (holders : m'.kernel.holders = m.kernel.holders) (rings : m'.kernel.rings = m.kernel.rings)
    (pool : m'.kernel.pool = m.kernel.pool) (requests : ∀ (u : c.TaskId) (r : Request c) (d : Option Ticks),
      m'.suspensions[u] = .waiting (.request r d) → m.suspensions[u] = .waiting (.request r d))

theorem completion?_eq_none {control : Control} (h : (m.act a).control = control)
    (hn : ∀ value, control ≠ .leaving value) :
    m.completion? a = none := by
  cases hc : m.completion? a with
  | none => rfl
  | some e => exact absurd (h.symm.trans (completion?_eq_some.mp hc).2) (hn _)

theorem Attempts.effect {op : Operation c} {r : Request c} (h : m.Attempts t r (m.act a))
    (ho : m.operation? a = some (t, op)) (hr : op.request? = some r) : m.Effect a (m.act a) := by
  cases h with
  | granted canFail allowed control resources suspensions =>
    exact .grants canFail hr allowed (completion?_eq_some.mpr ⟨ho, control⟩) resources suspensions
  | denied denied control resources suspensions =>
    exact .denies hr denied (completion?_eq_some.mpr ⟨ho, control⟩) resources suspensions
  | waits deadline refused control resources suspensions =>
    exact .waits deadline ho hr refused (completion?_eq_none control nofun) resources suspensions
  | fails ending control => exact .ends ending control

theorem Untouched.effect (h : m.Untouched (m.act a)) (ho : ∀ u op, m.operation? a = some (u, op) →
    op.request? = none ∧ ∀ mutex, op ≠ .call (.unlock mutex)) : m.Effect a (m.act a) := by
  obtain ⟨holders, _, rings, pool⟩ := resources_eq_iff.mp h.resources
  exact .otherwise (fun e he => ho _ _ (completion?_eq_some.mp he).1) holders rings pool h.requests

theorem Orderly.effect_call (h : m.Orderly detour)
    (ht : (∀ ending, m.control ≠ .ended ending) → c.tasks.size ≤ c.timerCount) {call : Call}
    (ho : m.operation? a = some (t, .call call)) (hr : call.request? c = none) : m.Effect a (m.act a) := by
  have only : ∀ u op, m.operation? a = some (u, op) → op = .call call := fun u op he => by
    cases ho.symm.trans he
    rfl
  have norequest : (Operation.call (c := c) call).request? = none := Option.map_eq_none_iff.mpr hr
  have notUnlock : (∀ mutex, call ≠ .unlock mutex) → ∀ u op, m.operation? a = some (u, op) →
      op.request? = none ∧ ∀ mutex, op ≠ .call (.unlock mutex) := by
    intro hu u op he
    obtain rfl := only u op he
    exact ⟨norequest, fun mutex he => hu mutex (by cases he; rfl)⟩
  by_cases ha : call.asks = true
  · obtain ⟨ending, hc⟩ := h.ended_of_no_request ht ho ha hr
    exact .ends ending hc
  rw [Bool.not_eq_true] at ha
  by_cases hu : ∃ mutex, call = .unlock mutex
  · obtain ⟨mutex, rfl⟩ := hu
    rcases h.unlocks ho with ⟨ending, hc⟩ | ⟨x, rfl, holds, control, resources, suspensions⟩
    · exact .ends ending hc
    · exact .unlocks holds (completion?_eq_some.mpr ⟨ho, control⟩) resources suspensions
  have hu : ∀ mutex, call ≠ .unlock mutex := fun mutex he => hu ⟨mutex, he⟩
  by_cases hg : call.gives = true
  · have posts : (∃ semaphore, call = .post semaphore) ∨ ∃ semaphore max, call = .initMax semaphore max := by
      cases call with
      | unlock mutex => exact absurd rfl (hu mutex)
      | post semaphore => exact .inl ⟨semaphore, rfl⟩
      | initMax semaphore max => exact .inr ⟨semaphore, max, rfl⟩
      | _ => cases hg
    rcases h.posts ho posts with ⟨ending, hc⟩ | ⟨_, holders, rings, pool, suspensions⟩
    · exact .ends ending hc
    · exact .otherwise (fun e he => notUnlock hu _ _ (completion?_eq_some.mp he).1) holders rings pool
        fun u r d hs => by
        rwa [suspensions] at hs
  · rw [Bool.not_eq_true] at hg
    have silent : ∀ u call', m.operation? a = some (u, .call call') → call'.asks = false ∧ call'.gives = false := by
      intro u call' he
      cases only u _ he
      exact ⟨ha, hg⟩
    rcases h.untouched ht a silent (fun u r d he => nomatch only u _ he) with ⟨ending, hc⟩ | untouched
    · exact .ends ending hc
    · exact untouched.effect (notUnlock hu)

theorem Orderly.effect (h : m.Orderly detour)
    (ht : (∀ ending, m.control ≠ .ended ending) → c.tasks.size ≤ c.timerCount) (a : Act) : m.Effect a (m.act a) := by
  have other : (∀ u op, m.operation? a = some (u, op) → ∃ wait, op = .wait wait ∧ ∀ r d, wait ≠ .request r d) →
      m.Effect a (m.act a) := by
    intro hw
    have calls : ∀ u call, m.operation? a ≠ some (u, .call call) := by
      intro u call he
      obtain ⟨wait, hwait, _⟩ := hw u _ he
      cases hwait
    have rounds : ∀ u r d, m.operation? a ≠ some (u, .wait (.request r d)) := by
      intro u r d he
      obtain ⟨wait, hwait, hn⟩ := hw u _ he
      cases hwait
      exact hn r d rfl
    rcases h.untouched ht a (fun u call he => absurd he (calls u call)) rounds with ⟨ending, hc⟩ | untouched
    · exact .ends ending hc
    · refine untouched.effect fun u op he => ?_
      obtain ⟨wait, rfl, hn⟩ := hw u op he
      refine ⟨?_, nofun⟩
      cases wait with
      | request r d => exact absurd rfl (hn r d)
      | _ => rfl
  cases ho : m.operation? a with
  | none => exact other (by simp [ho])
  | some made =>
    obtain ⟨t, op⟩ := made
    cases hr : op.request? with
    | some r => exact (h.attempts ht ho hr).effect ho hr
    | none =>
      cases op with
      | call call => exact h.effect_call ht ho (Option.map_eq_none_iff.mp hr)
      | wait wait =>
        refine other fun u op he => ?_
        cases ho.symm.trans he
        refine ⟨wait, rfl, ?_⟩
        rintro r d rfl
        cases hr

/-! ## How attempts come out -/

/-- An attempt fails: the operation says so, or the task goes on waiting. In both cases its buffer is as it was. -/
def Refused (m : Machine c) (a : Act) (t : c.TaskId) (op : Operation c) (r : Request c) : Prop :=
  m.completion? a = some ⟨t, op, reply r true false r.buffer⟩ ∨
    (m.completion? a = none ∧ ∃ d, (m.act a).suspensions[t] = .waiting (.request r d))

/-- An attempt succeeds. -/
def Granted (m : Machine c) (a : Act) (t : c.TaskId) (op : Operation c) (r : Request c) : Prop :=
  ∃ value, m.completion? a = some ⟨t, op, value⟩ ∧ (⟨t, op, value⟩ : Completion c).granted? = some r

theorem Granted.not_refused {op : Operation c} {r : Request c} (h : m.Granted a t op r) : ¬ m.Refused a t op r := by
  obtain ⟨value, completion, granted⟩ := h
  rintro (refused | ⟨none, _⟩)
  · cases completion.symm.trans refused
    cases granted?_denied.symm.trans granted
  · cases completion.symm.trans none

/-- An attempt that is refused just if `full` holds, and granted just if it does not. -/
theorem attempts_iff {op : Operation c} {r : Request c} {full : Prop} (h : m.Attempts t r (m.act a))
    (ho : m.operation? a = some (t, op)) (hr : op.request? = some r) (hn : ∀ ending, (m.act a).control ≠ .ended ending)
    (allowed : r.edit.Allowed t m.kernel → ¬ full) (denied : m.kernel.Denies t r → full) :
    (m.Refused a t op r ↔ full) ∧ (m.Granted a t op r ↔ ¬ full) := by
  have outcome : (m.Granted a t op r ∧ ¬ full) ∨ (m.Refused a t op r ∧ full) := by
    cases h with
    | granted canFail may control resources suspensions =>
      exact .inl ⟨⟨_, completion?_eq_some.mpr ⟨ho, control⟩, granted?_reply hr canFail _⟩, allowed may⟩
    | denied no control resources suspensions =>
      exact .inr ⟨.inl (completion?_eq_some.mpr ⟨ho, control⟩), denied no⟩
    | waits deadline refused control resources suspensions =>
      refine .inr ⟨.inr ⟨completion?_eq_none control nofun, deadline, ?_⟩, denied (.inl refused)⟩
      rw [suspensions, Table.getElem_set_self]
    | fails ending control => exact absurd control (hn ending)
  rcases outcome with ⟨granted, not⟩ | ⟨refused, full⟩
  · exact ⟨⟨fun refused => absurd refused granted.not_refused, fun full => absurd full not⟩, fun _ => not,
      fun _ => granted⟩
  · exact ⟨⟨fun _ => full, fun _ => refused⟩, fun granted => absurd refused granted.not_refused,
      fun not => absurd full not⟩

end Machine

end Rtos
