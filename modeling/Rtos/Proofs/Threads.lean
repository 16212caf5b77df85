import Mathlib.Order.Fin.Basic
import Rtos.Proofs.Configuration
import Rtos.Proofs.Session

/-!
# Tasks and their threads

* `Orderly.shifts`: every act leaves the threads as they are, or hands the processor to the thread of one task.
* `Machine.firsts`: the tasks that got the processor in a run, in the order of their first turns.
* `numbered_play`: the threads are numbered in that order.
* `Machine.Agreeing`: the kernel and the processor agree on who runs, so the processor is never handed over wrongly.
* `Session.governed_play`: this is so until the run is over, whereafter no thread goes on.
* `threads_agree`: the main result.
-/

namespace Rtos
set_option autoImplicit false

/-! ## Numbers -/

namespace Processor

variable {n : Nat} {p q : Processor n} {t : Fin n} {order : List (Fin n)}

/-- The tasks whose threads exist got them in the given order. -/
structure Numbered (p : Processor n) (order : List (Fin n)) : Prop where
  workers : ∀ t : Fin n, p.workers[t] = (order.idxOf? t).map (· + 1)
  spawned : p.group.spawned = order.length + 1
  thread : ∀ t : Fin n, p.thread = some t → t ∈ order

theorem Numbered.of_seats (h : p.Numbered order) (hs : q.seats = p.seats) : q.Numbered order := by
  simp only [seats, Prod.mk.injEq] at hs
  obtain ⟨thread, workers, group⟩ := hs
  refine ⟨fun t => ?_, ?_, fun t ht => h.thread t (thread.symm.trans ht)⟩
  · rw [workers, h.workers]
  · rw [group, h.spawned]

theorem Numbered.worker_eq_none_iff (h : p.Numbered order) (t : Fin n) : p.workers[t] = none ↔ t ∉ order := by
  rw [h.workers, Option.map_eq_none_iff, List.idxOf?_eq_none_iff]

theorem idxOf?_concat (order : List (Fin n)) (t u : Fin n) :
    (order ++ [t]).idxOf? u = (order.idxOf? u).or (if t = u then some order.length else none) := by
  have single : ([t].idxOf? u).map (· + order.length) = if t = u then some order.length else none := by
    rw [List.idxOf?_singleton]
    by_cases he : t = u <;> simp [he]
  rw [← single]
  exact List.findIdx?_append

/-- A task that gets the processor has a thread already, or gets the next number. -/
theorem Numbered.handsTo (h : p.Numbered order) (hands : HandsTo t p q) :
    q.Numbered (if t ∈ order then order else order ++ [t]) := by
  have mem : t ∈ if t ∈ order then order else order ++ [t] := by split <;> simp_all
  have thread : ∀ u : Fin n, q.thread = some u → u ∈ if t ∈ order then order else order ++ [t] := fun u hu => by
    rwa [← Option.some.inj (hands.thread.symm.trans hu)]
  by_cases known : t ∈ order
  · have worker : p.workers[t] ≠ none := fun hn => (h.worker_eq_none_iff t).mp hn known
    obtain ⟨number, hw⟩ := Option.ne_none_iff_exists'.mp worker
    rw [if_pos known] at thread ⊢
    refine ⟨fun u => ?_, ?_, thread⟩
    · rw [hands.workers, hw, Option.getD_some, ← hw, Table.set_getElem, h.workers]
    · rw [hands.spawned, if_neg worker, h.spawned, Nat.add_zero]
  · have worker : p.workers[t] = none := (h.worker_eq_none_iff t).mpr known
    have fresh : order.idxOf? t = none := List.idxOf?_eq_none_iff.mpr known
    rw [if_neg known] at thread ⊢
    refine ⟨fun u => ?_, ?_, thread⟩
    · rw [hands.workers, worker, Option.getD_none, h.spawned, idxOf?_concat]
      by_cases he : u = t
      · rw [he, Table.getElem_set_self, fresh, if_pos rfl]
        rfl
      · rw [Table.getElem_set_of_ne _ _ he, if_neg (Ne.symm he), Option.or_none, h.workers]
    · rw [hands.spawned, if_pos worker, h.spawned, List.length_append, List.length_singleton]

end Processor

variable {c : Config}

namespace Kernel

variable {k l : Kernel c} {t old : c.TaskId}

open Processor

/-- The section leaves the threads as they are, or hands the processor to one thread. -/
def Shifted (k l : Kernel c) : Prop :=
  l.processor.seats = k.processor.seats ∨ ∃ t, HandsTo t k.processor l.processor

theorem Shifted.shutdown (h : Shifted k l) : l.processor.group.shutdown = k.processor.group.shutdown := by
  rcases h with same | ⟨t, hands⟩
  · exact congrArg (·.2.2.shutdown) same
  · exact hands.shutdown

theorem handOver_shifted (t : c.TaskId) : Ends (handOver t) k (fun _ l => Shifted k l) fun _ l => Shifted k l := by
  refine (ends_bind _ _).mpr (ends_get.mpr ?_)
  split
  · next p hp => exact .inr ⟨t, (switch_spec hp).1⟩
  · exact .inl rfl

theorem startFirst_shifted (t : c.TaskId) : Ends (startFirst t) k (fun _ l => Shifted k l) fun _ l => Shifted k l := by
  simp only [startFirst, ends_bind, ends_modify, ends_get, ends_ite, ends_throw]
  exact ⟨fun _ => .inl rfl, fun _ => handOver_shifted (k := { k with running := some t }) t⟩

theorem switchTo_shifted (hr : k.running = some old) (consistent : k.isConsistent = true) (t : c.TaskId) :
    Ends (switchTo t) k (fun _ l => Shifted k l) fun _ l => Shifted k l := by
  refine ends_switchTo hr consistent t (fun _ => .inl rfl) (fun _ _ => .inl rfl) (fun _ _ => .inl rfl) fun _ => ?_
  exact handOver_shifted (k := { k with running := some t }) t

end Kernel

namespace Machine

open Kernel

variable {m : Machine c} {detour : Prop} {t : c.TaskId}

/-- What a critical section does to the threads, whether it ends the run or not. -/
theorem shifted_of_ends {α : Type} {action : Action c α} {next : α → Machine c → Machine c} {k : Kernel c}
    {ok : α → Kernel c → Prop} {bad : Ending → Kernel c → Prop} (h : Ends action m.kernel ok bad)
    (hok : ∀ a l, ok a l → Shifted k (next a { m with kernel := l }).kernel)
    (hbad : ∀ ending l, bad ending l → Shifted k l) :
    Shifted k (m.run action next).kernel :=
  run_of_ends (P := fun m => Shifted k m.kernel) h hok hbad

theorem shifted_dispatch (between : m.kernel.Between m.suspensions) (settled : m.kernel.hasPending = false)
    (consistent : m.kernel.isConsistent = true) (task : Option c.TaskId) :
    Shifted m.kernel (dispatch task m).kernel := by
  cases task with
  | none =>
    refine shifted_of_ends (idle_starves between settled) (fun _ l hl => ?_) fun _ l hl => ?_
    · rw [hl.1]
      exact .inl rfl
    · rw [hl.2.2]
      exact .inl rfl
  | some t =>
    cases hr : m.kernel.running with
    | none =>
      simp only [dispatch, hr]
      exact shifted_of_ends (startFirst_shifted t) (fun _ _ hl => hl) fun _ _ hl => hl
    | some old =>
      simp only [dispatch, hr]
      exact shifted_of_ends (switchTo_shifted hr consistent t) (fun _ _ hl => hl) fun _ _ hl => hl

theorem shifted_proceed {k k' l : Kernel c} {mutex : Option c.MutexId} {p : Progress c} (h : Goes t k' mutex p l)
    (same : k'.processor = k.processor) : Shifted k (proceed p { m with kernel := l }).kernel := by
  rw [kernel_proceed h]
  refine .inl ?_
  rw [h.frame.processor, same]

theorem shifted_of_fails {k l : Kernel c} {ending : Ending} (h : Fails t k ending l) : Shifted k l := by
  obtain ⟨⟨es, edits⟩, _⟩ := h
  refine .inl ?_
  rw [edits.frame.processor]

theorem Orderly.shifts_step (h : m.Orderly detour) (sane : m.Sane) : Shifted m.kernel (m.act .step).kernel := by
  obtain ⟨accepted, _, consistent⟩ := sane
  cases hc : m.control with
  | dispatching =>
    replace h := h.dispatching hc
    simp only [Machine.act, step, hc]
    refine shifted_of_ends (settle_upset h accepted.aimed) (fun _ l hl => .inl ?_) fun _ l hl => .inl ?_
    · rw [goto, hl.1.processor]
    · rw [hl.1]
  | choosing =>
    replace h := h.choosing hc
    simp only [Machine.act, step, hc]
    refine shifted_of_ends (choose_total h.1.scheduled consistent) (fun task l hl => ?_) fun _ _ => False.elim
    obtain ⟨rfl, _⟩ := hl
    have settled : m.kernel.refresh.hasPending = false := by
      obtain ⟨s, hs, _⟩ := m.kernel.refresh_eq
      rw [hs]
      exact h.2
    have shifted := shifted_dispatch (m := { m with kernel := m.kernel.refresh }) h.1.refresh settled
      ((isConsistent_refresh m.kernel).trans consistent) task
    unfold Shifted at shifted ⊢
    rwa [processor_refresh] at shifted
  | resuming =>
    obtain ⟨t, resumes⟩ := h.resuming hc
    have thread := resumes.between.thread.trans resumes.running
    cases hs : m.suspensions[t] with
    | entry | returning reply =>
      simp only [Machine.act, step, hc, thread, resumeAt, hs]
      exact .inl rfl
    | waiting wait =>
      rw [act_wait hc thread hs]
      refine shifted_of_ends (resumes.resume_spec accepted.timers hs) (fun p l hl => ?_)
        fun _ _ hl => shifted_of_fails hl
      obtain ⟨es, k, edits, _, _, _, goes⟩ := hl
      exact shifted_proceed goes edits.frame.processor
  | leaving reply =>
    simp only [Machine.act, step, hc, leave]
    split
    · simp only [goto, kernel_remember]
      exact .inl rfl
    · exact .inl rfl
  | application reply | handling | ended =>
    simp only [Machine.act, step, hc]
    exact .inl rfl

theorem Orderly.shifts_program (h : m.Orderly detour) (sane : m.Sane) {reply : Option Value}
    (hc : m.control = .application reply) (move : Move) : Shifted m.kernel (m.act (.move move)).kernel := by
  obtain ⟨accepted, _, consistent⟩ := sane
  obtain ⟨t, executes, ready, _⟩ := h.application hc
  cases move with
  | call call =>
    rw [act_call hc]
    by_cases hy : ∃ task, call = .yieldTo task
    · obtain ⟨task, rfl⟩ := hy
      refine shifted_of_ends (yieldTo_spec ready task) (fun p l hl => ?_) fun _ _ hl => shifted_of_fails hl
      obtain ⟨rfl, rfl | ⟨u, rfl, _⟩⟩ := hl
      · simp only [proceed, goto, kernel_remember]
        exact .inl rfl
      · have remembered :=
          remember_eq (m := { m with kernel := m.kernel.entered }) executes.owned.thread (.returning (some .unit))
        simp only [proceed, remembered]
        exact shifted_of_ends (switchTo_shifted (k := m.kernel.entered) ready.running consistent u) (fun _ _ hl => hl)
          fun _ _ hl => hl
    · refine shifted_of_ends (perform_spec accepted.timers ready call fun task he => hy ⟨task, he⟩) (fun p l hl => ?_)
        fun _ _ hl => shifted_of_fails hl
      exact shifted_proceed hl.1 rfl
  | beginInterrupt =>
    simp only [Machine.act, Machine.move, hc, beginInterrupt]
    split <;> exact .inl rfl
  | tick | endInterrupt | stop =>
    simp only [Machine.act, Machine.move, hc]
    exact .inl rfl

theorem Orderly.shifts_handler (h : m.Orderly detour) (hc : m.control = .handling) (move : Move) :
    Shifted m.kernel (m.act (.move move)).kernel := by
  obtain ⟨t, executes, context, enabled⟩ := h.handling hc
  have unmasked := executes.owned.unmasked
  simp only [Machine.act, Machine.move, hc]
  cases move with
  | call call =>
    refine shifted_of_ends (perform_of_handler context unmasked call) (fun p l hl => ?_) fun _ l hl => ?_
    · obtain ⟨rfl, event, rfl⟩ := hl
      simp only [proceed, answer]
      split <;> exact .inl rfl
    · rw [hl]
      exact .inl rfl
  | beginInterrupt =>
    simp only [beginInterrupt]
    split <;> exact .inl rfl
  | tick =>
    have inside : m.kernel.processor.context ≠ .outside := fun outside => by cases context.symm.trans outside
    refine shifted_of_ends (deliverTick_spec inside unmasked) (fun _ l hl => ?_) fun _ _ => False.elim
    rw [hl]
    exact .inl rfl
  | endInterrupt =>
    have ready : ({ m.kernel with processor := { m.kernel.processor with context := .task } } : Kernel c).Ready t :=
      ⟨executes.owned.running, rfl, unmasked, enabled⟩
    refine shifted_of_ends (m := { m with kernel := _ }) (servicePreemption_spec ready) (fun serviced l hl => ?_)
      fun _ _ => False.elim
    rcases hl with ⟨rfl, rfl⟩ | ⟨rfl, rfl, _⟩ <;> exact .inl rfl
  | stop => exact .inl rfl

/-- Every act leaves the threads as they are, or hands the processor to one thread. -/
theorem Orderly.shifts (h : m.Orderly detour) (sane : m.Sane) (a : Act) : Shifted m.kernel (m.act a).kernel := by
  cases a with
  | step => exact h.shifts_step sane
  | move move =>
    cases hc : m.control with
    | application reply => exact h.shifts_program sane hc move
    | handling => exact h.shifts_handler hc move
    | _ =>
      simp only [Machine.act, Machine.move, hc]
      exact .inl rfl

/-- Nothing a machine does stops the threads; that is left to its end. -/
theorem unstopped_play (acts : List Act) : (play c acts).kernel.processor.group.shutdown = false := by
  induction acts using play_induction with
  | boot =>
    have start : ∀ l : Kernel c, l.Undispatched → l.processor.group.shutdown = false := fun l hl => by
      rw [hl.group]; rfl
    exact run_of_ends (P := fun m => m.kernel.processor.group.shutdown = false) (boot_judges (.initial c) rfl)
      (fun _ l hl => start l hl.2.1) fun _ l hl => start l hl.2.2
  | act acts a ih =>
    by_cases past : ∃ ending, (play c acts).control = .ended ending
    · obtain ⟨ending, past⟩ := past
      rw [act_ended past]
      exact ih
    · have sane := sane_play acts fun ending he => past ⟨ending, he⟩
      exact ((orderly_play acts).1.shifts sane a).shutdown.trans ih

/-! ## First turns -/

/-- The task whose thread gets the processor by an act. -/
def dispatched? (m : Machine c) (a : Act) : Option c.TaskId :=
  if (m.act a).kernel.processor.thread = m.kernel.processor.thread then none else (m.act a).kernel.processor.thread

/-- The tasks whose threads get the processor from a machine on. -/
def dispatches (m : Machine c) : List Act → List c.TaskId
  | [] => []
  | a :: acts => (m.dispatched? a).toList ++ (m.act a).dispatches acts

/-- The tasks that got the processor in a run, in the order of their first turns. -/
def firsts (c : Config) (acts : List Act) : List c.TaskId := ((boot c).dispatches acts).eraseDups

theorem dispatches_append (m : Machine c) (acts acts' : List Act) :
    m.dispatches (acts ++ acts') = m.dispatches acts ++ (acts.foldl act m).dispatches acts' := by
  induction acts generalizing m with
  | nil => rfl
  | cons a acts ih => simp only [List.cons_append, dispatches, List.foldl_cons, ih, List.append_assoc]

theorem firsts_prefix (acts more : List Act) : firsts c acts <+: firsts c (acts ++ more) := by
  rw [firsts, firsts, dispatches_append, List.eraseDups_append]
  exact List.prefix_append _ _

theorem firsts_concat (acts : List Act) (a : Act) : firsts c (acts ++ [a]) =
    match (play c acts).dispatched? a with
    | none => firsts c acts
    | some t => if t ∈ firsts c acts then firsts c acts else firsts c acts ++ [t] := by
  rw [firsts, dispatches_append, List.eraseDups_append, ← firsts]
  have known : ∀ t, t ∈ firsts c acts ↔ t ∈ (boot c).dispatches acts := fun t => List.mem_eraseDups
  have turn : (acts.foldl act (boot c)).dispatches [a] = ((play c acts).dispatched? a).toList := List.append_nil _
  rw [turn]
  cases (play c acts).dispatched? a with
  | none => exact List.append_nil _
  | some t =>
    simp only [known]
    split
    · next ht => simp [List.removeAll, ht]
    · next ht => simp [List.removeAll, ht, List.eraseDups_cons]

/-- The threads are numbered in the order of the first turns of their tasks. -/
theorem numbered_play (acts : List Act) : (play c acts).kernel.processor.Numbered (firsts c acts) := by
  induction acts using play_induction with
  | boot =>
    have start : ∀ l : Kernel c, l.Undispatched → l.processor.Numbered [] := fun l hl => by
      refine ⟨hl.workers, ?_, fun t ht => ?_⟩
      · rw [hl.group]
        rfl
      · cases hl.thread.symm.trans ht
    exact run_of_ends (P := fun m => m.kernel.processor.Numbered []) (boot_judges (.initial c) rfl)
      (fun _ l hl => start l hl.2.1)
      fun _ l hl => start l hl.2.2
  | act acts a ih =>
    by_cases he : ∃ ending, (play c acts).control = .ended ending
    · obtain ⟨ending, he⟩ := he
      have idle : (play c acts).dispatched? a = none := by rw [dispatched?, act_ended he, if_pos rfl]
      rw [act_ended he, firsts_concat, idle]
      exact ih
    have sane := sane_play acts fun ending hc => he ⟨ending, hc⟩
    rcases (orderly_play acts).1.shifts sane a with same | ⟨t, hands⟩
    · have idle : (play c acts).dispatched? a = none := if_pos (congrArg Prod.fst same)
      rw [firsts_concat, idle]
      exact ih.of_seats same
    · have numbered := ih.handsTo hands
      rw [firsts_concat]
      by_cases ht : (play c acts).kernel.processor.thread = some t
      · have idle : (play c acts).dispatched? a = none := if_pos (hands.thread.trans ht.symm)
        rw [idle]
        rwa [if_pos (ih.thread t ht)] at numbered
      · have turn : (play c acts).dispatched? a = some t := by
          rw [dispatched?, if_neg fun hn => ht (hn.symm.trans hands.thread), hands.thread]
        rw [turn]
        exact numbered

/-! ## Handing the processor over wrongly -/

/-- What comes of handing the processor over wrongly. -/
inductive Misdirected : Ending → Prop
  /-- The processor is not in the right context, or another thread than that of the running task asks. -/
  | assertion : Misdirected .assertionFailed
  /-- The entry of the task is not known. -/
  | uninitialized : Misdirected (.panic Processor.uninitialized)
  /-- The thread that asks is not the one that runs. -/
  | notRunning (me running : Option Nat) : Misdirected (.panic (ThreadGroup.notRunning me running))

theorem Misdirected.ne_starved {ending : Ending} (h : Misdirected ending) : ending ≠ starved := by
  intro he
  have first : starved =
      .panic (String.ofList ('d' :: "eadlock: no task became runnable after 100000 idle ticks".toList)) := by
    decide
  cases h with
  | assertion => exact absurd he (by decide)
  | uninitialized => exact absurd he (by decide)
  | notRunning me running =>
    -- The two texts differ in their first letter.
    rw [first] at he
    have texts := congrArg (fun text => text.toList.head?) (Ending.panic.inj he)
    cases me <;> simp [ThreadGroup.notRunning, ThreadGroup.describe] at texts

/-- The processor is handed over wrongly only if the application says so, or begins an interrupt handler in another
one. -/
theorem Cause.of_misdirected {a : Act} {ending : Ending} (h : m.Cause a ending) (wrong : Misdirected ending) :
    a = .move (.stop ending) ∨ (m.control = .handling ∧ a = .move .beginInterrupt) := by
  cases h with
  | stopped => exact .inl rfl
  | nested control => exact .inr ⟨control, rfl⟩
  | faulty control one faulty => rcases faulty with ⟨_, _, _, rfl⟩ | ⟨_, _, _, _, _, rfl⟩ <;> cases wrong
  | starved control long => exact absurd rfl wrong.ne_starved
  | refused | misplaced | collides | late => cases wrong

/-! ## Agreement -/

/-- Until the run is over, the code that is executed is that of the running task, or that of the boot thread if there is
none, and its thread is the one that runs. -/
structure Agreeing (m : Machine c) : Prop where
  thread : m.kernel.processor.thread = m.kernel.running
  boots : m.kernel.running = none → m.kernel.processor.group.running = some ThreadGroup.bootThread
  runs : ∀ t, m.kernel.running = some t → ∃ number, m.kernel.processor.workers[t] = some number ∧
    m.kernel.processor.group.running = some number
  /-- Programs, and the interrupt handlers that interrupt them, are run by tasks. -/
  works : (m.control = .handling ∨ ∃ reply, m.control = .application reply ∨ m.control = .leaving reply) →
    ∃ t, m.kernel.running = some t
  /-- The processor is never handed over wrongly. -/
  directed : ∀ a ending, Misdirected ending → (m.act a).control = .ended ending →
    a = .move (.stop ending) ∨ (m.control = .handling ∧ a = .move .beginInterrupt)

theorem Orderly.thread (h : m.Orderly detour) (hn : ∀ ending, m.control ≠ .ended ending) :
    m.kernel.processor.thread = m.kernel.running := by
  rcases h.between_or_executes hn with ⟨_, between⟩ | ⟨t, _, executes⟩
  · exact between.thread
  · exact executes.owned.thread.trans executes.owned.running.symm

theorem Orderly.works (h : m.Orderly detour)
    (hc : m.control = .handling ∨ ∃ reply, m.control = .application reply ∨ m.control = .leaving reply) :
    ∃ t, m.kernel.running = some t := by
  unfold Orderly at h
  rcases hc with hc | ⟨reply, hc | hc⟩ <;> rw [hc] at h <;> obtain ⟨t, executes, _⟩ :=
    h <;> exact ⟨t, executes.owned.running⟩

theorem agreeing_play (acts : List Act) (hn : ∀ ending, (play c acts).control ≠ .ended ending) :
    (play c acts).Agreeing := by
  have thread := (orderly_play acts).1.thread hn
  have manned := manned_play acts hn
  have runs := manned.runs
  rw [Processor.worker, thread] at runs
  refine ⟨thread, fun hr => ?_, fun t ht => ?_, (orderly_play acts).1.works, fun a ending wrong control => ?_⟩
  · rw [runs, hr]
  · obtain ⟨number, hw⟩ := Option.ne_none_iff_exists'.mp (manned.worker t (thread.trans ht))
    refine ⟨number, hw, ?_⟩
    rw [runs, ht]
    exact hw
  · rcases outcome_play acts hn a with ⟨alive, _⟩ | ⟨ending', control', cause⟩
    · exact absurd control (alive ending)
    · cases control.symm.trans control'
      exact cause.of_misdirected wrong

theorem worker_kept {acts : List Act} {t : c.TaskId} {number : Nat}
    (h : (play c acts).kernel.processor.workers[t] = some number) (more : List Act) :
    (play c (acts ++ more)).kernel.processor.workers[t] = some number := by
  rw [(numbered_play acts).workers] at h
  obtain ⟨later, split⟩ := firsts_prefix (c := c) acts more
  obtain ⟨place, found, rfl⟩ := Option.map_eq_some_iff.mp h
  obtain ⟨inside, here, before⟩ := List.idxOf?_eq_some_iff.mp found
  rw [(numbered_play (acts ++ more)).workers, ← split]
  refine congrArg (Option.map (· + 1)) (List.idxOf?_eq_some_iff.mpr ⟨?_, ?_, fun j hj => ?_⟩)
  · rw [List.length_append]
    exact Nat.lt_add_right _ inside
  · rw [List.getElem_append_left inside]
    exact here
  · rw [List.getElem_append_left (Nat.lt_trans hj inside)]
    exact before j hj

theorem worker_unshared {acts : List Act} {t u : c.TaskId} {number : Nat}
    (ht : (play c acts).kernel.processor.workers[t] = some number)
    (hu : (play c acts).kernel.processor.workers[u] = some number) :
    u = t := by
  rw [(numbered_play acts).workers] at ht hu
  obtain ⟨place, found, rfl⟩ := Option.map_eq_some_iff.mp ht
  obtain ⟨place', found', same⟩ := Option.map_eq_some_iff.mp hu
  obtain rfl : place' = place := Nat.succ.inj same
  obtain ⟨_, here, _⟩ := List.idxOf?_eq_some_iff.mp found
  obtain ⟨_, here', _⟩ := List.idxOf?_eq_some_iff.mp found'
  exact here'.symm.trans here

/-! ## Sessions -/

/-- While the run is going on, the thread that holds the processor is admitted. -/
theorem exists_admitted {acts : List Act} (hn : ∀ ending, (play c acts).control ≠ .ended ending) :
    ∃ thread, ({ machine := play c acts : Session c }).admits thread = true := by
  have manned := manned_play acts hn
  obtain ⟨thread, worker⟩ := Option.ne_none_iff_exists'.mp manned.worker_ne_none
  refine ⟨thread, ?_⟩
  simp [Session.admits, ThreadGroup.admits, unstopped_play, manned.runs.trans worker]

end Machine

namespace Session

variable {turns : List (Nat × Act)}

theorem play_of_alive (hn : ∀ ending, (Machine.play c (granted c turns)).control ≠ .ended ending) :
    play c turns = { machine := Machine.play c (granted c turns) } := by
  rw [session_play, conclude_of_alive hn]

theorem closed_play_iff (turns : List (Nat × Act)) :
    (play c turns).Closed ↔ ∃ ending, (Machine.play c (granted c turns)).control = .ended ending := by
  constructor
  · intro closed
    by_contra alive
    rw [play_of_alive fun ending he => alive ⟨ending, he⟩] at closed
    rcases closed with stopped | aborted
    · cases (Machine.unstopped_play _).symm.trans stopped
    · cases aborted
  · rintro ⟨ending, past⟩
    obtain ⟨notice, told⟩ := Machine.exists_notice_play past
    rw [session_play]
    exact closed_of_notice? told

theorem closed_of_exit {exit : Exit} (recorded : (play c turns).exit = some exit) : (play c turns).Closed := by
  refine (closed_play_iff turns).mpr ?_
  by_contra alive
  rw [play_of_alive fun ending he => alive ⟨ending, he⟩] at recorded
  cases recorded

/-- Every run of a machine is that of a session: at any time some thread can go on with it. -/
theorem exists_turns (acts : List Act) : ∃ turns, Machine.play c (granted c turns) = Machine.play c acts := by
  induction acts using List.reverseRecOn with
  | nil => exact ⟨[], rfl⟩
  | append_singleton acts a ih =>
    obtain ⟨turns, same⟩ := ih
    by_cases past : ∃ ending, (Machine.play c acts).control = .ended ending
    · obtain ⟨ending, past⟩ := past
      exact ⟨turns, by rw [same, Machine.play_ended past]⟩
    · have alive : ∀ ending, (Machine.play c (granted c turns)).control ≠ .ended ending := fun ending he =>
        past ⟨ending, same ▸ he⟩
      obtain ⟨thread, admitted⟩ := Machine.exists_admitted alive
      rw [← play_of_alive alive] at admitted
      refine ⟨turns ++ [(thread, a)], ?_⟩
      rw [granted_concat, if_pos admitted, Machine.play_concat, Machine.play_concat, same]

/-- Who goes on in a session, and until when. -/
structure Governed (c : Config) (turns : List (Nat × Act)) : Prop where
  /-- What is executed is what the threads do that the processor is given to, up to the end of the run. -/
  runs : play c turns = { machine := Machine.play c (granted c turns) : Session c }.conclude
  /-- All threads are stopped just if the run is over. -/
  closed : (play c turns).Closed ↔ ∃ ending, (Machine.play c (granted c turns)).control = .ended ending
  /-- From then on no thread goes on, whichever tries to. -/
  still : (play c turns).Closed → ∀ more, granted c (turns ++ more) = granted c turns ∧
    play c (turns ++ more) = play c turns
  /-- The first exit that is recorded is never replaced. -/
  exit : ∀ exit, (play c turns).exit = some exit → ∀ more, (play c (turns ++ more)).exit = some exit

theorem governed_play (turns : List (Nat × Act)) : Governed c turns where
  runs := session_play turns
  closed := closed_play_iff turns
  still closed more := ⟨by rw [granted_append, closed.grants, List.append_nil], closed.play more⟩
  exit exit recorded more := by rw [(closed_of_exit recorded).play, recorded]

end Session

/-! ## The result -/

namespace Machine

/-- The kernel and the processor agree on who runs. The boot thread has the number 0, and every task gets a thread at
its first turn, numbered in the order of first turns. It keeps the thread and shares it with no other task. Until the
run is over, the code that is executed is that of the running task, by the thread that runs. Every run is that of a
session, in which only the thread goes on that the processor is given to. At the end of the run all threads are stopped,
no code is executed afterwards, and what is recorded as the exit stays. -/
theorem threads_agree (c : Config) (acts : List Act) :
    (ThreadGroup.bootThread = 0 ∧
      (∀ t : c.TaskId, (play c acts).kernel.processor.workers[t] = ((firsts c acts).idxOf? t).map (· + 1)) ∧
      ∀ (t : c.TaskId) number, (play c acts).kernel.processor.workers[t] = some number →
        (∀ more, (play c (acts ++ more)).kernel.processor.workers[t] = some number) ∧
          ∀ u : c.TaskId, (play c acts).kernel.processor.workers[u] = some number → u = t) ∧
    ((∀ ending, (play c acts).control ≠ .ended ending) → (play c acts).Agreeing) ∧
    (∃ turns, play c (Session.granted c turns) = play c acts) ∧ ∀ turns, Session.Governed c turns :=
  ⟨⟨rfl, (numbered_play acts).workers, fun _ _ hw => ⟨worker_kept hw, fun _ => worker_unshared hw⟩⟩, agreeing_play acts,
    Session.exists_turns acts, Session.governed_play⟩

/-- The most urgent task waits for a signal. The least urgent one gets its turn, and raises the event that starts the
task in the middle. -/
def startLate : List Act :=
  [.step, .step, .step, .step, .move (.call (.waitSignals 1)), .step, .step, .step, .step, .move (.call (.raise 0)),
    .step, .step, .step, .step, .step]

/-- The boot thread dispatches the most urgent task, whose thread stops the run, while others try to go on. -/
def stopEarly : List (Nat × Act) :=
  [(0, .step), (1, .step), (0, .step), (0, .move (.stop .stepLimit)), (1, .step), (1, .step),
    (1, .move (.stop .complete)),
    (0, .move (.stop .stepLimit)), (1, .move (.stop (.fatal .badId)))]

theorem threads_agree_startLate :
    firsts (Showcase.full .strict).scenario.config startLate = [⟨0, by decide⟩, ⟨2, by decide⟩, ⟨1, by decide⟩] ∧
      (play (Showcase.full .strict).scenario.config startLate).control = .application none ∧
      (play (Showcase.full .strict).scenario.config startLate).Agreeing ∧
      (Session.play (Showcase.full .strict).scenario.config stopEarly).exit = some .complete ∧
      ∀ more, (Session.play (Showcase.full .strict).scenario.config (stopEarly ++ more)).exit = some .complete :=
  have control : (play (Showcase.full .strict).scenario.config startLate).control = .application none := by
    decide +kernel
  have agree := threads_agree (Showcase.full .strict).scenario.config startLate
  have exit : (Session.play (Showcase.full .strict).scenario.config stopEarly).exit = some .complete := by
    decide +kernel
  ⟨by decide +kernel, control, agree.2.1 (fun _ he => by cases control.symm.trans he), exit,
    (agree.2.2.2 stopEarly).exit .complete exit⟩

end Machine

end Rtos
