import Rtos.Proofs.Orderly

/-!
# What an act does

* `Machine.Transition`: what an act does to an orderly machine, with one constructor for each thing that can happen.
* `Orderly.transition`: every act of an orderly machine does one of them, so what all of them keep is kept by every act.
* `Transition.orderly`: the machine is orderly again.
* `Machine.orderly_play`: so every machine is orderly after every run. It is on a detour only if `Detoured` says so.
-/

namespace Rtos
set_option autoImplicit false

variable {c : Config}

namespace Machine
open Kernel

variable {m m' : Machine c} {detour : Prop}

/-- Where a run may end for being in the wrong place: in an interrupt handler, or if a timer raises this very error. -/
def MayMisplace (m : Machine c) : Prop :=
  m.control = .handling ∨
    (m.control = .dispatching ∧ ∃ timer : c.TimerId, m.kernel.timers[timer].effect = .user (.error .badContext))

/-- What an act does to an orderly machine. -/
inductive Transition (m : Machine c) (detour : Prop) : Act → Machine c → Prop
  | rests (a : Act) : Transition m detour a m
  | stops (ending : Ending) (scheduled : m.kernel.Scheduled) :
    Transition m detour (.move (.stop ending)) { m with control := .ended ending }
  /-- A critical section ends the run. -/
  | fails {a : Act} {ending : Ending} {l : Kernel c} (scheduled : l.Scheduled)
    (misplaced : ending = .fatal .badContext → m.MayMisplace) :
    Transition m detour a { m with kernel := l, control := .ended ending }
  /-- The dispatcher applies what interrupts have recorded. -/
  | settles {l : Kernel c} (control : m.control = .dispatching) (between : l.Between m.suspensions)
    (settled : l.hasPending = false) (narrows : Narrows m.kernel l) (result : settle m.kernel = .ok () l) :
    Transition m detour .step { m with kernel := l, control := .choosing }
  /-- No task is chosen, and time passes. -/
  | idles {l : Kernel c} (control : m.control = .choosing) (between : m.kernel.refresh.Between m.suspensions)
    (decision : m.kernel.refresh.decision = .ok none) (idled : Idled m.kernel.refresh l) :
    Transition m detour .step { m with kernel := l, control := .dispatching }
  /-- The chosen task gets the processor. -/
  | dispatches {t : c.TaskId} {l : Kernel c} (control : m.control = .choosing)
    (between : m.kernel.refresh.Between m.suspensions) (settled : m.kernel.refresh.hasPending = false)
    (decision : m.kernel.refresh.decision = .ok (some t)) (handed : HandedOver t m.kernel.refresh l) :
    Transition m detour .step { m with kernel := l, control := .resuming }
  | returns {t : c.TaskId} (control : m.control = .resuming) (resumes : m.kernel.Resumes m.suspensions t detour)
    (reply : Option Value) (suspended : ∀ r, ¬ Awaits m.suspensions t r) :
    Transition m detour .step { m with control := .leaving reply }
  /-- A task that was suspended in a wait goes on. -/
  | wakes {t : c.TaskId} {wait : Wait c} {es : List (Edit c)} {k l : Kernel c} {p : Progress c}
    (control : m.control = .resuming) (resumes : m.kernel.Resumes m.suspensions t detour)
    (suspended : m.suspensions[t] = .waiting wait) (edits : Edits t m.kernel es k) (takes : ∀ x, .take x ∉ es)
    (executes : k.Executes m.suspensions t detour) (goes : Goes t k wait.mutex? p l)
    (result : resume wait m.kernel = .ok p l) : Transition m detour .step (proceed p { m with kernel := l })
  | leaves {t : c.TaskId} {reply : Option Value} (control : m.control = .leaving reply)
    (executes : m.kernel.Executes m.suspensions t detour) (context : m.kernel.processor.context = .task)
    (unasked : m.kernel.preemptPending = false) :
    Transition m detour .step
      { m with kernel := { m.kernel with preemptDisabled := false }, control := .application reply }
  /-- A task switch is due when a critical section is left. -/
  | preempts {t : c.TaskId} {reply : Option Value} (control : m.control = .leaving reply)
    (executes : m.kernel.Executes m.suspensions t detour) (context : m.kernel.processor.context = .task) :
    Transition m detour .step
      { kernel := { m.kernel with preemptDisabled := true, preemptPending := false }
        suspensions := m.suspensions.set t (.returning reply), control := .dispatching }
  | calls {t : c.TaskId} {reply : Option Value} {p : Progress c} {l : Kernel c}
    (control : m.control = .application reply) (executes : m.kernel.Executes m.suspensions t detour)
    (ready : m.kernel.Ready t) (unasked : m.kernel.preemptPending = false) (call : Call)
    (other : ∀ task, call ≠ .yieldTo task) (result : perform call m.kernel = .ok p l)
    (goes : Goes t m.kernel (call.mutex? c) p l) (disabled : l.preemptDisabled = true) :
    Transition m detour (.move (.call call)) (proceed p { m with kernel := l })
  /-- A task yields to one that is not runnable, so the policy chooses. -/
  | yields {t : c.TaskId} {reply : Option Value} (control : m.control = .application reply)
    (executes : m.kernel.Executes m.suspensions t detour) (ready : m.kernel.Ready t) (task : Nat) :
    Transition m detour (.move (.call (.yieldTo task)))
      { kernel := m.kernel.entered, suspensions := m.suspensions.set t (.returning (some .unit))
        control := .dispatching }
  /-- A task yields to a runnable one, which gets the processor. -/
  | yieldsTo {t u : c.TaskId} {reply : Option Value} {l : Kernel c} (control : m.control = .application reply)
    (executes : m.kernel.Executes m.suspensions t detour) (ready : m.kernel.Ready t) (task : Nat)
    (runnable : m.kernel.isRunnable u = true) (handed : HandedOver u m.kernel.entered l) :
    Transition m detour (.move (.call (.yieldTo task)))
      { kernel := l, suspensions := m.suspensions.set t (.returning (some .unit)), control := .resuming }
  | strays {t : c.TaskId} {reply : Option Value} {ending : Ending} {l : Kernel c}
    (control : m.control = .application reply) (executes : m.kernel.Executes m.suspensions t detour) (task : Nat)
    (halts : Halts ending l) :
    Transition m detour (.move (.call (.yieldTo task)))
      { kernel := l, suspensions := m.suspensions.set t (.returning (some .unit)), control := .ended ending }
  | interrupts {t : c.TaskId} {reply : Option Value} (control : m.control = .application reply)
    (executes : m.kernel.Executes m.suspensions t detour) (enabled : m.kernel.preemptDisabled = false) :
    Transition m detour (.move .beginInterrupt)
      { m with
        kernel := { m.kernel with processor := { m.kernel.processor with context := .interrupt } }
        control := .handling }
  | raises {t : c.TaskId} (control : m.control = .handling) (executes : m.kernel.Executes m.suspensions t detour)
    (context : m.kernel.processor.context = .interrupt) (enabled : m.kernel.preemptDisabled = false) (call : Call)
    (event : c.EventId) :
    Transition m detour (.move (.call call)) { m with kernel := m.kernel.recorded event, control := .handling }
  | ticks {t : c.TaskId} (control : m.control = .handling) (executes : m.kernel.Executes m.suspensions t detour)
    (context : m.kernel.processor.context = .interrupt) (enabled : m.kernel.preemptDisabled = false) :
    Transition m detour (.move .tick)
      { m with kernel := requestSwitch { m.kernel with pendingTicks := m.kernel.pendingTicks + 1 } }
  /-- An interrupt handler ends, and the task switch it asked for is due. -/
  | services {t : c.TaskId} (control : m.control = .handling) (executes : m.kernel.Executes m.suspensions t detour)
    (enabled : m.kernel.preemptDisabled = false) :
    Transition m detour (.move .endInterrupt)
      { m with
        kernel := { m.kernel with processor := { m.kernel.processor with context := .task } }.entered
        control := .leaving (some .unit) }
  /-- An interrupt handler ends that asked for no task switch. -/
  | continues {t : c.TaskId} (control : m.control = .handling) (executes : m.kernel.Executes m.suspensions t detour)
    (enabled : m.kernel.preemptDisabled = false) (unasked : m.kernel.preemptPending = false) :
    Transition m detour (.move .endInterrupt)
      { m with
        kernel := { m.kernel with processor := { m.kernel.processor with context := .task } }
        control := .application (some .unit) }

/-! ## Critical sections -/

theorem run_of_ends {α : Type} {action : Action c α} {next : α → Machine c → Machine c} {P : Machine c → Prop}
    {ok : α → Kernel c → Prop} {bad : Ending → Kernel c → Prop} (h : Ends action m.kernel ok bad)
    (hok : ∀ a l, ok a l → P (next a { m with kernel := l }))
    (hbad : ∀ ending l, bad ending l → P { m with kernel := l, control := .ended ending }) : P (m.run action next) := by
  unfold Ends at h
  unfold run
  cases hr : action m.kernel with
  | ok a l =>
    rw [hr] at h
    exact hok a l h
  | error ending l =>
    rw [hr] at h
    exact hbad ending l h

/-- What two critical sections have in common, in systems that need not be the same, two runs have in common. -/
theorem run_of_pairs {c' : Config} {x : Machine c} {y : Machine c'} {α β : Type} {action : Action c α}
    {action' : Action c' β}
    {next : α → Machine c → Machine c} {next' : β → Machine c' → Machine c'} {P : Machine c → Machine c' → Prop}
    {R : α → Kernel c → β → Kernel c' → Prop} (h : Pairs action x.kernel action' y.kernel R)
    (hok : ∀ a k b l, R a k b l → P (next a { x with kernel := k }) (next' b { y with kernel := l }))
    (hbad : ∀ ending k l,
      P { x with kernel := k, control := .ended ending } { y with kernel := l, control := .ended ending }) :
    P (x.run action next) (y.run action' next') := by
  unfold Pairs at h
  unfold run
  cases hx : action x.kernel <;> cases hy : action' y.kernel <;> simp only [hx, hy] at h ⊢
  · exact hok _ _ _ _ h
  · rw [h]
    exact hbad _ _ _

theorem run_of_alive {α : Type} {action : Action c α} {next : α → Machine c → Machine c} {P : Machine c → Prop}
    {ok : α → Kernel c → Prop} {bad : Ending → Kernel c → Prop} (h : Ends action m.kernel ok bad)
    (hn : ∀ ending, (m.run action next).control ≠ .ended ending)
    (hok : ∀ a l, ok a l → P (next a { m with kernel := l })) : P (m.run action next) :=
  run_of_ends (P := fun m' => (∀ ending, m'.control ≠ .ended ending) → P m') h (fun a l hl _ => hok a l hl)
    (fun ending _ _ hn => absurd rfl (hn ending)) hn

theorem remember_eq {t : c.TaskId} (h : m.kernel.processor.thread = some t) (s : Suspension c) :
    m.remember s = { m with suspensions := m.suspensions.set t s } := by
  unfold remember
  rw [h]

theorem proceed_dispatch {l : Kernel c} {t : c.TaskId} (h : l.processor.thread = some t) (s : Suspension c) :
    proceed (.dispatch s) { m with kernel := l } =
      { m with kernel := l, suspensions := m.suspensions.set t s, control := .dispatching } :=
  congrArg (·.goto .dispatching) (remember_eq (m := { m with kernel := l }) h s)

theorem Transition.of_fails {k l : Kernel c} {t : c.TaskId} {a : Act} {ending : Ending}
    (h : k.Owned m.suspensions t detour) (hf : Fails t k ending l) :
    Transition m detour a { m with kernel := l, control := .ended ending } := by
  obtain ⟨⟨es, edits⟩, hn⟩ := hf
  exact .fails (h.edits edits).1.scheduled fun he => absurd he hn

theorem Transition.of_halts {l : Kernel c} {a : Act} {ending : Ending} (hl : Halts ending l) :
    Transition m detour a { m with kernel := l, control := .ended ending } :=
  .fails hl.1 fun he => absurd he hl.2

/-! ## Steps of the kernel -/

theorem transition_dispatch {task : Option c.TaskId} (hc : m.control = .choosing)
    (hb : m.kernel.refresh.Between m.suspensions) (hp : m.kernel.refresh.hasPending = false)
    (hd : m.kernel.refresh.decision = .ok task) :
    Transition m detour .step (dispatch task { m with kernel := m.kernel.refresh }) := by
  cases task with
  | none =>
    simp only [dispatch]
    refine run_of_ends (P := Transition m detour .step) (idle_spec hb) (fun _ l hl => ?_)
      fun ending l hl => .of_halts hl
    exact .idles hc hb hd hl
  | some t =>
    cases hr : m.kernel.refresh.running with
    | none =>
      simp only [dispatch, hr]
      refine run_of_ends (P := Transition m detour .step) (startFirst_spec hb.scheduled t) (fun _ l hl => ?_)
        fun ending l hl => .of_halts hl
      exact .dispatches hc hb hp hd hl
    | some old =>
      have context := hb.context
      rw [hr] at context
      simp only [dispatch, hr]
      refine run_of_ends (P := Transition m detour .step)
        (switchTo_spec hb.scheduled hr (hb.thread.trans hr) context t) (fun _ l hl => ?_)
        fun ending l hl => .of_halts hl
      exact .dispatches hc hb hp hd hl

theorem transition_resumeAt {t : c.TaskId} (ht : c.tasks.size ≤ c.timerCount) (hc : m.control = .resuming)
    (h : m.kernel.Resumes m.suspensions t detour) : Transition m detour .step (m.resumeAt m.suspensions[t]) := by
  cases hs : m.suspensions[t] with
  | entry => exact .returns hc h none fun r ⟨d, hd⟩ => by cases hs.symm.trans hd
  | returning reply => exact .returns hc h reply fun r ⟨d, hd⟩ => by cases hs.symm.trans hd
  | waiting wait =>
    refine run_of_ends (P := Transition m detour .step) (h.resume_spec ht hs).result (fun p l hl => ?_)
      fun ending l hl => .of_fails h.owned hl
    obtain ⟨result, es, k, edits, takes, idle, _, goes⟩ := hl
    exact .wakes hc h hs edits takes ⟨(h.owned.edits edits).1, idle⟩ goes result

theorem transition_leave {t : c.TaskId} {reply : Option Value} (hc : m.control = .leaving reply)
    (h : m.kernel.Executes m.suspensions t detour) (ht : m.kernel.processor.context = .task) :
    Transition m detour .step (m.leave reply) := by
  unfold leave
  split
  · simp only [remember_eq (m := { m with
      kernel := { m.kernel with preemptDisabled := true, preemptPending := false } }) h.owned.thread]
    exact .preempts hc h ht
  · next hp => exact .leaves hc h ht (Bool.eq_false_iff.mpr hp)

theorem transition_step (ht : c.tasks.size ≤ c.timerCount) (h : m.Orderly detour) :
    Transition m detour .step m.step := by
  unfold Orderly at h
  unfold step
  split
  · next hc =>
    rw [hc] at h
    refine run_of_ends (P := Transition m detour .step) (settle_spec h).result (fun _ l hl => ?_)
      fun ending l hl => .fails hl.1 fun he => .inr ⟨hc, hl.2 he⟩
    obtain ⟨result, between, settled, narrows⟩ := hl
    exact .settles hc between settled narrows result
  · next hc =>
    rw [hc] at h
    refine run_of_ends (P := Transition m detour .step) (choose_spec h.1) (fun task l hl => ?_)
      fun ending l hl => .of_halts hl
    obtain ⟨rfl, hd⟩ := hl
    refine transition_dispatch hc h.1.refresh ?_ (m.kernel.decision_refresh.trans hd)
    obtain ⟨s, hs, _⟩ := m.kernel.refresh_eq
    rw [hs]
    exact h.2
  · next hc =>
    rw [hc] at h
    obtain ⟨t, resumes⟩ := h
    rw [resumes.between.thread, resumes.running]
    exact transition_resumeAt ht hc resumes
  · next reply hc =>
    rw [hc] at h
    obtain ⟨t, executes, context, _⟩ := h
    exact transition_leave hc executes context
  · exact .rests _
  · exact .rests _
  · exact .rests _

/-! ## Moves of the application and of interrupt handlers -/

theorem transition_call (ht : c.tasks.size ≤ c.timerCount) {t : c.TaskId} {reply : Option Value}
    (hc : m.control = .application reply) (h : m.kernel.Executes m.suspensions t detour) (hr : m.kernel.Ready t)
    (hp : m.kernel.preemptPending = false) (call : Call) (hy : ∀ task, call ≠ .yieldTo task) :
    Transition m detour (.move (.call call)) (m.run (perform call) proceed) :=
  run_of_ends (P := Transition m detour (.move (.call call))) (perform_spec ht hr call hy).result
    (fun _ _ hl => .calls hc h hr hp call hy hl.1 hl.2.1 hl.2.2) fun _ _ hl => .of_fails h.owned hl

theorem transition_yieldTo {t : c.TaskId} {reply : Option Value} (hc : m.control = .application reply)
    (h : m.kernel.Executes m.suspensions t detour) (hr : m.kernel.Ready t) (task : Nat) :
    Transition m detour (.move (.call (.yieldTo task))) (m.run (perform (.yieldTo task)) proceed) := by
  refine run_of_ends (P := Transition m detour (.move (.call (.yieldTo task)))) (yieldTo_spec hr task)
    (fun p l hl => ?_) fun _ _ hl => .of_fails h.owned hl
  obtain ⟨rfl, hp⟩ := hl
  have entered : m.kernel.entered.Executes m.suspensions t detour := h.edits (.one (e := .enter) trivial)
  have remembered := remember_eq (m := { m with kernel := m.kernel.entered }) entered.owned.thread
    (.returning (some .unit))
  rcases hp with rfl | ⟨u, rfl, hu⟩
  · simp only [proceed, remembered]
    exact .yields hc h hr task
  · simp only [proceed, remembered]
    refine run_of_ends (P := Transition m detour (.move (.call (.yieldTo task))))
      (switchTo_spec entered.owned.scheduled hr.running entered.owned.thread hr.context u) (fun _ l hl => ?_)
      fun ending l hl => ?_
    · exact .yieldsTo hc h hr task hu hl
    · exact .strays hc h task hl

theorem transition_handlerCall {t : c.TaskId} (hc : m.control = .handling)
    (h : m.kernel.Executes m.suspensions t detour) (hi : m.kernel.processor.context = .interrupt)
    (hd : m.kernel.preemptDisabled = false) (call : Call) :
    Transition m detour (.move (.call call)) (m.run (perform call) proceed) := by
  refine run_of_ends (P := Transition m detour (.move (.call call))) (perform_of_handler hi h.owned.unmasked call)
    (fun p l hl => ?_) fun ending l hl => ?_
  · obtain ⟨rfl, event, rfl⟩ := hl
    have context : (m.kernel.recorded event).processor.context = .interrupt := hi
    simp only [proceed, answer, if_pos context]
    exact .raises hc h hi hd call event
  · subst hl
    exact .fails h.owned.scheduled fun _ => .inl hc

theorem transition_beginInterrupt {t : c.TaskId} {reply : Option Value} (hc : m.control = .application reply)
    (h : m.kernel.Executes m.suspensions t detour) (hr : m.kernel.Ready t) :
    Transition m detour (.move .beginInterrupt) m.beginInterrupt := by
  have allowed : ¬ (m.kernel.processor.context ≠ .task ∨ m.kernel.processor.masked = true) := by
    simp [hr.context, hr.unmasked]
  unfold beginInterrupt
  dsimp only
  rw [if_neg allowed]
  exact .interrupts hc h hr.enabled

theorem transition_nested {t : c.TaskId} (h : m.kernel.Executes m.suspensions t detour)
    (hi : m.kernel.processor.context = .interrupt) : Transition m detour (.move .beginInterrupt) m.beginInterrupt := by
  have refused : m.kernel.processor.context ≠ .task ∨ m.kernel.processor.masked = true := by simp [hi]
  unfold beginInterrupt
  dsimp only
  rw [if_pos refused]
  exact .fails h.owned.scheduled nofun

theorem transition_tick {t : c.TaskId} (hc : m.control = .handling) (h : m.kernel.Executes m.suspensions t detour)
    (hi : m.kernel.processor.context = .interrupt) (hd : m.kernel.preemptDisabled = false) :
    Transition m detour (.move .tick) (m.run deliverTick fun _ m => m) := by
  have inside : m.kernel.processor.context ≠ .outside := by
    rw [hi]
    exact nofun
  refine run_of_ends (P := Transition m detour (.move .tick)) (deliverTick_spec inside h.owned.unmasked)
    (fun _ l hl => ?_) fun _ _ => False.elim
  subst hl
  exact .ticks hc h hi hd

theorem transition_endInterrupt {t : c.TaskId} (hc : m.control = .handling)
    (h : m.kernel.Executes m.suspensions t detour) (hd : m.kernel.preemptDisabled = false) :
    Transition m detour (.move .endInterrupt) m.endInterrupt := by
  have ready : ({ m.kernel with processor := { m.kernel.processor with context := .task } } : Kernel c).Ready t :=
    ⟨h.owned.running, rfl, h.owned.unmasked, hd⟩
  unfold endInterrupt
  dsimp only
  refine run_of_ends (P := Transition m detour (.move .endInterrupt)) (servicePreemption_spec ready)
    (fun _ l hl => ?_) fun _ _ => False.elim
  rcases hl with ⟨rfl, rfl⟩ | ⟨rfl, rfl, hp⟩
  · exact .services hc h hd
  · exact .continues hc h hd hp

/-! ## Acts -/

theorem act_ended {ending : Ending} (h : m.control = .ended ending) (a : Act) : m.act a = m := by
  cases a with
  | step => simp only [act, step, h]
  | move move => simp only [act, Machine.move, h]

/-- What has ended stays as it is. -/
theorem play_ended {acts : List Act} {ending : Ending} (h : (play c acts).control = .ended ending) (more : List Act) :
    play c (acts ++ more) = play c acts := by
  rw [play_append]
  induction more with
  | nil => rfl
  | cons a more ih => rw [List.foldl_cons, act_ended h, ih]

/-- Every act of an orderly machine is a transition. -/
theorem Orderly.transition (h : m.Orderly detour)
    (ht : (∀ ending, m.control ≠ .ended ending) → c.tasks.size ≤ c.timerCount) (a : Act) :
    Transition m detour a (m.act a) := by
  by_cases he : ∃ ending, m.control = .ended ending
  · obtain ⟨ending, he⟩ := he
    rw [act_ended he]
    exact .rests a
  have ht := ht fun ending hc => he ⟨ending, hc⟩
  cases a with
  | step => exact transition_step ht h
  | move move =>
    unfold Orderly at h
    unfold act Machine.move
    dsimp only
    split
    · next reply hc =>
      rw [hc] at h
      obtain ⟨t, executes, ready, unasked⟩ := h
      cases move with
      | call call =>
        by_cases hy : ∃ task, call = .yieldTo task
        · obtain ⟨task, rfl⟩ := hy
          exact transition_yieldTo hc executes ready task
        · exact transition_call ht hc executes ready unasked call fun task he => hy ⟨task, he⟩
      | beginInterrupt => exact transition_beginInterrupt hc executes ready
      | tick => exact .rests _
      | endInterrupt => exact .rests _
      | stop ending => exact .stops ending executes.owned.scheduled
    · next hc =>
      rw [hc] at h
      obtain ⟨t, executes, context, enabled⟩ := h
      cases move with
      | call call => exact transition_handlerCall hc executes context enabled call
      | beginInterrupt => exact transition_nested executes context
      | tick => exact transition_tick hc executes context enabled
      | endInterrupt => exact transition_endInterrupt hc executes enabled
      | stop ending => exact .stops ending executes.owned.scheduled
    · exact .rests _

/-! ## What all transitions keep -/

theorem orderly_proceed {k l : Kernel c} {t : c.TaskId} {mutex : Option c.MutexId} {p : Progress c}
    (h : k.Executes m.suspensions t detour) (hc : k.processor.context = .task) (hg : Goes t k mutex p l)
    (hd : l.preemptDisabled = true) : (proceed p { m with kernel := l }).Orderly detour := by
  cases hg with
  | done value edits takes =>
    exact ⟨t, h.edits edits, (congrArg Processor.context edits.frame.processor).trans hc, hd⟩
  | stops edits takes stop waits =>
    have executes := h.edits edits
    have context := hc
    rw [← edits.frame.processor] at context
    have thread := stop.frame.thread executes.owned.thread
    rw [proceed_dispatch thread]
    exact executes.stops context stop hd

/-- Whether a task that yielded has handed the processor over to another task. -/
def Diverts (m : Machine c) (a : Act) : Prop :=
  ∃ task, a = .move (.call (.yieldTo task)) ∧ (m.act a).kernel.running ≠ m.kernel.running

/-- While a program is at work, nothing is recorded that the dispatcher has not applied yet. -/
theorem Orderly.settled {reply : Option Value} (h : m.Orderly detour) (hc : m.control = .application reply) :
    m.kernel.hasPending = false := by
  obtain ⟨t, executes, _, unasked⟩ := h.application hc
  refine Bool.eq_false_iff.mpr fun hp => ?_
  rw [executes.owned.pended hp] at unasked
  cases unasked

/-- Every transition leads from an orderly machine to an orderly machine. Once the policy has been asked, a detour is
over; a task that yields to another one may begin one. -/
theorem Transition.orderly {a : Act} (h : Transition m detour a m') (ho : m.Orderly detour) :
    m'.Orderly (detour ∨ ∃ task, a = .move (.call (.yieldTo task)) ∧ m'.kernel.running ≠ m.kernel.running) := by
  have keep : m'.Orderly detour →
      m'.Orderly (detour ∨ ∃ task, a = .move (.call (.yieldTo task)) ∧ m'.kernel.running ≠ m.kernel.running) :=
    fun h => h.mono fun _ => .inl
  cases h with
  | rests => exact keep ho
  | stops ending scheduled => exact fun _ => scheduled
  | fails scheduled misplaced => exact fun _ => scheduled
  | settles control between settled narrows => exact ⟨between, settled⟩
  | idles control between decision idled => exact idled.between between
  | @dispatches t l control between settled decision handed =>
    have runnable := between.scheduled.isRunnable_of_decision decision
    exact ⟨t, handed.resumes between runnable settled (.inr (.inr decision))⟩
  | @returns t control resumes reply suspended =>
    exact keep ⟨t, ⟨resumes.owned, resumes.idle suspended⟩, resumes.context, resumes.between.disabled⟩
  | wakes control resumes suspended edits takes executes goes =>
    have context := resumes.context
    rw [← edits.frame.processor] at context
    have disabled := edits.frame.preemptDisabled resumes.between.disabled
    exact keep (orderly_proceed executes context goes (goes.frame.preemptDisabled disabled))
  | @leaves t reply control executes context unasked =>
    have enabled : ({ m.kernel with preemptDisabled := false } : Kernel c).Executes m.suspensions t detour :=
      executes.of_quiet ⟨rfl, rfl, fun _ => rfl⟩ rfl rfl rfl rfl rfl executes.owned.pended id
    exact keep ⟨t, enabled, ⟨executes.owned.running, context, executes.owned.unmasked, rfl⟩, unasked⟩
  -- Whoever is preempted stays runnable and is on no record, so it stops like a task that yields.
  | preempts control executes context =>
    have waits := executes.owned.waits.stop_yields executes.idle
    have quiet : Quiet m.kernel { m.kernel with preemptDisabled := true, preemptPending := false } :=
      ⟨rfl, rfl, fun _ => rfl⟩
    refine ⟨executes.owned.thread.trans executes.owned.running.symm, ?_, executes.owned.unmasked, rfl,
      quiet.scheduled executes.owned.scheduled, ?_⟩
    · exact context.trans (by rw [executes.owned.running]; rfl)
    · exact (waits _).of_runnable (fun _ hu => hu) (fun _ => rfl) rfl (fun _ => rfl) fun _ => rfl
  | calls control executes ready unasked call other result goes disabled =>
    exact keep (orderly_proceed executes ready.context goes disabled)
  | yields control executes ready task =>
    have entered : m.kernel.entered.Executes m.suspensions _ detour := executes.edits (.one (e := .enter) trivial)
    exact entered.stops ready.context .yields rfl
  | @yieldsTo t u reply l control executes ready task runnable handed =>
    have entered : m.kernel.entered.Executes m.suspensions t detour := executes.edits (.one (e := .enter) trivial)
    refine ⟨u, handed.resumes (entered.stops ready.context .yields rfl) runnable (ho.settled control) ?_⟩
    -- A task that yields to itself keeps the processor, and the decision with it; any other task is on a detour.
    by_cases he : u = t
    · rw [he]
      exact entered.owned.decided.imp_right (Or.imp_left Or.inl)
    · refine .inr (.inl (.inr ⟨task, rfl, ?_⟩))
      obtain ⟨⟨p, rfl⟩, _⟩ := handed
      rw [ready.running]
      exact fun hut => he (Option.some.inj hut)
  | strays control executes task halts => exact fun _ => halts.1
  | @interrupts t reply control executes enabled =>
    exact keep ⟨t, executes.of_quiet ⟨rfl, rfl, fun _ => rfl⟩ rfl rfl rfl rfl rfl executes.owned.pended id,
      rfl, enabled⟩
  | @raises t control executes context enabled call event =>
    exact keep ⟨t, executes.edits (.one (e := .record event) trivial), context, enabled⟩
  | @ticks t control executes context enabled =>
    refine keep ?_
    unfold Orderly
    rw [control]
    exact ⟨t, executes.of_quiet ⟨rfl, rfl, fun _ => rfl⟩ rfl rfl rfl rfl rfl (fun _ => rfl) fun _ => rfl,
      context, enabled⟩
  | @services t control executes enabled =>
    have back : ({ m.kernel with processor := { m.kernel.processor with context := .task } } : Kernel c).Executes
        m.suspensions t detour :=
      executes.of_quiet ⟨rfl, rfl, fun _ => rfl⟩ rfl rfl rfl rfl rfl executes.owned.pended id
    exact keep ⟨t, back.edits (.one (e := .enter) trivial), rfl, rfl⟩
  | @continues t control executes enabled unasked =>
    exact keep ⟨t, executes.of_quiet ⟨rfl, rfl, fun _ => rfl⟩ rfl rfl rfl rfl rfl executes.owned.pended id,
      ⟨executes.owned.running, rfl, executes.owned.unmasked, enabled⟩, unasked⟩

theorem Orderly.act (h : m.Orderly detour) (ht : (∀ ending, m.control ≠ .ended ending) → c.tasks.size ≤ c.timerCount)
    (a : Act) : (m.act a).Orderly (detour ∨ Diverts m a) := (h.transition ht a).orderly h

/-! ## Runs -/

/-- The run is on a detour: a task yielded to another one, which got the processor, and the dispatcher was not entered
since. -/
def Detoured (c : Config) (acts : List Act) : Prop :=
  ∃ before a after, acts = before ++ a :: after ∧ Diverts (play c before) a ∧
    ∀ part, part <+: after → (play c (before ++ a :: part)).control ≠ .dispatching

theorem Detoured.concat {acts : List Act} {a : Act} (h : Detoured c acts ∨ Diverts (play c acts) a)
    (hc : ((play c acts).act a).control ≠ .dispatching) : Detoured c (acts ++ [a]) := by
  rcases h with ⟨before, b, after, rfl, hb, hafter⟩ | h
  · refine ⟨before, b, after ++ [a], by simp, hb, fun part hp => ?_⟩
    rcases List.prefix_concat_iff.mp hp with rfl | hp
    · rw [← List.cons_append, ← List.append_assoc, play_concat]
      exact hc
    · exact hafter part hp
  · refine ⟨acts, a, [], rfl, h, fun part hp => ?_⟩
    rw [List.prefix_nil.mp hp, play_concat]
    exact hc

theorem not_ended_of_act {a : Act} (h : ∀ ending, (m.act a).control ≠ .ended ending) (ending : Ending) :
    m.control ≠ .ended ending := by
  intro he
  refine h ending ?_
  rw [act_ended he]
  exact he

theorem not_ended_of_append {acts : List Act} (acts' : List Act)
    (h : ∀ ending, (play c (acts ++ acts')).control ≠ .ended ending) :
    ∀ ending, (play c acts).control ≠ .ended ending := by
  induction acts' generalizing acts with
  | nil => rwa [List.append_nil] at h
  | cons a acts' ih =>
    have longer := @ih (acts ++ [a]) (by rwa [List.append_assoc])
    rw [play_concat] at longer
    exact not_ended_of_act longer

/-- Until the run is over, what accepting the configuration implies is true. -/
theorem accepted_play {P : Prop} (hb : Ends Kernel.boot (initial c).kernel (fun _ _ => P) fun _ _ => True)
    {acts : List Act} (hn : ∀ ending, (play c acts).control ≠ .ended ending) : P := by
  induction acts using play_induction with
  | boot =>
    refine run_of_ends (P := fun m => (∀ ending, m.control ≠ .ended ending) → P) hb (fun _ _ hp _ => hp)
      (fun ending _ _ hn => ?_) hn
    exact absurd rfl (hn ending)
  | act acts a ih => exact ih (not_ended_of_act hn)

/-- Every machine is orderly after every run, and as long as it is not at its end there are timers for every task. -/
theorem orderly_play (acts : List Act) : (play c acts).Orderly (Detoured c acts) ∧
    ((∀ ending, (play c acts).control ≠ .ended ending) → c.tasks.size ≤ c.timerCount) := by
  induction acts using play_induction with
  | boot =>
    refine run_of_ends (P := fun m => m.Orderly _ ∧
      ((∀ ending, m.control ≠ .ended ending) → c.tasks.size ≤ c.timerCount))
      (boot_spec (Unstarted.initial c) rfl) (fun _ l hl => ⟨hl.1, fun _ => hl.2.2⟩)
      fun ending l hl => ⟨hl, fun hn => ?_⟩
    exact absurd rfl (hn ending)
  | act acts a ih =>
    obtain ⟨orderly, timers⟩ := ih
    refine ⟨(orderly.act timers a).mono fun hc hd => Detoured.concat hd hc, fun hn => ?_⟩
    exact timers (not_ended_of_act hn)

end Machine

end Rtos
