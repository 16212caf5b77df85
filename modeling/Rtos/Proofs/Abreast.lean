import Rtos.Proofs.Choice
import Rtos.Proofs.Resting
import Rtos.Proofs.Sanity

/-!
# Two runs abreast

* `Machine.Live`: what is known of a machine in the middle of a run.
* `Machine.Abreast`: two runs have come to the same place, in states that are alike.
* `Abreast.settles` and its siblings: the same act leads them to the same place again, or ends both in the same way, as
  long as nobody asks whether the one task is runnable.
* `Machine.Astray`: the first run has given the processor to the task that is runnable in this run only. It has not been
  runnable for long: `Astray.returns`.
-/

namespace Rtos
set_option autoImplicit false

variable {c : Config}

/-- Whether the code of a task is executing, or that of a handler that has interrupted it. -/
def Control.executes : Control → Bool
  | .dispatching | .choosing => false
  | _ => true

namespace Kernel

variable {k l k' l' : Kernel c} {t u : c.TaskId} {spurious inStep : Prop}

/-! ## The processor changes hands -/

namespace Alike

theorem idled (h : Alike t spurious inStep k l) : Alike t spurious inStep k.idled l.idled := by
  have ticked := h.map (f := fun k => { k with pendingTicks := k.pendingTicks + 1, preemptPending := true })
    fun _ _ _ _ => rfl
  obtain ⟨context, masked⟩ := h.processor
  exact ticked.reseat (p := { k.processor with idleTicks := k.processor.idleTicks + 1 })
    (q := { l.processor with idleTicks := l.processor.idleTicks + 1 }) context masked fun step => (h.inStep step).2

theorem handedOver (h : Alike t spurious inStep k l) (hk : HandedOver u k k') (hl : HandedOver u l l') :
    Alike t spurious True k' l' := by
  have masked : l'.processor.masked = k'.processor.masked := by rw [hk.masked, hl.masked, h.processor.2]
  have context : l'.processor.context = k'.processor.context := by rw [hk.context, hl.context]
  have thread : l'.processor.thread = k'.processor.thread := by rw [hk.thread, hl.thread]
  obtain ⟨p, rfl⟩ := hk.rest
  obtain ⟨q, rfl⟩ := hl.rest
  obtain ⟨⟨s, _, _, rfl, _⟩, _, fits, fits', runnable⟩ := h
  exact ⟨⟨s, some u, q, rfl, context, masked⟩, fun _ => ⟨rfl, thread⟩, fits, fits', runnable⟩

/-- In the first state, the policy has brought its priorities up to date, and a task has been given the processor. -/
theorem strayed (h : Alike t spurious inStep k l) (handed : HandedOver u k k') (hc : k.processor.context = .task) :
    Alike t spurious False k' l := by
  have context' := handed.context
  have masked' := handed.masked
  obtain ⟨p, rfl⟩ := handed.rest
  obtain ⟨⟨s, q, p', rfl, context, masked⟩, _, fits, fits', runnable⟩ := h
  exact ⟨⟨s, q, p', rfl, (context.trans hc).trans context'.symm, masked.trans masked'.symm⟩, nofun, fits,
    fits', runnable⟩

theorem refresh_left (h : Alike t spurious inStep k l) : Alike t spurious inStep k.refresh l := by
  have fits := fits_refresh h.fits
  obtain ⟨s, hs, runs⟩ := k.refresh_eq
  rw [hs] at fits ⊢
  exact h.reschedule fits h.fits' fun u => .inr ⟨runs u, rfl⟩

end Alike

theorem yieldTo_known (h : k.Ready u) (t : c.TaskId) : Ends (yieldTo t) k (fun p l => l = k.entered ∧
    p = if k.isRunnable t then .handOver t (.returning (some .unit)) else .dispatch (.returning (some .unit)))
      fun _ _ => False := by
  have entered : k.entered.isRunnable t = k.isRunnable t := rfl
  rw [yieldTo, ends_bind, h.ends_enter]
  simp only [ends_bind, ends_taskId, ends_get, ends_ite, ends_pure, entered]
  refine ⟨fun _ => ⟨fun runs => ⟨trivial, (if_pos runs).symm⟩, fun rests => ⟨trivial, (if_neg rests).symm⟩⟩,
    fun hn => hn t.isLt⟩

end Kernel

namespace Machine
open Kernel

variable {m x y : Machine c} {t u : c.TaskId} {spurious spurious' : Prop} {a : Act}

/-! ## Live machines -/

/-- What is known of a machine in the middle of a run, after its first task was dispatched. -/
structure Live (m : Machine c) : Prop where
  alive : ∀ ending, m.control ≠ .ended ending
  orderly : m.Orderly True
  sane : m.Sane
  wired : m.kernel.Wired
  resting : ∀ t, m.Resting t
  begun : m.kernel.running ≠ none

/-! ## Runs abreast -/

/-- The two runs have come to the same place. In the first one the task `t` may be runnable though it is not in the
second one, as long as it is `spurious` that it is. -/
structure Abreast (t : c.TaskId) (spurious : Prop) (x y : Machine c) : Prop where
  control : y.control = x.control
  suspensions : y.suspensions = x.suspensions
  alike : Alike t spurious (x.control.executes = true) x.kernel y.kernel

/-- The two runs have come to the same place, or have ended in the same way. -/
inductive Matched (t : c.TaskId) (spurious : Prop) (x y : Machine c) : Prop
  | goes (abreast : Abreast t spurious x y)
  | ends (ending : Ending) (first : x.control = .ended ending) (second : y.control = .ended ending)

theorem Abreast.mono (h : Abreast t spurious x y) (hs : spurious → spurious') : Abreast t spurious' x y :=
  ⟨h.control, h.suspensions, h.alike.mono hs id⟩

theorem Abreast.sharpen (h : Abreast t spurious x y) :
    Abreast t (spurious ∧ x.kernel.isRunnable t = true ∧ y.kernel.isRunnable t = false) x y :=
  ⟨h.control, h.suspensions, h.alike.sharpen⟩

theorem Abreast.alike_executing (h : Abreast t spurious x y) (hc : x.control.executes = true) :
    Alike t spurious True x.kernel y.kernel := h.alike.mono id fun _ => hc

theorem Matched.mono (h : Matched t spurious x y) (hs : spurious → spurious') : Matched t spurious' x y := by
  cases h with
  | goes abreast => exact .goes (abreast.mono hs)
  | ends ending first second => exact .ends ending first second

theorem matched_run {α : Type} {action action' : Action c α} {next next' : α → Machine c → Machine c}
    {R : α → Kernel c → α → Kernel c → Prop} (h : Pairs action x.kernel action' y.kernel R)
    (hn : ∀ a k b l, R a k b l → Matched t spurious (next a { x with kernel := k }) (next' b { y with kernel := l })) :
    Matched t spurious (x.run action next) (y.run action' next') :=
  run_of_pairs (P := Matched t spurious) h hn fun ending _ _ => .ends ending rfl rfl

section Goes
variable {k l : Kernel c} (suspensions : y.suspensions = x.suspensions) (alike : Alike t spurious True k l)
include suspensions alike

theorem abreast_goto (control : Control) :
    Abreast t spurious
    ({ x with kernel := k, control := control } : Machine c) { y with kernel := l, control := control } :=
  ⟨rfl, suspensions, alike.mono id fun _ => trivial⟩

theorem abreast_remember (s : Suspension c) (control : Control) :
    Abreast t spurious ((({ x with kernel := k } : Machine c).remember s).goto control)
      ((({ y with kernel := l } : Machine c).remember s).goto control) := by
  have thread := (alike.inStep trivial).2
  unfold remember
  simp only [thread]
  split
  · next u _ =>
    have same : y.suspensions.set u s = x.suspensions.set u s := by rw [suspensions]
    exact ⟨rfl, same, alike.mono id fun _ => trivial⟩
  · exact abreast_goto suspensions alike control

theorem abreast_proceed {p : Progress c} (hp : ∀ u s, p ≠ .handOver u s) :
    Abreast t spurious (proceed p { x with kernel := k }) (proceed p { y with kernel := l }) := by
  cases p with
  | done value => exact abreast_goto suspensions alike _
  | returned value =>
    simp only [proceed, answer, alike.processor.1]
    split
    · exact abreast_goto suspensions alike _
    · exact abreast_goto suspensions alike _
  | dispatch s => exact abreast_remember suspensions alike s _
  | handOver u s => exact absurd rfl (hp u s)

end Goes

/-! ## Steps of the kernel -/

theorem Abreast.settles (h : Abreast t spurious x y) (hc : x.control = .dispatching) :
    Matched t spurious (x.act .step) (y.act .step) := by
  rw [act_settles hc, act_settles (h.control.trans hc)]
  exact matched_run (steady_settle h.alike) fun _ _ _ _ hl => .goes ⟨rfl, h.suspensions, hl.2.mono id nofun⟩

theorem Abreast.resumes (h : Abreast t spurious x y) (hx : x.Live) (hc : x.control = .resuming) :
    Matched t spurious (x.act .step) (y.act .step) := by
  have hc' := h.control.trans hc
  have alike := h.alike_executing (by rw [hc]; rfl)
  have orderly := hx.orderly
  obtain ⟨u, resumes⟩ := orderly.resuming hc
  have thread := resumes.between.thread.trans resumes.running
  have thread' := (alike.inStep trivial).2.trans thread
  cases hs : x.suspensions[u] with
  | entry | returning reply =>
    simp only [act, step, hc, hc', thread, thread', h.suspensions, hs, resumeAt]
    exact .goes ⟨rfl, h.suspensions, alike.mono id fun _ => trivial⟩
  | waiting wait =>
    have hs' : y.suspensions[u] = .waiting wait := h.suspensions ▸ hs
    rw [act_wait hc thread hs, act_wait hc' thread' hs']
    have goes := (steady_resume trivial wait alike).and_left (resumes.resume_spec hx.sane.accepted.timers hs)
    refine matched_run goes fun p k q l hl => ?_
    obtain ⟨⟨rfl, after⟩, _, _, _, _, _, _, goes⟩ := hl
    exact .goes (abreast_proceed h.suspensions after (by cases goes <;> rintro _ _ ⟨⟩))

theorem Abreast.leaves (h : Abreast t spurious x y) {reply : Option Value} (hc : x.control = .leaving reply) :
    Matched t spurious (x.act .step) (y.act .step) := by
  have hc' := h.control.trans hc
  have alike := h.alike_executing (by rw [hc]; rfl)
  have pending : y.kernel.preemptPending = x.kernel.preemptPending := by
    obtain ⟨_, _, _, he, _⟩ := alike.rest
    rw [he]
  rw [act_leaves hc, act_leaves hc', leave, leave, pending]
  split
  · have left := alike.map (f := fun k => { k with preemptDisabled := true, preemptPending := false })
      fun _ _ _ _ => rfl
    exact .goes (abreast_remember h.suspensions left _ _)
  · have left := alike.map (f := fun k => { k with preemptDisabled := false }) fun _ _ _ _ => rfl
    exact .goes (abreast_goto h.suspensions left _)

/-! ## Choosing -/

/-- The first run has given the processor to the task, while in the second one the dispatcher has not chosen it. -/
structure Astray (t : c.TaskId) (x y : Machine c) : Prop where
  control : x.control = .resuming
  suspensions : y.suspensions = x.suspensions
  alike : Alike t True False x.kernel y.kernel
  running : x.kernel.running = some t
  blocked : y.kernel.isRunnable t = false

theorem Abreast.strays (h : Abreast t spurious x y) (hx : x.Live) (hc : x.control = .choosing)
    (control : (x.act .step).control = .resuming) (handed : HandedOver t x.kernel.refresh (x.act .step).kernel)
    (blocked : y.kernel.isRunnable t = false) : Astray t (x.act .step) y := by
  have orderly := hx.orderly
  replace orderly := orderly.choosing hc
  have context : x.kernel.processor.context = .task := by
    rw [orderly.1.context, Option.isSome_iff_ne_none.mpr hx.begun]
    rfl
  have context : x.kernel.refresh.processor.context = .task := by rw [processor_refresh, context]
  refine ⟨control, ?_, (h.alike.refresh_left.strayed handed context).mono (fun _ => trivial) id, ?_, blocked⟩
  · rw [suspensions_choosing hc, h.suspensions]
  · obtain ⟨p, rest⟩ := handed.rest
    rw [rest]

theorem Abreast.chooses (h : Abreast t spurious x y) (hx : x.Live) (hy : y.Live) (hc : x.control = .choosing) :
    Matched t spurious (x.act .step) (y.act .step) ∨ (x.act .step).control = .ended starved ∨
      (y.act .step).control = .ended starved ∨ (spurious ∧ Astray t (x.act .step) y) := by
  have hc' := h.control.trans hc
  have suspensions : (y.act .step).suspensions = (x.act .step).suspensions := by
    rw [suspensions_choosing hc, suspensions_choosing hc', h.suspensions]
  have alike := h.alike.refresh
  have choice : ∀ {v w}, x.kernel.decision = .ok v → y.kernel.decision = .ok w →
      w = v ∨ (v = some t ∧ y.kernel.isRunnable t = false ∧ spurious) := fun hv hw =>
    h.alike.decision (hx.orderly.scheduled hx.alive) (hy.orderly.scheduled hy.alive) hv hw
  cases hx.orderly.chooses hx.sane hc with
  | starves long control => exact .inr (.inl control)
  | idles decision control kernel =>
    cases hy.orderly.chooses hy.sane hc' with
    | starves long control' => exact .inr (.inr (.inl control'))
    | idles decision' control' kernel' =>
      refine .inl (.goes ⟨control'.trans control.symm, suspensions, ?_⟩)
      rw [kernel, kernel']
      exact alike.idled.mono id fun he => by rw [control] at he; cases he
    | dispatches u decision' control' handed' manned' =>
      rcases choice decision decision' with he | ⟨he, _⟩ <;> cases he
  | dispatches u decision control handed manned =>
    have stray : u = t → y.kernel.isRunnable t = false → Astray t (x.act .step) y := by
      rintro rfl
      exact h.strays hx hc control handed
    cases hy.orderly.chooses hy.sane hc' with
    | starves long control' => exact .inr (.inr (.inl control'))
    | idles decision' control' kernel' =>
      rcases choice decision decision' with he | ⟨he, blocked, known⟩
      · cases he
      · exact .inr (.inr (.inr ⟨known, stray (Option.some.inj he) blocked⟩))
    | dispatches u' decision' control' handed' manned' =>
      rcases choice decision decision' with he | ⟨he, blocked, known⟩
      · obtain rfl := Option.some.inj he
        exact .inl (.goes ⟨control'.trans control.symm, suspensions, (alike.handedOver handed handed').mono id
          fun _ => trivial⟩)
      · exact .inr (.inr (.inr ⟨known, stray (Option.some.inj he) blocked⟩))

/-- The task is given the processor though what it waits for has not come about, so it waits again. The second run has
only been waiting for this. -/
theorem Astray.returns (h : Astray t x y) (hx : x.Live) (hy : y.Live)
    (waiting : ∃ wait, y.suspensions[t] = .waiting wait ∧ wait ≠ .block) :
    (x.act .step).control = .dispatching ∧ (x.act .step).suspensions = x.suspensions ∧
      Alike t False False (x.act .step).kernel y.kernel := by
  obtain ⟨wait, hs, hw⟩ := waiting
  have resumes := hx.orderly.resumes h.control h.running
  have thread := resumes.between.thread.trans h.running
  obtain ⟨_, _, _, same, _⟩ := h.alike.rest
  have unmet : x.kernel.Unmet t wait := by
    rcases hy.resting t h.blocked with entry | ⟨_, hs', unmet⟩
    · cases hs.symm.trans entry
    · cases hs.symm.trans hs'
      exact unmet.congr (by rw [same]) (by rw [same]) (by rw [same])
  have refused : ∀ r d, wait = .request r d → x.kernel.tasks[t].wait = some r.object ∧ x.kernel.Refuses t r := by
    rintro r d rfl
    obtain ⟨recorded, refused⟩ := (hy.orderly.waits hy.alive).refused t r ⟨d, hs⟩ h.blocked
    rw [same] at recorded refused
    exact ⟨recorded, refuses_congr rfl refused⟩
  rw [h.suspensions] at hs
  rw [act_wait h.control thread hs]
  refine run_of_ends
    (P := fun m => m.control = .dispatching ∧ m.suspensions = x.suspensions ∧ Alike t False False m.kernel y.kernel)
    (unmet_resume hx.sane.accepted.timers hx.wired h.running resumes.between.scheduled.fits hw unmet refused)
    (fun p l hl => ?_)
    fun _ _ => False.elim
  obtain ⟨rfl, s, rfl, fits, runs⟩ := hl
  rw [proceed_dispatch (l := { x.kernel with schedule := s }) thread]
  refine ⟨rfl, ?_, ?_⟩
  · rw [← hs]
    exact x.suspensions.set_getElem t
  · obtain ⟨⟨s', q, p, he, same⟩, _, _, fits', runnable⟩ := h.alike
    have blocked := h.blocked
    rw [he] at runnable fits' blocked ⊢
    refine ⟨⟨s', q, p, rfl, same⟩, nofun, fits, fits', fun u => .inl ?_⟩
    refine (runs u).trans ?_
    by_cases hu : u = t
    · subst hu
      simpa using blocked.symm
    · rw [decide_eq_true hu, Bool.true_and]
      exact (runnable u).resolve_right fun hn => hu hn.1

/-! ## Moves of the application -/

theorem Abreast.calls (h : Abreast t spurious x y) (hx : x.Live) {reply : Option Value}
    (hc : x.control = .application reply) {call : Call} (other : ∀ task, call ≠ .yieldTo task)
    (hp : ∀ u, call = .effectivePriority u → c.policy ≠ .inheritance) :
    Matched t spurious (x.act (.move (.call call))) (y.act (.move (.call call))) := by
  have alike := h.alike_executing (by rw [hc]; rfl)
  have orderly := hx.orderly
  obtain ⟨u, _, ready, _⟩ := orderly.application hc
  rw [act_call hc, act_call (h.control.trans hc)]
  have steady := steady_perform trivial (fun he => absurd he (other t)) hp alike
  refine matched_run (steady.and_left (perform_spec hx.sane.accepted.timers ready call other)) fun p k q l hl => ?_
  obtain ⟨⟨rfl, after⟩, goes, _⟩ := hl
  exact .goes (abreast_proceed h.suspensions after (by cases goes <;> exact nofun))

theorem act_handles (hc : m.control = .handling) (call : Call) :
    m.act (.move (.call call)) = m.run (perform call) proceed := by
  simp only [act, move, hc]

theorem Abreast.handles (h : Abreast t spurious x y) (hx : x.Live) (hc : x.control = .handling) (call : Call) :
    Matched t spurious (x.act (.move (.call call))) (y.act (.move (.call call))) := by
  have alike := h.alike_executing (by rw [hc]; rfl)
  have orderly := hx.orderly
  obtain ⟨u, executes, context, _⟩ := orderly.handling hc
  have context' := alike.processor.1.trans context
  have steady : Pairs (perform call) x.kernel (perform call) y.kernel fun p k q l => q = p ∧
      Alike t spurious True k l := by
    cases call with
    | yieldTo task | effectivePriority task =>
      exact Pairs.of_fails ((ends_bind _ _).mpr ((ends_enter_of_handler context).mpr rfl))
        ((ends_bind _ _).mpr ((ends_enter_of_handler context').mpr rfl))
    | _ => refine steady_perform trivial (fun he => ?_) (fun _ he => ?_) alike <;> cases he
  rw [act_handles hc, act_handles (h.control.trans hc)]
  refine matched_run (steady.and_left (perform_of_handler context executes.owned.unmasked call)) fun p k q l hl => ?_
  obtain ⟨⟨rfl, after⟩, rfl, _⟩ := hl
  exact .goes (abreast_proceed h.suspensions after nofun)

theorem Abreast.interrupts (h : Abreast t spurious x y) (hc : x.control.executes = true) :
    Matched t spurious x.beginInterrupt y.beginInterrupt := by
  have alike := h.alike_executing hc
  obtain ⟨context, masked⟩ := alike.processor
  unfold beginInterrupt
  dsimp only
  by_cases hb : x.kernel.processor.context ≠ .task ∨ x.kernel.processor.masked = true
  · rw [if_pos hb, if_pos (by rw [context, masked]; exact hb)]
    exact .ends _ rfl rfl
  · rw [if_neg hb, if_neg (by rw [context, masked]; exact hb)]
    have inside := alike.reseat (p := { x.kernel.processor with context := .interrupt })
      (q := { y.kernel.processor with context := .interrupt }) rfl masked fun step => (alike.inStep step).2
    exact .goes (abreast_goto h.suspensions inside _)

theorem Abreast.services (h : Abreast t spurious x y) (hc : x.control = .handling) :
    Matched t spurious x.endInterrupt y.endInterrupt := by
  have alike := h.alike_executing (by rw [hc]; rfl)
  have back := alike.reseat (p := { x.kernel.processor with context := .task })
    (q := { y.kernel.processor with context := .task }) rfl alike.processor.2 fun step => (alike.inStep step).2
  unfold endInterrupt
  refine matched_run (x := { x with kernel := _ }) (y := { y with kernel := _ }) (steady_servicePreemption back)
    fun serviced k _ l hl => ?_
  obtain ⟨rfl, after⟩ := hl
  split
  · exact .goes (abreast_goto h.suspensions after _)
  · exact .goes (abreast_goto h.suspensions after _)

/-- Unless the program asks whether the task is runnable or, under the inheritance policy, how urgent a task is, a move
leads both runs to the same place again. -/
theorem Abreast.moves (h : Abreast t spurious x y) (hx : x.Live)
    (hc : x.control = .handling ∨ ∃ reply, x.control = .application reply) {move : Move}
    (hy : (∃ reply, x.control = .application reply) → ∀ task, move ≠ .call (.yieldTo task))
    (hp : (∃ reply, x.control = .application reply) → ∀ u, move = .call (.effectivePriority u) →
      c.policy ≠ .inheritance) :
    Matched t spurious (x.act (.move move)) (y.act (.move move)) := by
  rcases hc with hc | ⟨reply, hc⟩
  · have hc' := h.control.trans hc
    cases move with
    | call call => exact h.handles hx hc call
    | beginInterrupt =>
      simp only [act, Machine.move, hc, hc']
      exact h.interrupts (by rw [hc]; rfl)
    | tick =>
      simp only [act, Machine.move, hc, hc']
      refine matched_run (steady_deliverTick h.alike) fun _ k _ l hl => .goes ⟨?_, h.suspensions, hl.2⟩
      exact h.control
    | endInterrupt =>
      simp only [act, Machine.move, hc, hc']
      exact h.services hc
    | stop ending =>
      simp only [act, Machine.move, hc, hc']
      exact .ends ending rfl rfl
  · have hc' := h.control.trans hc
    cases move with
    | call call =>
      exact h.calls hx hc (fun task he => hy ⟨reply, hc⟩ task (he ▸ rfl)) fun u he => hp ⟨reply, hc⟩ u (he ▸ rfl)
    | beginInterrupt =>
      simp only [act, Machine.move, hc, hc']
      exact h.interrupts (by rw [hc]; rfl)
    | tick | endInterrupt =>
      simp only [act, Machine.move, hc, hc']
      exact .goes h
    | stop ending =>
      simp only [act, Machine.move, hc, hc']
      exact .ends ending rfl rfl

/-! ## Yielding to the task -/

theorem Live.handsOver (hx : x.Live) {reply : Option Value} (hc : x.control = .application reply) (u : c.TaskId) :
    Ends (switchTo u) x.kernel.entered (fun _ l => HandedOver u x.kernel.entered l) fun _ _ => False := by
  have orderly := hx.orderly
  obtain ⟨v, executes, ready, _⟩ := orderly.application hc
  have owned := (executes.edits (.one (e := .enter) trivial)).owned
  have spec := switchTo_spec owned.scheduled owned.running owned.thread ready.context u
  have total := switchTo_total (k := x.kernel.entered) hx.sane.manned hx.sane.consistent owned.running owned.thread
    ready.context u
  exact (spec.and total).mono (fun _ _ hl => hl.1) fun _ _ hl => hl.2

theorem Live.ready (hx : x.Live) {reply : Option Value} (hc : x.control = .application reply) :
    ∃ u, x.kernel.Ready u ∧ x.kernel.processor.thread = some u ∧ x.kernel.preemptPending = false := by
  have orderly := hx.orderly
  obtain ⟨u, executes, ready, unasked⟩ := orderly.application hc
  exact ⟨u, ready, executes.owned.thread, unasked⟩

theorem Abreast.yieldsTo_level (h : Abreast t spurious x y) (hx : x.Live) (hy : y.Live) {reply : Option Value}
    (hc : x.control = .application reply) {task : Nat}
    (hn : task = t.val → x.kernel.isRunnable t = y.kernel.isRunnable t) :
    Matched t spurious (x.act (.move (.call (.yieldTo task)))) (y.act (.move (.call (.yieldTo task)))) := by
  have hc' := h.control.trans hc
  have alike := h.alike_executing (by rw [hc]; rfl)
  obtain ⟨u, ready, thread, _⟩ := hx.ready hc
  obtain ⟨v, ready', thread', _⟩ := hy.ready hc'
  obtain rfl : v = u := Option.some.inj (thread'.symm.trans ((alike.inStep trivial).2.trans thread))
  have steady : Pairs (perform (.yieldTo task)) x.kernel (perform (.yieldTo task)) y.kernel
      fun p k q l => q = p ∧ Alike t spurious True k l := by
    by_cases he : task = t.val
    · exact (steady_yieldTo (fun _ => id) (alike.level (hn he))).mono fun _ _ _ _ hl => ⟨hl.1, hl.2.mono False.elim id⟩
    · exact steady_yieldTo (fun ht => absurd ht he) alike
  rw [act_call hc, act_call hc']
  refine matched_run (steady.and (yieldTo_spec ready task) (yieldTo_spec ready' task)) fun p k q l hl => ?_
  obtain ⟨⟨rfl, after⟩, ⟨rfl, hp⟩, rfl, _⟩ := hl
  rcases hp with rfl | ⟨w, rfl, _⟩
  · exact .goes (abreast_proceed h.suspensions after nofun)
  · have first := remember_eq (m := { x with kernel := x.kernel.entered }) thread (.returning (some .unit))
    have second := remember_eq (m := { y with kernel := y.kernel.entered }) thread' (.returning (some .unit))
    have same : y.suspensions.set v (.returning (some .unit)) = x.suspensions.set v (.returning (some .unit)) := by
      rw [h.suspensions]
    simp only [proceed, first, second]
    refine matched_run (Pairs.of_total (hx.handsOver hc w) (hy.handsOver hc' w)) fun _ k _ l hl => ?_
    exact .goes (abreast_goto same (after.handedOver hl.1 hl.2) _)

/-- Who yields to the one task, gives it the processor in the first run, while in the second one the policy chooses. -/
theorem Abreast.yieldsTo_apart (h : Abreast t spurious x y) (hx : x.Live) (hy : y.Live) {reply : Option Value}
    (hc : x.control = .application reply) (runs : x.kernel.isRunnable t = true)
    (blocked : y.kernel.isRunnable t = false) :
    Astray t (x.act (.move (.call (.yieldTo t)))) (y.act (.move (.call (.yieldTo t)))) ∧
      (y.act (.move (.call (.yieldTo t)))).control = .dispatching := by
  have hc' := h.control.trans hc
  have alike := h.alike_executing (by rw [hc]; rfl)
  obtain ⟨u, ready, thread, _⟩ := hx.ready hc
  obtain ⟨v, ready', thread', _⟩ := hy.ready hc'
  obtain rfl : v = u := Option.some.inj (thread'.symm.trans ((alike.inStep trivial).2.trans thread))
  have entered := alike.map (f := entered) fun _ _ _ _ => rfl
  have first := remember_eq (m := { x with kernel := x.kernel.entered }) thread (.returning (some .unit))
  have second := remember_eq (m := { y with kernel := y.kernel.entered }) thread' (.returning (some .unit))
  rw [act_call hc, act_call hc']
  refine run_of_ends (P := fun y' => Astray t (x.run (perform (.yieldTo t)) proceed) y' ∧ y'.control = .dispatching)
    (yieldTo_known ready' t) (fun q l hl => ?_) fun _ _ => False.elim
  obtain ⟨rfl, rfl⟩ := hl
  rw [if_neg (Bool.eq_false_iff.mp blocked)]
  simp only [proceed, second]
  refine ⟨?_, rfl⟩
  refine run_of_ends (P := fun x' => Astray t x' _) (yieldTo_known ready t) (fun p k hk => ?_) fun _ _ => False.elim
  obtain ⟨rfl, rfl⟩ := hk
  rw [if_pos runs]
  simp only [proceed, first]
  refine run_of_ends (P := fun x' => Astray t x' _) (hx.handsOver hc t) (fun _ k handed => ?_) fun _ _ => False.elim
  refine ⟨rfl, ?_, (entered.strayed handed ready.context).mono (fun _ => trivial) id, ?_, blocked⟩
  · exact congrArg (fun table : Table (Suspension c) c.tasks.size => table.set v (.returning (some .unit)))
      h.suspensions
  · obtain ⟨p, rest⟩ := handed.rest
    exact congrArg Kernel.running rest

/-! ## Asking how urgent a task is -/

/-- What the last operation has returned is exchanged. -/
def withReply (m : Machine c) (reply : Option Value) : Machine c :=
  match m.control with
  | .leaving _ => m.goto (.leaving reply)
  | .application _ => m.goto (.application reply)
  | _ => m

theorem not_ended_withReply {reply : Option Value} (hn : ∀ ending, (m.withReply reply).control ≠ .ended ending)
    (ending : Ending) :
    m.control ≠ .ended ending := by
  intro he
  refine hn ending ?_
  simp only [withReply, he]

theorem leaving_of_withReply {reply r : Option Value} (h : (m.withReply reply).control = .leaving r) :
    ∃ r', m.control = .leaving r' := by
  unfold withReply at h
  split at h
  · next r' hc => exact ⟨r', hc⟩
  · cases h
  · exact ⟨r, h⟩

theorem application_of_withReply {reply r : Option Value} (h : (m.withReply reply).control = .application r) :
    ∃ r', m.control = .application r' := by
  unfold withReply at h
  split at h
  · cases h
  · next r' hc => exact ⟨r', hc⟩
  · exact ⟨r, h⟩

theorem suspensions_withReply (m : Machine c) (reply : Option Value) :
    (m.withReply reply).suspensions = m.suspensions := by
  unfold withReply
  split <;> rfl

theorem kernel_withReply (m : Machine c) (reply : Option Value) : (m.withReply reply).kernel = m.kernel := by
  unfold withReply
  split <;> rfl

theorem Live.withReply (h : m.Live) (reply : Option Value) : (m.withReply reply).Live := by
  obtain ⟨alive, orderly, ⟨accepted, manned, consistent⟩, wired, resting, begun⟩ := h
  unfold Orderly at orderly
  unfold Machine.withReply
  split
  · next hc =>
    rw [hc] at orderly
    exact ⟨fun _ => nofun, orderly, ⟨accepted, manned, consistent⟩, wired, resting, begun⟩
  · next hc =>
    rw [hc] at orderly
    exact ⟨fun _ => nofun, orderly, ⟨accepted, manned, consistent⟩, wired, resting, begun⟩
  · exact ⟨alive, orderly, ⟨accepted, manned, consistent⟩, wired, resting, begun⟩

/-- Who asks how urgent a task is, may be told something else, but nothing else is different. -/
theorem Abreast.asksPriority (h : Abreast t spurious x y) (hx : x.Live) {reply : Option Value}
    (hc : x.control = .application reply) (task : Nat) : let a := Act.move (.call (.effectivePriority task))
      (∃ ending, (x.act a).control = .ended ending ∧ (y.act a).control = .ended ending) ∨
        ∃ r, Abreast t spurious (x.act a) ((y.act a).withReply r) ∧ (x.act a).kernel.preemptPending = false ∧
          ∃ v, (x.act a).control = .leaving v := by
  have alike := h.alike_executing (by rw [hc]; rfl)
  obtain ⟨u, ready, _, unasked⟩ := hx.ready hc
  have quiet : Ends (perform (.effectivePriority task)) x.kernel (fun _ l => l.preemptPending = false)
      fun _ _ => True := by
    obtain ⟨s, hs, _⟩ := x.kernel.entered.refresh_eq
    rw [perform, ends_bind, ready.ends_enter]
    simp only [effectivePriority, ends_bind, ends_taskId, ends_modify, ends_get, ends_pure, hs]
    exact ⟨fun _ => unasked, fun _ => trivial⟩
  dsimp only
  rw [act_call hc, act_call (h.control.trans hc)]
  refine run_of_pairs (P := fun x' y' => (∃ ending, x'.control = .ended ending ∧ y'.control = .ended ending) ∨
    ∃ r, Abreast t spurious x' (y'.withReply r) ∧ x'.kernel.preemptPending = false ∧ ∃ v, x'.control = .leaving v)
    ((perform_effectivePriority alike task).and_left quiet) (fun p k q l hl => ?_)
    fun ending _ _ => .inl ⟨ending, rfl, rfl⟩
  obtain ⟨⟨⟨n, m, rfl, rfl⟩, after⟩, unasked⟩ := hl
  exact .inr ⟨some (.number n), abreast_goto h.suspensions after _, unasked, _, rfl⟩

theorem withReply_leaves {reply : Option Value} (hc : m.control = .leaving reply) (hp : m.kernel.preemptPending = false)
    (r : Option Value) : (m.withReply r).act .step = (m.act .step).withReply r := by
  simp [withReply, hc, goto, act, step, leave, hp]

theorem run_goto {α : Type} {action : Action c α} {next : α → Machine c → Machine c} {control : Control}
    (h : ∀ a (m : Machine c), next a (m.goto control) = next a m) (m : Machine c) :
    (m.goto control).run action next = m.run action next := by
  have same : (m.goto control).kernel = m.kernel := rfl
  unfold run
  rw [same]
  split
  · next a k _ => exact h a { m with kernel := k }
  · rfl

/-- How an operation goes on does not depend on what the last one has returned. -/
theorem proceed_goto (p : Progress c) (m : Machine c) (control : Control) :
    proceed p (m.goto control) = proceed p m := by
  have same : (m.goto control).kernel.processor.thread = m.kernel.processor.thread := rfl
  cases p with
  | done value | returned value => rfl
  | dispatch s =>
    simp only [proceed, remember, same]
    split <;> rfl
  | handOver u s =>
    simp only [proceed, remember, same]
    split
    · refine run_goto ?_ { m with suspensions := _ }
      exact fun _ _ => rfl
    · refine run_goto ?_ m
      exact fun _ _ => rfl

theorem withReply_moves {reply : Option Value} (hc : m.control = .application reply) (r : Option Value) (move : Move) :
    (m.withReply r).act (.move move) = m.act (.move move) ∨
      (m.withReply r).act (.move move) = m.withReply r ∧ m.act (.move move) = m ∧
      (move = .tick ∨ move = .endInterrupt) := by
  simp only [withReply, hc]
  have hc' : (m.goto (.application r)).control = .application r := rfl
  cases move with
  | call call =>
    rw [act_call hc, act_call hc']
    exact .inl (run_goto (fun p m => proceed_goto p m _) m)
  | beginInterrupt =>
    simp only [act, Machine.move, hc, hc']
    exact .inl rfl
  | tick =>
    simp only [act, Machine.move, hc, hc']
    exact .inr ⟨trivial, trivial, .inl trivial⟩
  | endInterrupt =>
    simp only [act, Machine.move, hc, hc']
    exact .inr ⟨trivial, trivial, .inr trivial⟩
  | stop ending =>
    simp only [act, Machine.move, hc, hc']
    exact .inl rfl

end Machine

end Rtos
