import Rtos.Proofs.Clock
import Rtos.Proofs.TokenCount

/-!
# Sane machines

Until a run is over, the state of the kernel passes its own consistency checks, and every task has a thread or can get
one.

* `pooled_play`: the rings of the queues stay within the buffer pool, wherever the messages come from or go to.
* `consistent_play`: the state is consistent.
* `Orderly.settles`, `Orderly.chooses`: so the dispatcher goes on, unless there are too many ticks, a timer raises an
  error, or nothing has happened for too long.
* `Orderly.answers_program`, `Orderly.answers_handler`: a call is rejected, or the run goes on.
* `manned_play`: and every task has a thread or can get one.
-/

namespace Rtos
set_option autoImplicit false

variable {c : Config}

/-! ## Rings -/

theorem Pool.size_move (pool : Array UInt8) (source target length : Nat) :
    (Pool.move pool source target length).size = pool.size := by
  induction length generalizing pool source target with
  | zero => rfl
  | succ length ih => rw [move, ih, Array.size_setIfInBounds]

/-- A number changes by at most one. -/
def Nears (x y : Nat) : Prop := y = x ∨ y = x + 1 ∨ y + 1 = x

namespace Kernel

variable {k l : Kernel c} {t : c.TaskId} {q : c.QueueId}

/-- The rings of the queues lie within the buffer pool of the configuration. -/
structure Pooled (k : Kernel c) : Prop where
  fit : k.RingsFit
  size : k.pool.size = c.queueBytes.toNat

theorem Pooled.of_rings (h : k.Pooled) (hl : l.RingsFit) (hs : l.pool.size = k.pool.size) :
    l.Pooled := ⟨hl, hs.trans h.size⟩

theorem RingsFit.of_size (h : k.RingsFit) (hq : l.rings = k.rings) (hs : l.pool.size = k.pool.size) : l.RingsFit := by
  constructor <;> simp only [ringStop, slotStart, hq, hs]
  · exact h.inside
  · exact h.apart
  · exact h.head
  · exact h.count

theorem size_copyIn (k : Kernel c) (message : Buffer) (start : Nat) :
    (k.copyIn message start).pool.size = k.pool.size := by
  cases message with
  | own bytes => exact Pool.size_store ..
  | pooled source length => exact Pool.size_move ..

theorem size_copyOut (k : Kernel c) (message : Buffer) (start : Nat) :
    (k.copyOut message start).1.pool.size = k.pool.size := by
  cases message with
  | own bytes => rfl
  | pooled target length => exact Pool.size_move ..

/-- Where the bytes of the message come from does not matter to the rings. -/
theorem rings_copyIn (k : Kernel c) (message : Buffer) (start : Nat) : (k.copyIn message start).rings = k.rings := by
  cases message <;> rfl

theorem Pooled.stored (h : k.Pooled) (room : k.rings[q].count ≠ capacity q) (message : Buffer) (start : Nat) :
    ((k.copyIn message start).pushed q).Pooled := by
  have fits : (k.appended q []).RingsFit := h.fit.appended room
  refine h.of_rings (fits.of_size ?_ ?_) (size_copyIn k message start)
  · simp only [pushed, appended, rings_copyIn]
  · exact size_copyIn k message start

theorem Pooled.fetched (h : k.Pooled) (message : Buffer) (start : Nat) :
    ((k.copyOut message start).1.popped q).Pooled := by
  refine h.of_rings ((h.fit.of_size (l := (k.copyOut message start).1) ?_ ?_).popped q) (size_copyOut k message start)
  · exact rings_copyOut k message start
  · exact size_copyOut k message start

theorem Pooled.of_resources (h : k.Pooled) (hr : l.resources = k.resources) : l.Pooled := by
  obtain ⟨_, _, rings, pool⟩ := resources_eq_iff.mp hr
  exact ⟨h.fit.congr rings pool, (congrArg Array.size pool).trans h.size⟩

theorem nears_pushed (k : Kernel c) (q q' : c.QueueId) : Nears k.rings[q'].count (k.pushed q).rings[q'].count := by
  by_cases hq : q' = q
  · subst hq
    rw [show (k.pushed q').rings[q'] = _ from Table.getElem_set_self ..]
    exact .inr (.inl rfl)
  · rw [show (k.pushed q).rings[q'] = _ from Table.getElem_set_of_ne k.rings _ hq]
    exact .inl rfl

theorem nears_popped (some : k.rings[q].count ≠ 0) (q' : c.QueueId) :
    Nears k.rings[q'].count (k.popped q).rings[q'].count := by
  by_cases hq : q' = q
  · subst hq
    rw [ring_popped_self]
    exact .inr (.inr (Nat.sub_add_cancel (Nat.pos_of_ne_zero some)))
  · rw [ring_popped_ne k hq]
    exact .inl rfl

/-- A request that is granted leaves the rings within the pool, and a queue with at most one message more or less. -/
theorem Pooled.grant (h : k.Pooled) {r : Request c} (allowed : r.edit.Allowed t k) :
    (r.edit.apply t k).Pooled ∧ ∀ q : c.QueueId, Nears k.rings[q].count (r.edit.apply t k).rings[q].count := by
  cases r with
  | lock x | token s => exact ⟨⟨h.fit.congr rfl rfl, h.size⟩, fun _ => .inl rfl⟩
  | put q message =>
    have same := resources_store (t := t) k q message
    refine ⟨(h.stored allowed.1 message _).of_resources same, fun q' => ?_⟩
    rw [Request.edit, (resources_eq_iff.mp same).2.2.1, ← rings_copyIn k message (k.slotStart q (k.tailSlot q))]
    exact nears_pushed _ q q'
  | get q message =>
    have same := resources_fetch (t := t) k q message
    refine ⟨(h.fetched message _).of_resources same, fun q' => ?_⟩
    generalize k.slotStart q k.rings[q].head = start at same
    have rings := k.rings_copyOut message start
    have some : (k.copyOut message start).1.rings[q].count ≠ 0 := by
      rw [rings]
      exact allowed.1
    rw [Request.edit, (resources_eq_iff.mp same).2.2.1, ← rings]
    exact nears_popped some q'

theorem Pooled.consistent (h : k.Pooled) : k.ringsConsistent = true :=
  List.all_eq_true.mpr fun q _ =>
    Bool.and_eq_true_iff.mpr ⟨decide_eq_true (h.fit.head q), decide_eq_true (h.fit.count q)⟩

end Kernel

namespace Machine
open Kernel

variable {m m' : Machine c} {detour : Prop} {a : Act}

theorem Effect.pooled (h : m.Effect a m') (hn : ∀ ending, m'.control ≠ .ended ending) (hp : m.kernel.Pooled) :
    m'.kernel.Pooled ∧ ∀ q : c.QueueId, Nears m.kernel.rings[q].count m'.kernel.rings[q].count := by
  have same : m'.kernel.rings = m.kernel.rings → m'.kernel.pool = m.kernel.pool →
      m'.kernel.Pooled ∧ ∀ q : c.QueueId, Nears m.kernel.rings[q].count m'.kernel.rings[q].count := fun rings pool =>
    ⟨⟨hp.fit.congr rings pool, (congrArg Array.size pool).trans hp.size⟩, fun q => .inl (by rw [rings])⟩
  cases h with
  | ends ending control => exact absurd control (hn ending)
  | @grants t op r canFail request allowed completion resources suspensions =>
    obtain ⟨pooled, nears⟩ := hp.grant allowed
    refine ⟨pooled.of_resources resources, fun q => ?_⟩
    rw [(resources_eq_iff.mp resources).2.2.1]
    exact nears q
  | denies request denied completion resources suspensions
  | waits deadline operation request refused completion resources suspensions =>
    exact same (resources_eq_iff.mp resources).2.2.1 (resources_eq_iff.mp resources).2.2.2
  | unlocks holds completion resources suspensions =>
    exact same (resources_eq_iff.mp resources).2.2.1 (resources_eq_iff.mp resources).2.2.2
  | otherwise completion holders rings pool requests => exact same rings pool

theorem pooled_play (acts : List Act) (hn : ∀ ending, (play c acts).control ≠ .ended ending) :
    (play c acts).kernel.Pooled := by
  induction acts using play_induction with
  | boot =>
    refine run_of_alive (P := fun m => m.kernel.Pooled) ((boot_accepts rfl rfl).and (boot_ringsFit rfl rfl)) hn
      fun _ l hl => ?_
    obtain ⟨⟨_, booting, _⟩, fit, _⟩ := hl
    exact ⟨fit, (congrArg Array.size booting.pool).trans Array.size_replicate⟩
  | act acts a ih =>
    obtain ⟨orderly, timers⟩ := orderly_play (c := c) acts
    exact ((orderly.effect timers a).pooled hn (ih (not_ended_of_act hn))).1

/-! ## Consistency -/

theorem Orderly.idle (h : m.Orderly detour) (hn : ∀ ending, m.control ≠ .ended ending) {t : c.TaskId}
    (ht : m.active = some t) : m.kernel.tasks[t].wait = none := by
  rcases h.between_or_executes hn with ⟨none, _⟩ | ⟨u, some, executes⟩
  · cases none.symm.trans ht
  · cases some.symm.trans ht
    exact executes.idle

/-- Nobody waits for a mutex that he holds. -/
theorem Orderly.waitsConsistent (h : m.Orderly detour) (hn : ∀ ending, m.control ≠ .ended ending) :
    m.kernel.waitsConsistent = true := by
  have waits := h.waits hn
  refine List.all_eq_true.mpr fun t _ => ?_
  split
  · next x hw =>
    have inactive : m.active ≠ some t := fun ha => by cases (h.idle hn ha).symm.trans hw
    obtain ⟨r, hr, ho⟩ := waits.recorded t _ inactive hw
    cases r with
    | lock y =>
      obtain rfl := WaitObject.mutex.inj ho
      exact decide_eq_true (waits.stranger t y inactive hr)
    | _ => cases ho
  · rfl

theorem consistent_play (acts : List Act) (hn : ∀ ending, (play c acts).control ≠ .ended ending) :
    (play c acts).kernel.isConsistent = true := by
  have semaphores : (play c acts).kernel.semaphoresConsistent = true := by
    refine List.all_eq_true.mpr fun s _ => ?_
    split
    · next max hm => exact decide_eq_true ((stands_play acts hn s).bounded max hm)
    · rfl
  rw [isConsistent, (orderly_play acts).1.waitsConsistent hn, semaphores, (pooled_play acts hn).consistent]
  rfl

/-- What the dispatcher relies on. -/
structure Sane (m : Machine c) : Prop where
  accepted : c.Accepted
  manned : m.kernel.processor.Manned
  consistent : m.kernel.isConsistent = true

/-! ## The dispatcher -/

theorem accepted_of_not_ended {acts : List Act} (hn : ∀ ending, (play c acts).control ≠ .ended ending) : c.Accepted :=
  accepted_play ((boot_accepts rfl rfl).mono (fun _ _ hl => hl.1) fun _ _ _ => trivial) hn

/-- What comes of applying what was recorded. -/
inductive Settles (m m' : Machine c) : Prop
  | overflows (many : 2 ≤ m.kernel.pendingTicks) (control : m'.control = .ended (.fatal .tickOverflow))
    (now : m'.kernel.now = m.kernel.now)
  | faults (one : m.kernel.pendingTicks = 1) (ending : Ending) (faulty : m.kernel.Faulty ending)
    (control : m'.control = .ended ending) (now : m'.kernel.now = m.kernel.now + 1)
  | passes (few : m.kernel.pendingTicks ≤ 1) (control : m'.control = .choosing)
    (now : m'.kernel.now = m.kernel.now + .ofNat m.kernel.pendingTicks) (settled : m'.kernel.hasPending = false)
    (processor : m'.kernel.processor = m.kernel.processor) (asked : m'.kernel.preemptPending = m.kernel.preemptPending)

theorem Orderly.settles (h : m.Orderly detour) (aimed : c.Aimed) (hc : m.control = .dispatching) :
    m.Settles (m.act .step) := by
  replace h := h.dispatching hc
  have settling : m.act .step = m.run settle fun _ m => m.goto .choosing := by simp only [Machine.act, step, hc]
  rw [settling]
  refine run_of_ends (P := m.Settles) ((settle_upset h aimed).and (settle_spec h)) (fun _ l hl => ?_)
    fun ending l hl => ?_
  · exact .passes hl.1.2 rfl hl.1.1.now hl.2.2.1 hl.1.1.processor hl.1.1.asked
  · rcases hl.1.2 with ⟨many, rfl, now⟩ | ⟨one, faulty, now⟩
    · exact .overflows many rfl now
    · exact .faults one ending faulty rfl now

/-- What comes of choosing a task. -/
inductive Chooses (m m' : Machine c) : Prop
  | idles (decision : m.kernel.decision = .ok none) (control : m'.control = .dispatching)
    (kernel : m'.kernel = m.kernel.refresh.idled) (patient : m.kernel.processor.idleTicks < maxIdleTicks)
  | dispatches (t : c.TaskId) (decision : m.kernel.decision = .ok (some t)) (control : m'.control = .resuming)
    (handed : HandedOver t m.kernel.refresh m'.kernel) (manned : m'.kernel.processor.Manned)
  | starves (long : maxIdleTicks ≤ m.kernel.processor.idleTicks) (control : m'.control = .ended starved)
    (kernel : m'.kernel = m.kernel.refresh.wedged)

theorem isConsistent_refresh (k : Kernel c) : k.refresh.isConsistent = k.isConsistent := by
  obtain ⟨s, hs, _⟩ := k.refresh_eq
  rw [hs]
  rfl

theorem processor_refresh (k : Kernel c) : k.refresh.processor = k.processor := by
  obtain ⟨s, hs, _⟩ := k.refresh_eq
  rw [hs]

theorem chooses_of_decision {task : Option c.TaskId} (between : m.kernel.refresh.Between m.suspensions)
    (settled : m.kernel.refresh.hasPending = false) (manned : m.kernel.refresh.processor.Manned)
    (consistent : m.kernel.refresh.isConsistent = true) (decision : m.kernel.decision = .ok task) :
    m.Chooses (dispatch task { m with kernel := m.kernel.refresh }) := by
  cases task with
  | none =>
    simp only [dispatch]
    refine run_of_ends (m := { m with kernel := m.kernel.refresh }) (P := m.Chooses) (idle_starves between settled)
      (fun _ l hl => ?_) fun ending l hl => ?_
    · obtain ⟨idled, patient⟩ := hl
      rw [processor_refresh] at patient
      exact .idles decision rfl idled patient
    · obtain ⟨rfl, long, rfl⟩ := hl
      rw [processor_refresh] at long
      exact .starves long rfl rfl
  | some t =>
    cases hr : m.kernel.refresh.running with
    | none =>
      simp only [dispatch, hr]
      refine run_of_ends (P := m.Chooses)
        ((startFirst_spec between.scheduled t).and (startFirst_total between manned hr t))
        (fun _ l hl => .dispatches t decision rfl hl.1 hl.2) fun _ _ hl => hl.2.elim
    | some old =>
      have context := between.context
      rw [hr] at context
      have thread := between.thread.trans hr
      simp only [dispatch, hr]
      refine run_of_ends (P := m.Chooses) ((switchTo_spec between.scheduled hr thread context t).and
        (switchTo_total manned consistent hr thread context t)) (fun _ l hl => .dispatches t decision rfl hl.1 hl.2)
        fun _ _ hl => hl.2.elim

theorem suspensions_run {α : Type} {action : Action c α} {next : α → Machine c → Machine c}
    (h : ∀ a m, (next a m).suspensions = m.suspensions) (m : Machine c) :
    (m.run action next).suspensions = m.suspensions := by
  unfold run
  split
  · exact h _ _
  · rfl

theorem suspensions_run_goto {α : Type} (m : Machine c) (action : Action c α) (control : Control) :
    (m.run action fun _ m => m.goto control).suspensions = m.suspensions := by
  refine suspensions_run ?_ m
  exact fun _ _ => rfl

theorem suspensions_choosing (hc : m.control = .choosing) : (m.act .step).suspensions = m.suspensions := by
  simp only [act, step, hc]
  refine suspensions_run (fun task m => ?_) m
  unfold dispatch
  split
  · exact suspensions_run_goto m _ _
  · split <;> exact suspensions_run_goto m _ _

theorem Orderly.chooses (h : m.Orderly detour) (sane : m.Sane) (hc : m.control = .choosing) :
    m.Chooses (m.act .step) := by
  obtain ⟨_, manned, consistent⟩ := sane
  obtain ⟨between, settled⟩ := h.choosing hc
  have still : m.kernel.refresh.hasPending = false := by
    obtain ⟨s, hs, _⟩ := m.kernel.refresh_eq
    rw [hs]
    exact settled
  have choosing : m.act .step = m.run (do check; choose) dispatch := by simp only [Machine.act, step, hc]
  rw [choosing]
  refine run_of_ends (P := m.Chooses) (choose_total between.scheduled consistent) (fun task l hl => ?_)
    fun _ _ => False.elim
  obtain ⟨rfl, decision⟩ := hl
  rw [← isConsistent_refresh] at consistent
  rw [← processor_refresh] at manned
  exact chooses_of_decision between.refresh still manned consistent decision

/-! ## Why runs end -/

theorem not_ended_of_control {control : Control} (h : m.control = control) (hn : ∀ ending, control ≠ .ended ending)
    (ending : Ending) : m.control ≠ .ended ending := h ▸ hn ending

/-- Why a run ends. -/
inductive Cause (m : Machine c) : Act → Ending → Prop
  | stopped (ending : Ending) : Cause m (.move (.stop ending)) ending
  /-- The kernel refuses a call. -/
  | refused {reply : Option Value} (control : m.control = .application reply) (call : Call) {error : FatalError}
    (listed : error ∈ call.errors) : Cause m (.move (.call call)) (.fatal error)
  /-- So it does with most calls of an interrupt handler. -/
  | misplaced (control : m.control = .handling) (call : Call) {error : FatalError} (listed : error ∈ .badContext ::
      call.errors) :
    Cause m (.move (.call call)) (.fatal error)
  /-- The message of a request that was put off lies in the slot it is to be copied from or to. -/
  | collides (control : m.control = .resuming) : Cause m .step (.fatal .messageBufferOverlap)
  | nested (control : m.control = .handling) : Cause m (.move .beginInterrupt) .assertionFailed
  | late (control : m.control = .dispatching) (many : 2 ≤ m.kernel.pendingTicks) : Cause m .step (.fatal .tickOverflow)
  | faulty (control : m.control = .dispatching) (one : m.kernel.pendingTicks = 1) {ending : Ending}
    (faulty : m.kernel.Faulty ending) : Cause m .step ending
  | starved (control : m.control = .choosing) (long : maxIdleTicks ≤ m.kernel.processor.idleTicks) : Cause m .step
      Kernel.starved

/-- What comes of an act. -/
def Outcome (m : Machine c) (a : Act) (m' : Machine c) : Prop :=
  ((∀ ending, m'.control ≠ .ended ending) ∧ m'.kernel.processor.Manned) ∨ ∃ ending, m'.control = .ended ending ∧
  m.Cause a ending

theorem outcome_of_rest (hn : ∀ ending, m.control ≠ .ended ending) (manned : m.kernel.processor.Manned) (h : m' = m) :
    m.Outcome a m' := by
  rw [h]
  exact .inl ⟨hn, manned⟩

/-- The run goes on, and every task has a thread or can get one. -/
def Lives (m : Machine c) : Prop := (∀ ending, m.control ≠ .ended ending) ∧ m.kernel.processor.Manned

theorem lives_proceed {k l : Kernel c} {t : c.TaskId} {mutex : Option c.MutexId} {p : Progress c}
    (h : Goes t k mutex p l) (manned : k.processor.Manned) : (proceed p { m with kernel := l }).Lives := by
  refine ⟨fun ending => ?_, ?_⟩
  · cases h with
    | done value edits takes => exact nofun
    | stops edits takes stop waits => exact nofun
  · rw [kernel_proceed h, h.frame.processor]
    exact manned

theorem Orderly.outcome_step (h : m.Orderly detour) (sane : m.Sane) (hn : ∀ ending, m.control ≠ .ended ending) :
    m.Outcome .step (m.act .step) := by
  obtain ⟨accepted, manned, consistent⟩ := id sane
  cases hc : m.control with
  | dispatching =>
    cases h.settles accepted.aimed hc with
    | overflows many control => exact .inr ⟨_, control, .late hc many⟩
    | faults one ending faulty control => exact .inr ⟨_, control, .faulty hc one faulty⟩
    | passes few control now settled processor =>
      refine .inl ⟨not_ended_of_control control (by rintro _ ⟨⟩), ?_⟩
      rw [processor]
      exact manned
  | choosing =>
    cases h.chooses sane hc with
    | idles decision control kernel =>
      refine .inl ⟨not_ended_of_control control (by rintro _ ⟨⟩), ?_⟩
      rw [kernel]
      rw [← processor_refresh] at manned
      exact ⟨manned.ready, manned.worker, manned.runs⟩
    | dispatches t decision control handed manned' =>
      exact .inl ⟨not_ended_of_control control (by rintro _ ⟨⟩), manned'⟩
    | starves long control => exact .inr ⟨_, control, .starved hc long⟩
  | resuming =>
    obtain ⟨t, resumes⟩ := h.resuming hc
    have thread := resumes.between.thread.trans resumes.running
    cases hs : m.suspensions[t] with
    | entry | returning reply =>
      simp only [Machine.act, step, hc, thread, resumeAt, hs]
      exact .inl ⟨by rintro _ ⟨⟩, manned⟩
    | waiting wait =>
      rw [act_wait hc thread hs]
      refine run_of_ends (P := m.Outcome .step) ((resumes.resume_spec accepted.timers hs).and
        (resume_raises accepted.timers resumes.running wait (resumes.stranger hs))) (fun p l hl => ?_)
          fun ending l hl => ?_
      · obtain ⟨⟨es, k, edits, _, _, _, goes⟩, _⟩ := hl
        exact .inl (lives_proceed goes (edits.frame.processor.symm ▸ manned))
      · obtain ⟨_, error, listed, rfl⟩ := hl
        rw [List.mem_singleton.mp listed]
        exact .inr ⟨_, rfl, .collides hc⟩
  | leaving reply =>
    simp only [Machine.act, step, hc, leave]
    split
    · refine .inl ⟨by rintro _ ⟨⟩, ?_⟩
      simp only [goto, kernel_remember]
      exact manned
    · exact .inl ⟨by rintro _ ⟨⟩, manned⟩
  | application reply | handling => exact outcome_of_rest hn manned (by simp only [Machine.act, step, hc])
  | ended ending => exact absurd hc (hn ending)

theorem Orderly.answers_yieldTo (h : m.Orderly detour) (sane : m.Sane) {reply : Option Value}
    (hc : m.control = .application reply) (task : Nat) : Ends (perform (.yieldTo task)) m.kernel
      (fun p l => (proceed p { m with kernel := l }).Lives) (Rejected (Call.yieldTo task).errors m.kernel) := by
  obtain ⟨accepted, manned, consistent⟩ := sane
  obtain ⟨t, executes, ready, _⟩ := h.application hc
  refine ((yieldTo_spec ready task).and (perform_rejects accepted.timers ready (.yieldTo task))).mono (fun p l hl => ?_)
    fun _ _ hl => hl.2
  obtain ⟨⟨rfl, hp⟩, _⟩ := hl
  have remembered :=
    remember_eq (m := { m with kernel := m.kernel.entered }) executes.owned.thread (.returning (some .unit))
  rcases hp with rfl | ⟨u, rfl, _⟩
  · simp only [proceed, remembered]
    exact ⟨by rintro _ ⟨⟩, manned⟩
  · simp only [proceed, remembered]
    exact run_of_ends (P := Lives)
      (switchTo_total (k := m.kernel.entered) manned consistent ready.running executes.owned.thread ready.context u)
      (fun _ l hl => ⟨by rintro _ ⟨⟩, hl⟩) fun _ _ => False.elim

/-- A call of a program is rejected, or the run goes on. -/
theorem Orderly.answers_program (h : m.Orderly detour) (sane : m.Sane) {reply : Option Value}
    (hc : m.control = .application reply) (call : Call) : Ends (perform call) m.kernel
      (fun p l => (proceed p { m with kernel := l }).Lives) (Rejected call.errors m.kernel) := by
  by_cases hy : ∃ task, call = .yieldTo task
  · obtain ⟨task, rfl⟩ := hy
    exact h.answers_yieldTo sane hc task
  · have timers := sane.accepted.timers
    obtain ⟨t, executes, ready, _⟩ := h.application hc
    refine ((perform_spec timers ready call fun task he => hy ⟨task, he⟩).and (perform_rejects timers ready call)).mono
      (fun p l hl => ?_) fun _ _ hl => hl.2
    exact lives_proceed hl.1.1 sane.manned

/-- A call of an interrupt handler is rejected, or the run goes on. -/
theorem Orderly.answers_handler (h : m.Orderly detour) (hc : m.control = .handling) (manned : m.kernel.processor.Manned)
    (call : Call) : Ends (perform call) m.kernel (fun p l => (proceed p { m with kernel := l }).Lives)
      (Rejected (.badContext :: call.errors) m.kernel) := by
  obtain ⟨t, executes, context, _⟩ := h.handling hc
  have unmasked := executes.owned.unmasked
  refine ((perform_of_handler context unmasked call).and (perform_rejects_of_handler context unmasked call)).mono
    (fun p l hl => ?_) fun _ _ hl => hl.2
  obtain ⟨⟨rfl, event, rfl⟩, _⟩ := hl
  have context : (m.kernel.recorded event).processor.context = .interrupt := context
  simp only [proceed, answer, if_pos context]
  exact ⟨by rintro _ ⟨⟩, manned⟩

theorem Orderly.outcome_program (h : m.Orderly detour) (sane : m.Sane) (hn : ∀ ending, m.control ≠ .ended ending)
    {reply : Option Value} (hc : m.control = .application reply) (move : Move) :
    m.Outcome (.move move) (m.act (.move move)) := by
  have manned := sane.manned
  cases move with
  | call call =>
    rw [act_call hc]
    refine run_of_ends (P := m.Outcome (.move (.call call))) (h.answers_program sane hc call)
      (fun _ _ lives => .inl lives)
      fun ending l rejected => ?_
    obtain ⟨error, listed, rfl⟩ := rejected.error
    exact .inr ⟨_, rfl, .refused hc _ listed⟩
  | beginInterrupt =>
    obtain ⟨t, _, ready, _⟩ := h.application hc
    have allowed : ¬ (m.kernel.processor.context ≠ .task ∨ m.kernel.processor.masked = true) := by
      simp [ready.context, ready.unmasked]
    simp only [Machine.act, Machine.move, hc, beginInterrupt]
    rw [if_neg allowed]
    exact .inl ⟨by rintro _ ⟨⟩, ⟨manned.ready, manned.worker, manned.runs⟩⟩
  | tick | endInterrupt => exact outcome_of_rest hn manned (by simp only [Machine.act, Machine.move, hc])
  | stop ending =>
    simp only [Machine.act, Machine.move, hc]
    exact .inr ⟨_, rfl, .stopped ending⟩

theorem Orderly.outcome_handler (h : m.Orderly detour) (hc : m.control = .handling) (manned : m.kernel.processor.Manned)
    (move : Move) : m.Outcome (.move move) (m.act (.move move)) := by
  obtain ⟨t, executes, context, enabled⟩ := h.handling hc
  have unmasked := executes.owned.unmasked
  cases move with
  | call call =>
    simp only [Machine.act, Machine.move, hc]
    refine run_of_ends (P := m.Outcome (.move (.call call))) (h.answers_handler hc manned call)
      (fun _ _ lives => .inl lives)
      fun ending l rejected => ?_
    obtain ⟨error, listed, rfl⟩ := rejected.error
    exact .inr ⟨_, rfl, .misplaced hc _ listed⟩
  | beginInterrupt =>
    have refused : m.kernel.processor.context ≠ .task ∨ m.kernel.processor.masked = true := by simp [context]
    simp only [Machine.act, Machine.move, hc, beginInterrupt]
    rw [if_pos refused]
    exact .inr ⟨_, rfl, .nested hc⟩
  | tick =>
    have inside : m.kernel.processor.context ≠ .outside := by
      rw [context]
      rintro ⟨⟩
    simp only [Machine.act, Machine.move, hc]
    refine run_of_ends (P := m.Outcome (.move .tick)) (deliverTick_spec inside unmasked) (fun _ l hl => ?_)
      fun _ _ => False.elim
    rw [hl]
    exact .inl ⟨not_ended_of_control (m := m) hc (by rintro _ ⟨⟩), manned⟩
  | endInterrupt =>
    have ready : ({ m.kernel with processor := { m.kernel.processor with context := .task } } : Kernel c).Ready t :=
      ⟨executes.owned.running, rfl, unmasked, enabled⟩
    simp only [Machine.act, Machine.move, hc, endInterrupt]
    refine run_of_ends (P := m.Outcome (.move .endInterrupt)) (servicePreemption_spec ready) (fun _ l hl => ?_)
      fun _ _ => False.elim
    have manned : ({ m.kernel.processor with context := .task } : Processor c.tasks.size).Manned :=
      ⟨manned.ready, manned.worker, manned.runs⟩
    rcases hl with ⟨rfl, rfl⟩ | ⟨rfl, rfl, _⟩
    · exact .inl ⟨by rintro _ ⟨⟩, manned⟩
    · exact .inl ⟨by rintro _ ⟨⟩, manned⟩
  | stop ending =>
    simp only [Machine.act, Machine.move, hc]
    exact .inr ⟨_, rfl, .stopped ending⟩

theorem Orderly.outcome (h : m.Orderly detour) (sane : m.Sane) (hn : ∀ ending, m.control ≠ .ended ending) (a : Act) :
    m.Outcome a (m.act a) := by
  cases a with
  | step => exact h.outcome_step sane hn
  | move move =>
    cases hc : m.control with
    | application reply => exact h.outcome_program sane hn hc move
    | handling => exact h.outcome_handler hc sane.manned move
    | ended ending => exact absurd hc (hn ending)
    | _ => exact outcome_of_rest hn sane.manned (by simp only [Machine.act, Machine.move, hc])

/-- Every task has a thread, or can get one. -/
theorem manned_play (acts : List Act) (hn : ∀ ending, (play c acts).control ≠ .ended ending) :
    (play c acts).kernel.processor.Manned := by
  induction acts using play_induction with
  | boot =>
    refine run_of_alive (P := fun m => m.kernel.processor.Manned) (boot_accepts rfl rfl) hn fun _ l hl => ?_
    obtain ⟨_, booting, ready⟩ := hl
    obtain ⟨_, hp⟩ := booting.processor
    refine ⟨ready, fun t ht => ?_, ?_⟩
    · have nobody : l.processor.thread = none := by rw [hp]; rfl
      cases nobody.symm.trans ht
    · show l.processor.group.running = l.processor.worker
      rw [hp]
      rfl
  | act acts a ih =>
    have before := not_ended_of_act hn
    have sane : (play c acts).Sane := ⟨accepted_of_not_ended before, ih before, consistent_play acts before⟩
    rcases (orderly_play (c := c) acts).1.outcome sane before a with ⟨_, manned⟩ | ⟨ending, control, _⟩
    · exact manned
    · exact absurd control (hn ending)

theorem sane_play (acts : List Act) (hn : ∀ ending, (play c acts).control ≠ .ended ending) : (play c acts).Sane :=
  ⟨accepted_of_not_ended hn, manned_play acts hn, consistent_play acts hn⟩

/-- Every act leads on, or ends the run for one of the known causes. -/
theorem outcome_play (acts : List Act) (hn : ∀ ending, (play c acts).control ≠ .ended ending) (a : Act) :
    (play c acts).Outcome a ((play c acts).act a) := (orderly_play (c := c) acts).1.outcome (sane_play acts hn) hn a

end Machine

end Rtos
