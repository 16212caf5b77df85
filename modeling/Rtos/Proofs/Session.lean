import Mathlib.Data.List.Induction
import Rtos.Session
import Rtos.Proofs.Sanity

/-!
# Sessions and their ends

* `release_of_calm`, `release_of_booting`, `release_of_masked`: how the critical section of a panicking thread is
  released.
* `Machine.OffGuard`: a thread has ended the run by a panic outside of all critical sections.
* `panicked_play`: the only other panic is the report of a deadlock.
* `closed_conclude`: so all threads are stopped once the run is over, or the host has given up.
* `Session.granted`: the acts of the threads that were admitted.
* `session_play`: a session is a run of the machine by the threads that are admitted, up to its end.
-/

namespace Rtos
set_option autoImplicit false

variable {c : Config}

/-! ## Releasing a critical section -/

namespace Kernel

variable {k : Kernel c} {t : c.TaskId}

/-- If no task switch is due, preemption is enabled, and that is all. -/
theorem release_of_calm (calm : k.preemptPending = false) :
    release k = .ok false { k with preemptDisabled := false } := by
  refine Ends.eq_ok ?_
  simp only [release, ends_bind, ends_get, calm, ends_ite, ends_modify, ends_pure]
  exact ⟨fun hn => absurd hn Bool.false_ne_true, fun _ => ⟨trivial, trivial⟩⟩

/-- Before the first task is dispatched, there is no task the dispatcher could be run for. -/
theorem release_of_booting (due : k.preemptPending = true) (boots : k.running = none) :
    release k = .error (.fatal .badContext) { k with preemptDisabled := true, preemptPending := false } := by
  refine Ends.eq_error ?_
  simp only [release, ends_bind, ends_get, due, ends_ite, ends_modify, current, boots, ends_fail]
  exact ⟨fun _ => ⟨trivial, trivial⟩, fun hn => absurd trivial hn⟩

/-- The dispatcher asserts that interrupts are let through. -/
theorem release_of_masked (due : k.preemptPending = true) (runs : k.running = some t)
    (masked : k.processor.masked = true) :
    release k = .error .assertionFailed { k with preemptDisabled := true, preemptPending := false } := by
  refine Ends.eq_error ?_
  simp only [release, ends_bind, ends_get, due, ends_ite, ends_modify, current, runs, ends_pure, settle, takePending,
    mask, masked, ends_throw]
  exact ⟨fun _ => ⟨fun _ => ⟨trivial, trivial⟩, fun hn => absurd (.inr trivial) hn⟩, fun hn => absurd trivial hn⟩

end Kernel

/-! ## The ends of runs -/

namespace Machine
open Kernel

variable {m : Machine c} {acts : List Act} {a : Act}

/-- The dispatcher has ended the run with the report of a deadlock. -/
structure Wedged (m : Machine c) (a : Act) : Prop where
  step : a = .step
  control : m.control = .choosing
  ended : (m.act a).control = .ended starved
  kernel : (m.act a).kernel = m.kernel.refresh.wedged

theorem Orderly.wedged {detour : Prop} (h : m.Orderly detour) (sane : m.Sane) (hc : m.control = .choosing)
    (ended : (m.act .step).control = .ended starved) : m.Wedged .step := by
  cases h.chooses sane hc with
  | idles decision control => cases ended.symm.trans control
  | dispatches t decision control => cases ended.symm.trans control
  | starves long control kernel => exact ⟨rfl, hc, control, kernel⟩

theorem Orderly.enabled {detour : Prop} (h : m.Orderly detour)
    (hc : m.control = .handling ∨ ∃ reply, m.control = .application reply) :
    m.kernel.preemptDisabled = false := by
  rcases hc with hc | ⟨reply, hc⟩
  · obtain ⟨t, _, _, enabled⟩ := h.handling hc
    exact enabled
  · obtain ⟨t, _, ready, _⟩ := h.application hc
    exact ready.enabled

theorem act_stop (m : Machine c) (ending : Ending) : m.act (.move (.stop ending)) = m ∨
    ((m.control = .handling ∨ ∃ reply, m.control = .application reply) ∧
      m.act (.move (.stop ending)) = { m with control := .ended ending }) := by
  cases hc : m.control with
  | application reply =>
    refine .inr ⟨.inr ⟨reply, rfl⟩, ?_⟩
    simp only [act, move, hc]
    rfl
  | handling =>
    refine .inr ⟨.inl rfl, ?_⟩
    simp only [act, move, hc]
    rfl
  | _ =>
    refine .inl ?_
    simp only [act, move, hc]

/-- A thread that panics is outside of all critical sections, unless the panic is the report of a deadlock. -/
theorem panicked_play (alive : ∀ ending, (play c acts).control ≠ .ended ending) {message : String}
    (ended : ((play c acts).act a).control = .ended (.panic message)) :
    ((play c acts).act a).kernel.preemptDisabled = false ∨ (play c acts).Wedged a := by
  have orderly := (orderly_play (c := c) acts).1
  generalize he : Ending.panic message = ending at ended
  rcases outcome_play acts alive a with ⟨lives, _⟩ | ⟨ending', control, cause⟩
  · exact absurd ended (lives ending)
  · obtain rfl : ending = ending' := Control.ended.inj (ended.symm.trans control)
    cases cause with
    | stopped =>
      rcases act_stop (play c acts) ending with rests | ⟨turn, stopped⟩
      · rw [rests] at ended
        exact absurd ended (alive ending)
      · rw [stopped]
        exact .inl (orderly.enabled turn)
    | nested handling =>
      have same : ((play c acts).act (.move .beginInterrupt)).kernel.preemptDisabled =
          (play c acts).kernel.preemptDisabled := by
        simp only [act, move, handling, beginInterrupt]
        split <;> rfl
      exact .inl (same.trans (orderly.enabled (.inl handling)))
    | starved choosing long => exact .inr (orderly.wedged (sane_play acts alive) choosing ended)
    | faulty dispatching one faulty => rcases faulty with ⟨_, _, _, rfl⟩ | ⟨_, _, _, _, _, rfl⟩ <;> cases he
    | refused | misplaced | collides | late => cases he

/-- What ends a run has a beginning: the start of the configuration, or an act before which the run was not over. -/
theorem ended_induction {P : Machine c → Prop} (boot : ∀ ending, (boot c).control = .ended ending → P (boot c))
    (act : ∀ acts a ending, (∀ ending, (play c acts).control ≠ .ended ending) →
      ((play c acts).act a).control = .ended ending → P ((play c acts).act a))
    {ending : Ending} (ended : (play c acts).control = .ended ending) : P (play c acts) := by
  induction acts using play_induction with
  | boot => exact boot ending ended
  | act acts a ih =>
    by_cases past : ∃ ending, (play c acts).control = .ended ending
    · obtain ⟨ending', past⟩ := past
      rw [act_ended past]
      rw [act_ended past] at ended
      exact ih ended
    · exact act acts a ending (fun ending he => past ⟨ending, he⟩) ended

end Machine

/-! ## Sessions -/

namespace Session
open Kernel

variable {s : Session c} {m : Machine c}

/-- No thread can go on: all of them are stopped, or the host has given up the process. -/
def Closed (s : Session c) : Prop := s.machine.kernel.processor.group.shutdown = true ∨ s.aborted = true

theorem Closed.admits (h : s.Closed) (thread : Nat) : s.admits thread = false := by
  rcases h with stopped | aborted
  · simp [Session.admits, ThreadGroup.admits, stopped]
  · simp [Session.admits, aborted]

theorem Closed.turn (h : s.Closed) (thread : Nat) (a : Act) : s.turn thread a = s := by
  rw [Session.turn, h.admits]
  exact if_neg Bool.false_ne_true

/-- The first to finish tells how the run ended. -/
theorem notice?_finish (m : Machine c) (ending : Ending) :
    ({ machine := m : Session c }.finish ending).notice? = some ending.notice := by
  cases ending <;> rfl

theorem closed_of_notice? {notice : Notice} (h : s.notice? = some notice) : s.Closed := by
  unfold notice? at h
  split at h
  · next aborted => exact .inr aborted
  · split at h
    · next stopped => exact .inl stopped
    · cases h

theorem conclude_of_alive (alive : ∀ ending, s.machine.control ≠ .ended ending) : s.conclude = s := by
  unfold conclude
  split
  · next message ended => exact absurd ended (alive _)
  · next ending _ ended => exact absurd ended (alive _)
  · rfl

theorem conclude_of_enabled {ending : Ending} (ended : s.machine.control = .ended ending)
    (enabled : ∀ message, ending = .panic message → s.machine.kernel.preemptDisabled = false) :
    s.conclude = s.finish ending := by
  unfold conclude
  rw [ended]
  cases ending with
  | panic message => exact if_neg (by rw [enabled message rfl]; exact Bool.false_ne_true)
  | complete | fatal | stepLimit => rfl

theorem conclude_of_disabled {message : String} (ended : s.machine.control = .ended (.panic message))
    (disabled : s.machine.kernel.preemptDisabled = true) : s.conclude = s.unwind message := by
  unfold conclude
  rw [ended]
  exact if_pos disabled

end Session

namespace Machine
open Kernel

variable {m : Machine c} {a : Act} {t : c.TaskId}

theorem notice?_of_enabled {ending : Ending} (ended : m.control = .ended ending)
    (enabled : ∀ message, ending = .panic message → m.kernel.preemptDisabled = false) :
    m.notice? = some ending.notice := by
  rw [Machine.notice?, Session.conclude_of_enabled ended enabled, Session.notice?_finish]

/-! ## The report of a deadlock -/

theorem Wedged.conclude (h : m.Wedged a) (between : m.kernel.Between m.suspensions) :
    ({ machine := m.act a : Session c }).conclude =
      ({ machine := m.act a : Session c }).unwind ("deadlock: no task became runnable after " ++
        toString maxIdleTicks ++ " idle ticks") := by
  refine Session.conclude_of_disabled h.ended ?_
  rw [h.kernel]
  exact between.refresh.disabled

/-- What the report of a deadlock leaves to the release of the critical section. -/
theorem Wedged.leaves (h : m.Wedged a) : (m.act a).kernel.processor.masked = true ∧
    (m.act a).kernel.preemptPending = m.kernel.preemptPending ∧ (m.act a).kernel.running = m.kernel.running := by
  obtain ⟨s, hs, _⟩ := m.kernel.refresh_eq
  rw [h.kernel, hs]
  exact ⟨rfl, rfl, rfl⟩

theorem Wedged.notice?_of_calm (h : m.Wedged a) (between : m.kernel.Between m.suspensions)
    (calm : m.kernel.preemptPending = false) :
    (m.act a).notice? = some starved.notice := by
  have calm := h.leaves.2.1.trans calm
  rw [Machine.notice?, h.conclude between, Session.unwind, release_of_calm calm]
  exact Session.notice?_finish _ starved

theorem Wedged.notice?_of_booting (h : m.Wedged a) (between : m.kernel.Between m.suspensions)
    (due : m.kernel.preemptPending = true) (boots : m.kernel.running = none) :
    (m.act a).notice? = some (.returned (.fatal .badContext)) := by
  obtain ⟨_, pending, running⟩ := h.leaves
  rw [Machine.notice?, h.conclude between, Session.unwind, release_of_booting (pending.trans due) (running.trans boots)]
  exact Session.notice?_finish _ (.fatal .badContext)

/-- The assertion on the interrupt mask fails while the report of the deadlock unwinds the stack. -/
theorem Wedged.notice?_of_running (h : m.Wedged a) (between : m.kernel.Between m.suspensions)
    (due : m.kernel.preemptPending = true) (runs : m.kernel.running = some t) : (m.act a).notice? = some .aborted := by
  obtain ⟨masked, pending, running⟩ := h.leaves
  rw [Machine.notice?, h.conclude between, Session.unwind,
    release_of_masked (pending.trans due) (running.trans runs) masked]
  rfl

theorem Wedged.exists_notice (h : m.Wedged a) (between : m.kernel.Between m.suspensions) :
    ∃ notice, (m.act a).notice? = some notice := by
  cases due : m.kernel.preemptPending with
  | false => exact ⟨_, h.notice?_of_calm between due⟩
  | true =>
    cases runs : m.kernel.running with
    | none => exact ⟨_, h.notice?_of_booting between due runs⟩
    | some t => exact ⟨_, h.notice?_of_running between due runs⟩

/-- If a run is over, the starter is told something. -/
theorem exists_notice_play {acts : List Act} {ending : Ending} (ended : (play c acts).control = .ended ending) :
    ∃ notice, (play c acts).notice? = some notice := by
  refine ended_induction (P := fun m => ∃ notice, m.notice? = some notice) (fun ending ended => ?_)
    (fun acts a ending alive ended => ?_) ended
  · have refused : ending = .fatal .invalidConfig :=
      run_of_ends (P := fun m => m.control = .ended ending → ending = .fatal .invalidConfig) (boot_accepts rfl rfl)
        (fun _ l _ he => by cases he) (fun ending' l refused he => (Control.ended.inj he).symm.trans refused) ended
    refine ⟨_, notice?_of_enabled ended fun message he => ?_⟩
    cases he.symm.trans refused
  · by_cases panics : ∃ message, ending = .panic message
    · obtain ⟨message, rfl⟩ := panics
      rcases panicked_play alive ended with enabled | wedged
      · exact ⟨_, notice?_of_enabled ended fun _ _ => enabled⟩
      · exact wedged.exists_notice ((orderly_play acts).1.choosing wedged.control).1
    · exact ⟨_, notice?_of_enabled ended fun message he => absurd ⟨message, he⟩ panics⟩

end Machine

/-! ## The acts of a session -/

namespace Session

variable {s : Session c} {turns : List (Nat × Act)}

/-- The session after the given turns from the start of the configuration. -/
def play (c : Config) (turns : List (Nat × Act)) : Session c :=
  turns.foldl (fun s turn => s.turn turn.1 turn.2) (boot c)

/-- The acts of the threads that are admitted in the given turns. -/
def grants (s : Session c) : List (Nat × Act) → List Act
  | [] => []
  | (thread, a) :: turns => (if s.admits thread then [a] else []) ++ (s.turn thread a).grants turns

/-- The acts of the threads that were admitted in a session. -/
def granted (c : Config) (turns : List (Nat × Act)) : List Act := (boot c).grants turns

theorem play_append (turns more : List (Nat × Act)) :
    play c (turns ++ more) = more.foldl (fun s turn => s.turn turn.1 turn.2) (play c turns) := List.foldl_append

theorem play_concat (turns : List (Nat × Act)) (thread : Nat) (a : Act) :
    play c (turns ++ [(thread, a)]) = (play c turns).turn thread a := by
  rw [play_append]
  rfl

theorem grants_append (s : Session c) (turns more : List (Nat × Act)) :
    s.grants (turns ++ more) = s.grants turns ++ (turns.foldl (fun s turn => s.turn turn.1 turn.2) s).grants more := by
  induction turns generalizing s with
  | nil => rfl
  | cons turn turns ih =>
    obtain ⟨thread, a⟩ := turn
    rw [List.cons_append, grants, grants, ih, List.append_assoc, List.foldl_cons]

theorem granted_append (turns more : List (Nat × Act)) :
    granted c (turns ++ more) = granted c turns ++ (play c turns).grants more := grants_append (boot c) turns more

theorem granted_concat (turns : List (Nat × Act)) (thread : Nat) (a : Act) :
    granted c (turns ++ [(thread, a)]) = granted c turns ++ if (play c turns).admits thread then [a] else [] := by
  rw [granted_append, grants, grants, List.append_nil]

/-- A session is a run of the machine by the threads that are admitted, up to the end of the run. -/
theorem session_play (turns : List (Nat × Act)) :
    play c turns = { machine := Machine.play c (granted c turns) : Session c }.conclude := by
  induction turns using List.reverseRecOn with
  | nil => rfl
  | append_singleton turns turn ih =>
    obtain ⟨thread, a⟩ := turn
    rw [play_concat, granted_concat]
    by_cases admitted : (play c turns).admits thread = true
    · rw [if_pos admitted, Machine.play_concat]
      by_cases past : ∃ ending, (Machine.play c (granted c turns)).control = .ended ending
      · obtain ⟨ending, past⟩ := past
        obtain ⟨notice, told⟩ := Machine.exists_notice_play past
        rw [ih, (closed_of_notice? told).admits] at admitted
        cases admitted
      · have still := ih.trans (conclude_of_alive fun ending he => past ⟨ending, he⟩)
        rw [turn, if_pos admitted, still]
    · rw [if_neg admitted, List.append_nil, ← ih, turn, if_neg admitted]

theorem Closed.grants (h : s.Closed) (turns : List (Nat × Act)) : s.grants turns = [] := by
  induction turns with
  | nil => rfl
  | cons turn turns ih =>
    obtain ⟨thread, a⟩ := turn
    rw [Session.grants, h.admits, h.turn, ih]
    rfl

/-- Once no thread can go on, nothing happens any more. -/
theorem Closed.play (h : (play c turns).Closed) (more : List (Nat × Act)) :
    Session.play c (turns ++ more) = Session.play c turns := by
  rw [play_append]
  induction more with
  | nil => rfl
  | cons turn more ih => rw [List.foldl_cons, h.turn, ih]

end Session

end Rtos
