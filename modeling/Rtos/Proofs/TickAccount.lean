import Mathlib.Data.List.Induction
import Rtos.Proofs.Choice
import Rtos.Proofs.Clock
import Rtos.Proofs.Sanity

/-!
# The account of ticks

Ticks are delivered by interrupt handlers, and by the processor while it idles; the dispatcher accounts for them.

* `Machine.deliveredTicks`: the number of ticks delivered in a run, to be compared with `Machine.clock`, the number of
  those accounted for.
* `Machine.burst`: the number of ticks the latest interrupt handler delivered.
* `Machine.ticks_accounted`: the main result.
-/

namespace Rtos
set_option autoImplicit false

variable {c : Config}

namespace Machine
open Kernel

variable {m m' : Machine c} {detour : Prop} {a : Act} {now : Ticks} {n : Nat}

/-! ## Delivered ticks -/

/-- What is kept of a run, if it is brought up to date with every act. -/
def watch {σ : Type} (update : Machine c → σ → Act → σ) (start : σ) (acts : List Act) : σ :=
  (acts.foldl (fun seen a => (seen.1.act a, update seen.1 seen.2 a)) (boot c, start)).2

theorem watch_concat {σ : Type} (update : Machine c → σ → Act → σ) (start : σ) (acts : List Act) (a : Act) :
    watch update start (acts ++ [a]) = update (play c acts) (watch update start acts) a := by
  have machine : ∀ seen : Machine c × σ,
      (acts.foldl (fun seen a => (seen.1.act a, update seen.1 seen.2 a)) seen).1 = acts.foldl act seen.1 := by
    induction acts with
    | nil => exact fun _ => rfl
    | cons b acts ih => exact fun seen => ih _
  rw [watch, List.foldl_append, List.foldl_cons, List.foldl_nil, machine]
  rfl

/-- The number of ticks delivered in an act: by an interrupt handler, or by the processor if there is no task to run. -/
def deliveries (m : Machine c) : Act → Nat
  | .move .tick => if m.control = .handling then 1 else 0
  | .step => if m.control = .choosing ∧ m.step.control = .dispatching then 1 else 0
  | _ => 0

/-- The number of ticks delivered in a run. -/
def deliveredTicks (c : Config) (acts : List Act) : Nat := watch (c := c) (fun m n a => n + m.deliveries a) 0 acts

/-- Count the ticks of an interrupt handler. -/
def countTick (n : Nat) : Act → Nat
  | .move .beginInterrupt => 0
  | .move .tick => n + 1
  | _ => n

/-- The number of ticks that the latest interrupt handler of a run delivered. -/
def burst (c : Config) (acts : List Act) : Nat := watch (c := c) (fun _ => countTick) 0 acts

/-- An idle tick is delivered. -/
def IdlesIn (m : Machine c) (a : Act) : Prop := a = .step ∧ m.control = .choosing ∧ (m.act a).control = .dispatching

/-- The dispatcher finds more than one tick to account for, and accounts for none. -/
def Overflows (m : Machine c) : Prop :=
  m.control = .dispatching ∧ (m.act .step).control = .ended (.fatal .tickOverflow) ∧ (m.act .step).kernel.now =
    m.kernel.now

/-- An interrupt handler that delivered two or more ticks has returned. -/
def Returned (c : Config) (acts rest : List Act) : Prop :=
  ∃ before, acts = before ++ .move .endInterrupt :: rest ∧ (play c before).control = .handling ∧ 2 ≤ burst c before

/-! ## One act -/

theorem pendingTicks_proceed {k l : Kernel c} {t : c.TaskId} {mutex : Option c.MutexId} {p : Progress c}
    (h : Goes t k mutex p l) : (proceed p { m with kernel := l }).kernel.pendingTicks = k.pendingTicks := by
  rw [kernel_proceed h]
  exact h.frame.pendingTicks

theorem Transition.pendingTicks (h : Transition m detour a m') (hn : ∀ ending, m'.control ≠ .ended ending)
    (hd : m.control ≠ .dispatching) (hc : a = .step → m.control ≠ .choosing) (ht : a ≠ .move .tick) :
    m'.kernel.pendingTicks = m.kernel.pendingTicks := by
  cases h with
  | stops ending scheduled => exact absurd rfl (hn ending)
  | fails scheduled misplaced => exact absurd rfl (hn _)
  | strays control executes task halts => exact absurd rfl (hn _)
  | settles control between settled narrows result => exact absurd control hd
  | idles control between decision idled => exact absurd control (hc rfl)
  | dispatches control between settled decision handed => exact absurd control (hc rfl)
  | wakes control resumes suspended edits takes executes goes result =>
    exact (pendingTicks_proceed goes).trans edits.frame.pendingTicks
  | calls control executes ready unasked call other result goes disabled => exact pendingTicks_proceed goes
  | yieldsTo control executes ready task runnable handed =>
    obtain ⟨p, rfl⟩ := handed.rest
    rfl
  | ticks control executes context enabled => exact absurd rfl ht
  | rests | returns | leaves | preempts | yields | interrupts | raises | services | continues => rfl

/-- Where no ticks are accounted for, those that are delivered are recorded. -/
theorem Orderly.records (h : m.Orderly detour) (sane : m.Sane) (hn : ∀ ending, (m.act a).control ≠ .ended ending)
    (hd : m.control ≠ .dispatching) :
    (m.act a).kernel.pendingTicks = m.kernel.pendingTicks + m.deliveries a := by
  by_cases idle : a = .step ∧ m.control = .choosing
  · obtain ⟨rfl, hc⟩ := idle
    cases h.chooses sane hc with
    | starves long control => exact absurd control (hn _)
    | idles decision control kernel =>
      have one : m.deliveries .step = 1 := if_pos ⟨hc, control⟩
      obtain ⟨s, hs, _⟩ := m.kernel.refresh_eq
      rw [one, kernel, hs]
      rfl
    | dispatches t decision control handed =>
      have none : m.deliveries .step = 0 := if_neg fun hi => by cases control.symm.trans hi.2
      obtain ⟨p, hl⟩ := handed.rest
      obtain ⟨s, hs, _⟩ := m.kernel.refresh_eq
      rw [none, hl, hs]
      rfl
  by_cases tick : a = .move .tick
  · subst tick
    by_cases hc : m.control = .handling
    · have one : m.deliveries (.move .tick) = 1 := if_pos hc
      obtain ⟨t, executes, context, _⟩ := h.handling hc
      have inside : m.kernel.processor.context ≠ .outside := by
        rw [context]
        exact nofun
      rw [one]
      simp only [Machine.act, Machine.move, hc] at hn ⊢
      refine run_of_alive (P := fun m' => m'.kernel.pendingTicks = _)
        (deliverTick_spec inside executes.owned.unmasked) hn
        fun _ l hl => ?_
      rw [hl]
      rfl
    · have none : m.deliveries (.move .tick) = 0 := if_neg hc
      have rest : m.act (.move .tick) = m := by
        cases hm : m.control with
        | handling => exact absurd hm hc
        | _ => simp only [Machine.act, Machine.move, hm]
      rw [none, rest]
      rfl
  · have none : m.deliveries a = 0 := by
      cases a with
      | step => exact if_neg fun hi => idle ⟨rfl, hi.1⟩
      | move move =>
        cases move with
        | tick => exact absurd rfl tick
        | _ => rfl
    rw [none]
    exact (h.transition (fun _ => sane.accepted.timers) a).pendingTicks hn hd (fun hs hc => idle ⟨hs, hc⟩) tick

/-- Every tick is recorded until it is accounted for, and the tick counter shows those that are. -/
structure Balanced (m : Machine c) (delivered processed : Nat) : Prop where
  balance : processed + m.kernel.pendingTicks = delivered
  now : m.kernel.now = .ofNat processed

theorem Balanced.act {delivered processed : Nat} (hb : m.Balanced delivered processed) (h : m.Orderly detour)
    (sane : m.Sane) (hn : ∀ ending, (m.act a).control ≠ .ended ending) :
    (m.act a).Balanced (delivered + m.deliveries a) (processed + m.ticks a) := by
  obtain ⟨balance, now⟩ := hb
  by_cases hd : m.control = .dispatching
  · have none : m.deliveries a = 0 := by
      cases a with
      | step => exact if_neg fun hi => by cases hd.symm.trans hi.1
      | move move =>
        cases move with
        | tick => exact if_neg fun hi => by cases hd.symm.trans hi
        | _ => rfl
    rw [none]
    cases a with
    | move move =>
      have rest := act_move_of_kernel (.inl hd) move
      rw [ticks_of_eq (congrArg _ (congrArg _ rest)), rest]
      exact ⟨balance, now⟩
    | step =>
      cases h.settles sane.accepted.aimed hd with
      | overflows many control => exact absurd control (hn _)
      | faults one ending faulty control => exact absurd control (hn _)
      | passes few control later settled _ =>
        have nothing := ((hasPending_eq_false_iff _).mp settled).2
        rcases Nat.le_one_iff_eq_zero_or_eq_one.mp few with zero | one
        · rw [zero] at later balance
          have still : (m.act .step).kernel.now = m.kernel.now := later.trans (UInt32.add_zero _)
          rw [ticks_of_eq still]
          exact ⟨by omega, still.trans now⟩
        · rw [one] at later balance
          have later : (m.act .step).kernel.now = m.kernel.now + 1 := later
          rw [ticks_of_tick later]
          refine ⟨by omega, ?_⟩
          rw [later, now, ofNat_succ]
  · have still : (m.act a).kernel.now = m.kernel.now := (h.transition (fun _ => sane.accepted.timers) a).now hn hd
    have records := h.records sane hn hd
    rw [ticks_of_eq still]
    exact ⟨by omega, still.trans now⟩

/-! ## Interrupt handlers -/

/-- An interrupt handler goes on with its next moves, until it ends. -/
theorem Transition.handling (h : Transition m detour a m') (hn : ∀ ending, m'.control ≠ .ended ending)
    (hc : m.control = .handling) : m'.control = .handling ∨ a = .move .endInterrupt := by
  cases h with
  | rests => exact .inl hc
  | stops ending scheduled => exact absurd rfl (hn ending)
  | fails scheduled misplaced => exact absurd rfl (hn _)
  | raises => exact .inl rfl
  | ticks => exact .inl hc
  | services | continues => exact .inr rfl
  | settles control | idles control | dispatches control | returns control | wakes control | leaves control
  | preempts control
  | calls control | yields control | yieldsTo control | strays control | interrupts control =>
    cases hc.symm.trans control

theorem Transition.begins (h : Transition m detour a m') (hc : m.control ≠ .handling) (hc' : m'.control = .handling) :
    a = .move .beginInterrupt ∧ ∃ reply, m.control = .application reply := by
  cases h with
  | rests => exact absurd hc' hc
  | wakes control resumes suspended edits takes executes goes result =>
    cases goes with
    | done => cases hc'
    | stops edits' takes stop waits => cases hc'
  | calls control executes ready unasked call other result goes disabled =>
    cases goes with
    | done => cases hc'
    | stops edits' takes stop waits => cases hc'
  | interrupts control => exact ⟨rfl, _, control⟩
  | raises control => exact absurd control hc
  | ticks control => exact absurd control hc
  | stops | fails | settles | idles | dispatches | returns | leaves | preempts | yields | yieldsTo | strays | services
  | continues => cases hc'

/-- Interrupts are not nested. -/
theorem Orderly.nested (h : m.Orderly detour) (hc : m.control = .handling) :
    (m.act (.move .beginInterrupt)).control = .ended .assertionFailed := by
  obtain ⟨t, _, context, _⟩ := h.handling hc
  have refused : m.kernel.processor.context ≠ .task ∨ m.kernel.processor.masked = true := by simp [context]
  simp only [Machine.act, Machine.move, hc, beginInterrupt]
  rw [if_pos refused]
  rfl

theorem Returned.concat {acts rest : List Act} (h : Returned c acts rest) (a : Act) :
    Returned c (acts ++ [a]) (rest ++ [a]) := by
  obtain ⟨before, rfl, handling, many⟩ := h
  exact ⟨before, by simp, handling, many⟩

/-- The recorded ticks are those of the interrupt handler at work. Where none is at work there is at most one, unless
the latest handler delivered more. -/
def Owing (acts : List Act) (m : Machine c) : Prop :=
  (m.control = .handling → m.kernel.pendingTicks = burst c acts) ∧
    (m.control ≠ .handling → m.kernel.pendingTicks ≤ 1 ∨ ∃ rest, Returned c acts rest)

theorem Orderly.noTick {reply : Option Value} (h : m.Orderly detour) (hc : m.control = .application reply) :
    m.kernel.pendingTicks = 0 := ((hasPending_eq_false_iff _).mp (h.settled hc)).2

theorem deliveries_le_one (m : Machine c) (a : Act) : m.deliveries a ≤ 1 := by
  unfold deliveries
  repeat' split
  all_goals decide

theorem deliveries_eq_zero (hh : m.control ≠ .handling) (hc : m.control ≠ .choosing) (a : Act) :
    m.deliveries a = 0 := by
  cases a with
  | step => exact if_neg fun hi => hc hi.1
  | move move =>
    cases move with
    | tick => exact if_neg hh
    | _ => rfl

theorem owing_concat {acts : List Act} (ho : Owing acts (play c acts)) (h : (play c acts).Orderly detour)
    (sane : (play c acts).Sane) (hn : ∀ ending, ((play c acts).act a).control ≠ .ended ending) :
    Owing (acts ++ [a]) ((play c acts).act a) := by
  have transition := h.transition (fun _ => sane.accepted.timers) a
  have next : burst c (acts ++ [a]) = countTick (burst c acts) a := watch_concat _ 0 acts a
  have keeps : (∃ rest, Returned c acts rest) → ∃ rest, Returned c (acts ++ [a]) rest :=
    fun ⟨rest, hr⟩ => ⟨_, hr.concat a⟩
  by_cases hh : (play c acts).control = .handling
  · have owed := ho.1 hh
    have records := h.records sane hn (by rw [hh]; exact nofun)
    refine ⟨fun hh' => ?_, fun hh' => ?_⟩
    · -- A handler that goes on has not begun anew, for that would have ended the run.
      rw [next, records, owed]
      cases a with
      | step => exact congrArg (burst c acts + ·) (if_neg fun hi => by cases hh.symm.trans hi.1)
      | move move =>
        cases move with
        | tick => exact congrArg (burst c acts + ·) (if_pos hh)
        | beginInterrupt => cases hh'.symm.trans (h.nested hh)
        | _ => rfl
    · obtain rfl := (transition.handling hn hh).resolve_left hh'
      have same : ((play c acts).act (.move .endInterrupt)).kernel.pendingTicks = burst c acts := records.trans owed
      rw [same]
      by_cases many : 2 ≤ burst c acts
      · exact .inr ⟨[], acts, rfl, hh, many⟩
      · exact .inl (by omega)
  by_cases hd : (play c acts).control = .dispatching
  · cases a with
    | move move =>
      have rest := act_move_of_kernel (.inl hd) move
      rw [rest]
      exact ⟨fun hh' => absurd hh' hh, fun _ => (ho.2 hh).imp_right keeps⟩
    | step =>
      cases h.settles sane.accepted.aimed hd with
      | overflows many control => exact absurd control (hn _)
      | faults one ending faulty control => exact absurd control (hn _)
      | passes few control later settled _ =>
        refine ⟨fun hh' => absurd (control.symm.trans hh') nofun, fun _ => .inl ?_⟩
        rw [((hasPending_eq_false_iff _).mp settled).2]
        exact Nat.zero_le 1
  have records := h.records sane hn hd
  refine ⟨fun hh' => ?_, fun _ => ?_⟩
  · obtain ⟨rfl, reply, hc⟩ := transition.begins hh hh'
    rw [next, records, h.noTick hc]
    rfl
  · by_cases hc : (play c acts).control = .choosing
    · have settled : (play c acts).kernel.hasPending = false := by
        exact (h.choosing hc).2
      have none := ((hasPending_eq_false_iff _).mp settled).2
      have few := deliveries_le_one (play c acts) a
      exact .inl (by omega)
    · rw [records, deliveries_eq_zero hh hc a]
      exact (ho.2 hh).imp_right keeps

/-! ## Too many ticks -/

/-- An interrupt handler returned after two or more ticks, and the kernel has made the given number of steps since. -/
inductive Overrunning (now : Ticks) : Nat → Machine c → Prop
  | leaving {m : Machine c} {reply : Option Value} (control : m.control = .leaving reply)
    (asked : m.kernel.preemptPending = true) (many : 2 ≤ m.kernel.pendingTicks) (same : m.kernel.now = now) :
    Overrunning now 0 m
  | dispatching {m : Machine c} (control : m.control = .dispatching) (many : 2 ≤ m.kernel.pendingTicks)
    (same : m.kernel.now = now) : Overrunning now 1 m
  | upset {m : Machine c} (n : Nat) (control : m.control = .ended (.fatal .tickOverflow)) (same : m.kernel.now = now) :
    Overrunning now (n + 2) m

theorem Overrunning.act (hm : Overrunning now n m) (h : m.Orderly detour) (aimed : c.Aimed) (a : Act) :
    Overrunning now (n + [a].count .step) (m.act a) := by
  cases hm with
  | upset n control same =>
    rw [act_ended control, Nat.add_right_comm]
    exact .upset _ control same
  | @leaving _ reply control asked many same =>
    cases a with
    | move move =>
      rw [act_move_of_kernel (.inr (.inr ⟨reply, control⟩))]
      exact .leaving control asked many same
    | step =>
      have step : (m.act .step).control = .dispatching ∧ (m.act .step).kernel.pendingTicks = m.kernel.pendingTicks ∧
          (m.act .step).kernel.now = m.kernel.now := by
        simp only [Machine.act, Machine.step, control, leave, if_pos asked]
        refine ⟨rfl, ?_⟩
        simp only [goto, kernel_remember, and_self]
      exact .dispatching step.1 (many.trans (Nat.le_of_eq step.2.1.symm)) (step.2.2.trans same)
  | dispatching control many same =>
    cases a with
    | move move =>
      rw [act_move_of_kernel (.inl control)]
      exact .dispatching control many same
    | step =>
      cases h.settles aimed control with
      | overflows many' ended now => exact .upset 0 ended (now.trans same)
      | faults one => omega
      | passes few => omega

theorem overrunning_play {acts : List Act} (hm : Overrunning now n (play c acts)) (aimed : c.Aimed) (rest : List Act) :
    Overrunning now (n + rest.count .step) (play c (acts ++ rest)) := by
  induction rest using List.reverseRecOn with
  | nil =>
    rw [List.append_nil]
    exact hm
  | append_singleton rest a ih =>
    rw [← List.append_assoc, play_concat, List.count_append, ← Nat.add_assoc]
    exact ih.act (orderly_play _).1 aimed a

/-- An interrupt handler that returns after two or more ticks. -/
theorem Orderly.returns (h : m.Orderly detour) (hc : m.control = .handling)
    (many : 2 ≤ m.kernel.pendingTicks) : Overrunning m.kernel.now 0 (m.act (.move .endInterrupt)) := by
  obtain ⟨t, executes, _, enabled⟩ := h.handling hc
  have pending : m.kernel.hasPending ≠ false := fun quiet => by
    rw [((hasPending_eq_false_iff _).mp quiet).2] at many
    cases many
  have asked := executes.owned.pended (eq_true_of_ne_false pending)
  have ready : ({ m.kernel with processor := { m.kernel.processor with context := .task } } : Kernel c).Ready t :=
    ⟨executes.owned.running, rfl, executes.owned.unmasked, enabled⟩
  simp only [Machine.act, Machine.move, hc, endInterrupt]
  refine run_of_ends (P := Overrunning m.kernel.now 0) (servicePreemption_spec ready) (fun _ l hl => ?_)
    fun _ _ => False.elim
  rcases hl with ⟨rfl, rfl⟩ | ⟨rfl, rfl, unasked⟩
  · exact .leaving rfl asked many rfl
  · cases asked.symm.trans unasked

/-! ## Runs -/

theorem deliveredTicks_concat (acts : List Act) (a : Act) :
    deliveredTicks c (acts ++ [a]) = deliveredTicks c acts + (play c acts).deliveries a := watch_concat _ 0 acts a

theorem balanced_play (acts : List Act) (hn : ∀ ending, (play c acts).control ≠ .ended ending) :
    (play c acts).Balanced (deliveredTicks c acts) (clock c acts) ∧ Owing acts (play c acts) := by
  induction acts using play_induction with
  | boot =>
    refine run_of_alive (P := fun m => m.Balanced 0 0 ∧ Owing [] m) (boot_accepts rfl rfl) hn fun _ l hl => ?_
    obtain ⟨_, booting, _⟩ := hl
    have none : l.pendingTicks = 0 := booting.pendingTicks
    exact ⟨⟨(Nat.zero_add _).trans none, booting.now⟩, nofun, fun _ => .inl (none.trans_le (Nat.zero_le 1))⟩
  | act acts a ih =>
    have orderly := (orderly_play (c := c) acts).1
    have before := not_ended_of_act hn
    obtain ⟨balanced, owing⟩ := ih before
    have sane := sane_play acts before
    rw [deliveredTicks_concat, clock_concat]
    exact ⟨balanced.act orderly sane hn, owing_concat owing orderly sane hn⟩

/-- How many steps it takes after an interrupt handler returned that delivered two or more ticks. -/
theorem Returned.overrunning {acts rest : List Act} (h : Returned c acts rest) :
    ∃ now, Overrunning now (rest.count .step) (play c acts) := by
  obtain ⟨before, rfl, handling, many⟩ := h
  have alive : ∀ ending, (play c before).control ≠ .ended ending := by
    rw [handling]
    exact nofun
  obtain ⟨_, owing⟩ := balanced_play before alive
  rw [← owing.1 handling] at many
  have returns := (orderly_play (c := c) before).1.returns handling many
  rw [← play_concat] at returns
  have later := overrunning_play returns (accepted_of_not_ended alive).aimed rest
  rw [Nat.zero_add, List.append_assoc, List.singleton_append] at later
  exact ⟨_, later⟩

theorem overflows_iff (acts : List Act) :
    (play c acts).Overflows ↔ ∃ rest, Returned c acts rest ∧ rest.count .step = 1 := by
  have orderly := (orderly_play (c := c) acts).1
  constructor
  · rintro ⟨control, ended, now⟩
    have alive : ∀ ending, (play c acts).control ≠ .ended ending := by
      rw [control]
      exact nofun
    have owed : (play c acts).kernel.pendingTicks ≤ 1 ∨ ∃ rest, Returned c acts rest :=
      (balanced_play acts alive).2.2 (by rw [control]; exact nofun)
    cases orderly.settles (accepted_of_not_ended alive).aimed control with
    | overflows many =>
      obtain ⟨rest, returned⟩ := owed.resolve_left (by omega)
      obtain ⟨_, overrunning⟩ := returned.overrunning
      refine ⟨rest, returned, ?_⟩
      generalize rest.count .step = n at overrunning
      cases overrunning with
      | leaving control' => cases control.symm.trans control'
      | dispatching => rfl
      | upset n control' => cases control.symm.trans control'
    | faults one ending faulty _ later => exact absurd (later.symm.trans now) (tick_ne _)
    | passes few control' => cases ended.symm.trans control'
  · rintro ⟨rest, returned, one⟩
    obtain ⟨_, overrunning⟩ := returned.overrunning
    rw [one] at overrunning
    cases overrunning with
    | dispatching control many same =>
      have alive : ∀ ending, (play c acts).control ≠ .ended ending := by
        rw [control]
        exact nofun
      cases orderly.settles (accepted_of_not_ended alive).aimed control with
      | overflows _ ended now => exact ⟨control, ended, now⟩
      | faults one => omega
      | passes few => omega

/-! ## The result -/

theorem now_told {k : Kernel c} {t : c.TaskId} (h : k.Ready t) : Ends (perform .now) k
    (fun p _ => p = .done (.number k.now.toNat)) fun _ _ => False := by
  simp only [perform, ends_bind, h.ends_enter, ends_get, ends_pure]
  rfl

/-- What is known of the ticks after the given number of them was delivered and accounted for. -/
structure Accounts (m : Machine c) (delivered processed : Nat) : Prop where
  /-- Every tick is recorded until it is accounted for. -/
  balance : processed + m.kernel.pendingTicks = delivered
  /-- The tick counter shows the ticks that are accounted for. -/
  now : m.kernel.now = .ofNat processed
  /-- The dispatcher accounts for all ticks that are recorded. -/
  settles : m.control = .dispatching → (∀ ending, (m.act .step).control ≠ .ended ending) →
    m.ticks .step = m.kernel.pendingTicks ∧ (m.act .step).kernel.pendingTicks = 0
  /-- Nothing else accounts for any. -/
  others : ∀ a, m.control ≠ .dispatching → (∀ ending, (m.act a).control ≠ .ended ending) → m.ticks a = 0
  /-- Before a program goes on, all ticks are accounted for. -/
  settled : ∀ reply, m.control = .application reply → m.kernel.pendingTicks = 0
  /-- A program that asks for the time is told the number of ticks delivered so far. -/
  told : ∀ reply, m.control = .application reply →
    (m.act (.move (.call .now))).control = .leaving (some (.number (delivered % 2 ^ 32)))
  /-- Idle ticks are delivered only if no task is runnable and nothing is recorded. -/
  idle : ∀ a, m.IdlesIn a → m.kernel.hasPending = false ∧ ∀ t, m.kernel.isRunnable t = false

theorem accounts_play (acts : List Act) (hn : ∀ ending, (play c acts).control ≠ .ended ending) :
    (play c acts).Accounts (deliveredTicks c acts) (clock c acts) := by
  obtain ⟨orderly, timers⟩ := orderly_play (c := c) acts
  obtain ⟨⟨balance, now⟩, _⟩ := balanced_play acts hn
  have sane := sane_play acts hn
  refine ⟨balance, now, fun hd alive => ?_, fun a hd alive => ?_, fun reply hc => orderly.noTick hc, fun reply hc => ?_,
    fun a hi => ?_⟩
  · have after := (balanced_play acts hn).1.act orderly sane alive
    cases orderly.settles sane.accepted.aimed hd with
    | overflows many control => exact absurd control (alive _)
    | faults one ending faulty control => exact absurd control (alive _)
    | passes few control later settled _ =>
      have nothing := ((hasPending_eq_false_iff _).mp settled).2
      have total := after.balance
      rw [deliveries_eq_zero (by rw [hd]; exact nofun) (by rw [hd]; exact nofun), nothing] at total
      exact ⟨by omega, nothing⟩
  · exact ticks_of_eq ((orderly.transition timers a).now alive hd)
  · have total := orderly.noTick hc
    have told : (play c acts).kernel.now.toNat = deliveredTicks c acts % 2 ^ 32 := by
      rw [now, UInt32.toNat_ofNat', ← balance, total, Nat.add_zero]
    rw [act_call hc, ← told]
    obtain ⟨t, _, ready, _⟩ := orderly.application hc
    refine run_of_ends (P := fun m' => m'.control = _) (now_told ready) (fun p l hp => ?_) fun _ _ => False.elim
    rw [hp]
    rfl
  · obtain ⟨rfl, hc, idles⟩ := hi
    have alive : ∀ ending, ((play c acts).act .step).control ≠ .ended ending := by
      rw [idles]
      exact nofun
    have scheduled := orderly.scheduled hn
    cases orderly.chooses sane hc with
    | starves long control => exact absurd control (alive _)
    | idles decision =>
      refine ⟨?_, scheduled.nobody_runnable decision⟩
      exact (orderly.choosing hc).2
    | dispatches t decision control => cases idles.symm.trans control

/-- Whatever the tasks do and whenever the interrupts come: until the run is over no tick is lost, none is accounted for
twice, and none is still to be accounted for when a program goes on. The dispatcher gives up just if an interrupt
handler delivered two or more ticks and returned; it does so in the second step from there. -/
theorem ticks_accounted (c : Config) (acts : List Act) :
    ((∀ ending, (play c acts).control ≠ .ended ending) →
      (play c acts).Accounts (deliveredTicks c acts) (clock c acts)) ∧
      ((play c acts).Overflows ↔ ∃ rest, Returned c acts rest ∧ rest.count .step = 1) ∧
      ∀ rest, Returned c acts rest → 2 ≤ rest.count .step → (play c acts).control = .ended (.fatal .tickOverflow) := by
  refine ⟨accounts_play acts, overflows_iff acts, fun rest returned many => ?_⟩
  obtain ⟨_, overrunning⟩ := returned.overrunning
  generalize rest.count .step = n at overrunning many
  cases overrunning with
  | leaving | dispatching => omega
  | upset n control => exact control

/-- An interrupt handler delivers one tick, and the dispatcher accounts for it. -/
def oneTick : List Act :=
  [.step, .step, .step, .step, .move .beginInterrupt, .move .tick, .move .endInterrupt, .step, .step, .step, .step,
    .step]

/-- An interrupt handler delivers two ticks and returns. -/
def twoTicks : List Act :=
  [.step, .step, .step, .step, .move .beginInterrupt, .move .tick, .move .tick, .move .endInterrupt]

theorem ticks_accounted_oneTick :
    clock (Showcase.full .strict).scenario.config oneTick = 1 ∧
      (play (Showcase.full .strict).scenario.config (oneTick ++ [.move (.call .now)])).control =
        .leaving (some (.number 1)) ∧
      (play (Showcase.full .strict).scenario.config (twoTicks ++ [.step])).Overflows ∧
      (play (Showcase.full .strict).scenario.config (twoTicks ++ [.step, .step])).control =
        .ended (.fatal .tickOverflow) := by
  have ticks : deliveredTicks (Showcase.full .strict).scenario.config oneTick = 1 := by decide +kernel
  have here : (play (Showcase.full .strict).scenario.config oneTick).control = .application (some .unit) := by
    decide +kernel
  have accounts := (ticks_accounted (Showcase.full .strict).scenario.config oneTick).1 fun ending he => by
    cases here.symm.trans he
  have returned : ∀ rest : List Act, Returned (Showcase.full .strict).scenario.config (twoTicks ++ rest) rest :=
    fun rest =>
    ⟨[.step, .step, .step, .step, .move .beginInterrupt, .move .tick, .move .tick],
      rfl, by decide +kernel, by decide +kernel⟩
  have balance := accounts.balance
  rw [accounts.settled _ here, ticks] at balance
  refine ⟨balance, ?_, ?_, ?_⟩
  · have told := accounts.told _ here
    rw [ticks] at told
    rw [play_concat]
    exact told
  · exact (ticks_accounted _ (twoTicks ++ [.step])).2.1.mpr ⟨[.step], returned [.step], rfl⟩
  · exact (ticks_accounted _ (twoTicks ++ [.step, .step])).2.2 [.step, .step] (returned [.step, .step]) (by decide)

end Machine

end Rtos
