import Mathlib.Data.List.Infix
import Rtos.Proofs.Calm
import Rtos.Proofs.History

/-!
# The policies agree where no mutex protocol acts

* `View`: what a run shows at one point of it, `Machine.shown`: what it shows from its start on.
* `Conduct`: how the programs of the tasks go on and when interrupts come, depending on all that was shown so far.
* `Machine.Unblocked`: no task is suspended waiting for a mutex.
* `Machine.Parallel`: two runs of the same system under two policies have come to the same place, in states that mirror
  each other. The same act leads them to the same place again, or ends both in the same way (`Parallel.act`).
* `Machine.policies_agree`: so runs under two policies show the same as long as no mutex protocol acts.
-/

namespace Rtos
set_option autoImplicit false

variable {c : Config} {p : Policy}

/-! ## What is shown -/

/-- What a run shows at one point of it. -/
structure View where
  /-- What comes next, and what the last operation has returned. -/
  control : Control
  time : Ticks
  /-- The bytes of the buffer pool, where messages may lie. -/
  pool : Array UInt8
  /-- What the task that holds the processor can read, the effective priorities of all tasks among it. -/
  snapshot : Option Snapshot
  deriving DecidableEq

/-- How the programs of the tasks go on and when interrupts come, depending on all that was shown so far. -/
abbrev Conduct := List (Except Ending View) → Act

namespace Machine
open Kernel

/-- What the machine shows, or how its run has ended. -/
def view (m : Machine c) : Except Ending View :=
  match m.control with
  | .ended ending => .error ending
  | control => .ok
    { control := control, time := m.kernel.now, pool := m.kernel.pool
      snapshot := m.kernel.processor.thread.map m.kernel.snapshot }

/-- All that a run has shown from its start on. -/
def shown (c : Config) (acts : List Act) : List (Except Ending View) := acts.inits.map fun part => (play c part).view

/-- The run that is conducted in the given way. -/
def conducted (c : Config) (conduct : Conduct) : Nat → List Act
  | 0 => []
  | n + 1 => conducted c conduct n ++ [conduct (shown c (conducted c conduct n))]

/-- No task is suspended waiting for a mutex. -/
def Unblocked (m : Machine c) : Prop := ∀ t : c.TaskId, m.suspensions[t].mutex? = none

instance (m : Machine c) : Decidable m.Unblocked :=
  inferInstanceAs (Decidable (∀ t : c.TaskId, m.suspensions[t].mutex? = none))

variable {m : Machine c} {m' : Machine (c.under p)} {detour : Prop}

theorem Orderly.calm (h : m.Orderly detour) (hn : ∀ ending, m.control ≠ .ended ending) (hu : m.Unblocked) :
    m.kernel.Calm := by
  intro t x hw
  have recorded : ∀ suspended : m.active ≠ some t, False := fun suspended => by
    obtain ⟨r, ⟨deadline, hs⟩, ho⟩ := (h.waits hn).recorded t (.mutex x) suspended hw
    have none := hu t
    rw [hs] at none
    cases r <;> cases ho
    cases none
  rcases h.between_or_executes hn with ⟨ha, _⟩ | ⟨u, ha, executes⟩
  · exact recorded (by rw [ha]; exact nofun)
  · by_cases he : u = t
    · subst he
      cases executes.idle.symm.trans hw
    · exact recorded (by rw [ha]; exact fun hut => he (Option.some.inj hut))

/-! ## Runs in parallel -/

/-- The two runs have come to the same place, in states that mirror each other. -/
structure Parallel (m : Machine c) (m' : Machine (c.under p)) : Prop where
  control : m'.control = m.control
  suspensions : m'.suspensions = m.suspensions.map (·.recast p)
  mirrors : m.kernel.Mirrors m'.kernel

/-- The two runs have come to the same place, or have ended in the same way. -/
inductive Coincides (m : Machine c) (m' : Machine (c.under p)) : Prop
  | goes (parallel : Parallel m m')
  | ends (ending : Ending) (first : m.control = .ended ending) (second : m'.control = .ended ending)

theorem coincides_run {α β : Type} {x : Action c α} {y : Action (c.under p) β} {next : α → Machine c → Machine c}
    {next' : β → Machine (c.under p) → Machine (c.under p)} {R : α → Kernel c → β → Kernel (c.under p) → Prop}
    (h : Pairs x m.kernel y m'.kernel R)
    (hn : ∀ a k b l, R a k b l → Coincides (next a { m with kernel := k }) (next' b { m' with kernel := l })) :
    Coincides (m.run x next) (m'.run y next') :=
  run_of_pairs (P := Coincides) h hn fun ending _ _ => .ends ending rfl rfl

namespace Parallel
variable (h : Parallel m m')
include h

theorem goto (control : Control) : Parallel (m.goto control) (m'.goto control) := ⟨rfl, h.suspensions, h.mirrors⟩

theorem withKernel {k : Kernel c} {l : Kernel (c.under p)} (mirrors : Mirrors k l) :
    Parallel { m with kernel := k } { m' with kernel := l } := ⟨h.control, h.suspensions, mirrors⟩

theorem processor : m'.kernel.processor = m.kernel.processor := h.mirrors.processor

theorem remember (s : Suspension c) : Parallel (m.remember s) (m'.remember (s.recast p)) := by
  have thread := congrArg Processor.thread h.processor
  unfold Machine.remember
  rw [thread]
  cases m.kernel.processor.thread with
  | none => exact h
  | some t => exact ⟨h.control, by rw [h.suspensions]; exact (Table.map_set ..).symm, h.mirrors⟩

theorem runs_goto {x : Action c Unit} {y : Action (c.under p) Unit} (hx : Mirrored id x y) (control : Control) :
    Coincides (m.run x fun _ m => m.goto control) (m'.run y fun _ m => m.goto control) :=
  coincides_run (hx h.mirrors) fun _ _ _ _ hl => .goes ((h.withKernel hl.2).goto control)

theorem proceed (a : Progress c) : Coincides (proceed a m) (Machine.proceed (a.recast p) m') := by
  cases a with
  | done value => exact .goes (h.goto _)
  | returned value =>
    have context := congrArg Processor.context h.processor
    simp only [Machine.proceed, Progress.recast, answer, context]
    split
    · exact .goes (h.goto _)
    · exact .goes (h.goto _)
  | dispatch s => exact .goes ((h.remember s).goto _)
  | handOver t s =>
    simp only [Machine.proceed, Progress.recast]
    exact (h.remember s).runs_goto (mirrored_switchTo t) _

theorem proceeds {x : Action c (Progress c)} {y : Action (c.under p) (Progress (c.under p))}
    (hx : Mirrored (Progress.recast p) x y) :
    Coincides (m.run x Machine.proceed) (m'.run y Machine.proceed) := by
  refine coincides_run (hx h.mirrors) fun a k b l hl => ?_
  obtain ⟨rfl, mirrors⟩ := hl
  exact (h.withKernel mirrors).proceed a

/-! ## Steps of the kernel -/

theorem dispatch (choice : Option c.TaskId) :
    Coincides (dispatch choice m) (Machine.dispatch (c := c.under p) choice m') := by
  cases choice with
  | none => exact h.runs_goto mirrored_idle _
  | some t =>
    have running : m'.kernel.running = m.kernel.running := congrArg Kernel.running h.mirrors.same
    simp only [Machine.dispatch]
    rw [running]
    cases m.kernel.running with
    | none => exact h.runs_goto (mirrored_startFirst t) _
    | some u => exact h.runs_goto (mirrored_switchTo t) _

theorem resumeAt (s : Suspension c) : Coincides (m.resumeAt s) (m'.resumeAt (s.recast p)) := by
  cases s with
  | entry | returning reply => exact .goes (h.goto _)
  | waiting wait => exact h.proceeds (mirrored_resume wait)

theorem leave (reply : Option Value) : Coincides (m.leave reply) (m'.leave reply) := by
  have pending : m'.kernel.preemptPending = m.kernel.preemptPending := congrArg Kernel.preemptPending h.mirrors.same
  unfold Machine.leave
  rw [pending]
  split
  · have left := h.mirrors.map (f := fun k => { k with preemptDisabled := true, preemptPending := false })
      (g := fun k => { k with preemptDisabled := true, preemptPending := false }) (fun _ _ => rfl) rfl
    exact .goes (((h.withKernel left).remember (.returning reply)).goto _)
  · have left := h.mirrors.map (f := fun k => { k with preemptDisabled := false })
      (g := fun k => { k with preemptDisabled := false }) (fun _ _ => rfl) rfl
    exact .goes ((h.withKernel left).goto _)

/-- A step of the kernel leads both runs to the same place again. -/
theorem step (concur : Concurs m.kernel m'.kernel) : Coincides m.step m'.step := by
  cases control : m.control with
  | dispatching =>
    simp only [Machine.step, h.control.trans control, control]
    exact h.runs_goto mirrored_settle _
  | choosing =>
    simp only [Machine.step, h.control.trans control, control]
    refine coincides_run (h.mirrors.pairs_choose concur) fun choice k choice' l hl => ?_
    obtain ⟨rfl, mirrors⟩ := hl
    exact (h.withKernel mirrors).dispatch choice'
  | resuming =>
    have thread := congrArg Processor.thread h.processor
    simp only [Machine.step, h.control.trans control, control]
    rw [thread]
    cases m.kernel.processor.thread with
    | none => exact .goes (h.goto _)
    | some t =>
      have suspended : m'.suspensions[t] = m.suspensions[t].recast p := by
        rw [h.suspensions]
        exact Table.getElem_map ..
      dsimp only
      rw [suspended]
      exact h.resumeAt _
  | leaving reply =>
    simp only [Machine.step, h.control.trans control, control]
    exact h.leave reply
  | application reply | handling | ended ending =>
    simp only [Machine.step, h.control.trans control, control]
    exact .goes h

/-! ## Moves of the application -/

theorem call (hc : c.Unguarded) (hp : (c.under p).Unguarded) (concur : Concurs m.kernel m'.kernel) (call : Call) :
    Coincides (m.run (perform call) Machine.proceed) (m'.run (perform call) Machine.proceed) := by
  by_cases asks : ∃ task, call = .effectivePriority task
  · obtain ⟨task, rfl⟩ := asks
    refine coincides_run (h.mirrors.pairs_effectivePriority concur task) fun a k b l hl => ?_
    obtain ⟨rfl, mirrors⟩ := hl
    exact (h.withKernel mirrors).proceed a
  · exact h.proceeds (mirrored_perform hc hp fun task he => asks ⟨task, he⟩)

theorem beginInterrupt : Coincides m.beginInterrupt m'.beginInterrupt := by
  unfold Machine.beginInterrupt
  dsimp only
  rw [h.processor]
  split
  · exact .goes (h.goto _)
  · have interrupted := h.mirrors.map (f := fun k => { k with processor := { k.processor with context := .interrupt } })
      (g := fun k => { k with processor := { k.processor with context := .interrupt } }) (fun _ _ => rfl) rfl
    have same := (h.withKernel interrupted).goto .handling
    rw [h.processor] at same
    exact .goes same

theorem endInterrupt : Coincides m.endInterrupt m'.endInterrupt := by
  have back := h.mirrors.map (f := fun k => { k with processor := { k.processor with context := .task } })
    (g := fun k => { k with processor := { k.processor with context := .task } }) (fun _ _ => rfl) rfl
  unfold Machine.endInterrupt
  refine coincides_run (mirrored_servicePreemption back) fun serviced k _ l hl => ?_
  obtain ⟨rfl, mirrors⟩ := hl
  dsimp only [id]
  split
  · exact .goes ((h.withKernel mirrors).goto _)
  · exact .goes ((h.withKernel mirrors).goto _)

/-- A move of the application leads both runs to the same place again. -/
theorem move (hc : c.Unguarded) (hp : (c.under p).Unguarded) (concur : Concurs m.kernel m'.kernel) (move : Move) :
    Coincides (m.move move) (m'.move move) := by
  unfold Machine.move
  rw [h.control]
  split
  · cases move with
    | call call => exact h.call hc hp concur call
    | beginInterrupt => exact h.beginInterrupt
    | tick | endInterrupt => exact .goes h
    | stop ending => exact .goes (h.goto _)
  · cases move with
    | call call => exact h.call hc hp concur call
    | beginInterrupt => exact h.beginInterrupt
    | tick => exact coincides_run (mirrored_deliverTick h.mirrors) fun _ _ _ _ hl => .goes (h.withKernel hl.2)
    | endInterrupt => exact h.endInterrupt
    | stop ending => exact .goes (h.goto _)
  · exact .goes h

theorem act (hc : c.Unguarded) (hp : (c.under p).Unguarded) (concur : Concurs m.kernel m'.kernel) (a : Act) :
    Coincides (m.act a) (m'.act a) := by
  cases a with
  | step => exact h.step concur
  | move move => exact h.move hc hp concur move

end Parallel

/-- Where the policies concur, the same act leads both runs to the same place again, unless they have ended. -/
theorem Coincides.act (h : Coincides m m') (hc : c.Unguarded) (hp : (c.under p).Unguarded)
    (concur : Parallel m m' → (∀ ending, m.control ≠ .ended ending) → Concurs m.kernel m'.kernel) (a : Act) :
    Coincides (m.act a) (m'.act a) := by
  cases h with
  | ends ending first second =>
    rw [act_ended first, act_ended second]
    exact .ends ending first second
  | goes parallel =>
    by_cases he : ∃ ending, m.control = .ended ending
    · obtain ⟨ending, he⟩ := he
      rw [act_ended he, act_ended (parallel.control.trans he)]
      exact .goes parallel
    · exact parallel.act hc hp (concur parallel fun ending hc => he ⟨ending, hc⟩) a

/-- Where the policies concur, both runs show the same. -/
theorem Coincides.view (h : Coincides m m')
    (concur : Parallel m m' → (∀ ending, m.control ≠ .ended ending) → Concurs m.kernel m'.kernel) :
    m'.view = m.view := by
  cases h with
  | ends ending first second =>
    unfold Machine.view
    rw [first, second]
  | goes parallel =>
    by_cases he : ∃ ending, m.control = .ended ending
    · obtain ⟨ending, he⟩ := he
      unfold Machine.view
      rw [parallel.control, he]
    · have snapshots : m'.kernel.snapshot = m.kernel.snapshot :=
        funext (parallel.mirrors.snapshot (concur parallel fun ending hc => he ⟨ending, hc⟩))
      have time : m'.kernel.now = m.kernel.now := congrArg Kernel.now parallel.mirrors.same
      have pool : m'.kernel.pool = m.kernel.pool := congrArg Kernel.pool parallel.mirrors.same
      unfold Machine.view
      rw [parallel.control, time, pool, parallel.processor, snapshots]

/-! ## Runs -/

theorem coincides_boot (hc : c.Unguarded) (hp : (c.under p).Unguarded) : Coincides (boot c) (boot (c.under p)) := by
  have unprepared : Unprepared (initial c).kernel (initial (c.under p)).kernel := by
    refine ⟨?_, rfl, rfl⟩
    exact congrArg (fun k => { k with processor := { context := .boot } }) (initial_recast (c := c) (p := p))
  have suspensions : (initial (c.under p)).suspensions = (initial c).suspensions.map (·.recast p) :=
    (Table.map_replicate (Suspension.recast p) .entry).symm
  refine coincides_run (mirrors_boot hc hp unprepared) fun _ k _ l mirrors => .goes ?_
  exact ⟨rfl, suspensions, mirrors⟩

/-- While no task is suspended waiting for a mutex, two policies concur wherever their runs have come to. -/
theorem Parallel.concurs {acts : List Act} (parallel : Parallel (play c acts) (play (c.under p) acts))
    (alive : ∀ ending, (play c acts).control ≠ .ended ending) (hc : c.Unguarded) (hp : (c.under p).Unguarded)
    (hu : (play c acts).Unblocked) : Concurs (play c acts).kernel (play (c.under p) acts).kernel := by
  have alive' : ∀ ending, (play (c.under p) acts).control ≠ .ended ending := by
    rw [parallel.control]
    exact alive
  have orderly := (orderly_play (c := c) acts).1
  exact parallel.mirrors.concurs (orderly.scheduled alive) ((orderly_play acts).1.scheduled alive')
    (orderly.calm alive hu) hc hp

/-- As long as no task is suspended waiting for a mutex, the same acts lead the runs under both policies to the same
place. -/
theorem coincides_play (hc : c.Unguarded) (hp : (c.under p).Unguarded) (acts : List Act)
    (hu : ∀ part, part <+: acts → (play c part).Unblocked) : Coincides (play c acts) (play (c.under p) acts) := by
  induction acts using play_induction with
  | boot => exact coincides_boot hc hp
  | act acts a ih =>
    have unblocked := hu acts (List.prefix_append acts [a])
    rw [play_concat]
    exact (ih fun part hpart => hu part (hpart.trans (List.prefix_append acts [a]))).act hc hp
      (fun parallel alive => parallel.concurs alive hc hp unblocked) a

/-! ## What they show -/

theorem view_play (hc : c.Unguarded) (hp : (c.under p).Unguarded) (acts : List Act)
    (hu : ∀ part, part <+: acts → (play c part).Unblocked) : (play (c.under p) acts).view = (play c acts).view :=
  (coincides_play hc hp acts hu).view
  fun parallel alive => parallel.concurs alive hc hp (hu acts (List.prefix_refl acts))

theorem shown_under (hc : c.Unguarded) (hp : (c.under p).Unguarded) (acts : List Act)
    (hu : ∀ part, part <+: acts → (play c part).Unblocked) : shown (c.under p) acts = shown c acts := by
  refine List.map_congr_left fun part hpart => ?_
  have before := (List.mem_inits part acts).mp hpart
  exact view_play hc hp part fun part' h => hu part' (h.trans before)

/-- What comes before the end of a conducted run is a run that was conducted in the same way. -/
theorem prefix_conducted {conduct : Conduct} {n : Nat} {part : List Act} (h : part <+: conducted c conduct n) :
    ∃ i ≤ n, part = conducted c conduct i := by
  induction n with
  | zero => exact ⟨0, Nat.le_refl 0, List.prefix_nil.mp h⟩
  | succ n ih =>
    rcases List.prefix_concat_iff.mp h with he | h
    · exact ⟨n + 1, Nat.le_refl _, he⟩
    · obtain ⟨i, hi, he⟩ := ih h
      exact ⟨i, Nat.le_succ_of_le hi, he⟩

/-- As long as no task is suspended waiting for a mutex, runs that are conducted in the same way are the same run under
both policies, and show the same. -/
theorem conducted_under (hc : c.Unguarded) (hp : (c.under p).Unguarded) (conduct : Conduct) {n : Nat}
    (hu : ∀ i ≤ n, (play c (conducted c conduct i)).Unblocked) :
    conducted (c.under p) conduct n = conducted c conduct n ∧
      shown (c.under p) (conducted (c.under p) conduct n) = shown c (conducted c conduct n) := by
  have shows : ∀ i ≤ n, shown (c.under p) (conducted c conduct i) = shown c (conducted c conduct i) := fun i hi =>
    shown_under hc hp _ fun part hpart => by
      obtain ⟨j, hj, rfl⟩ := prefix_conducted hpart
      exact hu j (Nat.le_trans hj hi)
  have same : ∀ i ≤ n, conducted (c.under p) conduct i = conducted c conduct i := by
    intro i
    induction i with
    | zero => exact fun _ => rfl
    | succ i ih =>
      intro hi
      have before := ih (Nat.le_of_succ_le hi)
      rw [conducted, conducted, before, shows i (Nat.le_of_succ_le hi)]
  rw [same n (Nat.le_refl n)]
  exact ⟨rfl, shows n (Nat.le_refl n)⟩

/-- The policies agree where no mutex protocol acts, whatever the programs of the tasks do and whenever interrupts come.
In a system without mutexes, whose slot pool has exactly the room the tasks need, all policies show the same: what the
operations return, the time, how urgent every task is, and how the run ends. In any system, the strict and the
inheritance policy do as long as no task is suspended waiting for a mutex, under whichever of the two. -/
theorem policies_agree (c : Config) (conduct : Conduct) (n : Nat) :
    (c.mutexes.size = 0 → c.slotEntries = c.tasks.size → ∀ p q : Policy,
      shown (c.under q) (conducted (c.under q) conduct n) = shown (c.under p) (conducted (c.under p) conduct n)) ∧
    ((∀ i ≤ n, (play (c.under .strict) (conducted (c.under .strict) conduct i)).Unblocked) ∨
        (∀ i ≤ n, (play (c.under .inheritance) (conducted (c.under .inheritance) conduct i)).Unblocked) →
      shown (c.under .inheritance) (conducted (c.under .inheritance) conduct n) =
        shown (c.under .strict) (conducted (c.under .strict) conduct n)) := by
  refine ⟨fun none slots p q => ?_, ?_⟩
  · have unguarded : ∀ r, (c.under r).Unguarded := fun r _ => ⟨none, slots⟩
    refine (conducted_under (c := c.under p) (p := q) (unguarded p) (unguarded q) conduct fun i _ t => ?_).2
    refine Option.eq_none_iff_forall_ne_some.mpr fun x => ?_
    have : x.val < c.mutexes.size := x.isLt
    omega
  · rintro (unblocked | unblocked)
    · exact (conducted_under (c := c.under .strict) (p := .inheritance) nofun nofun conduct unblocked).2
    · exact (conducted_under (c := c.under .inheritance) (p := .strict) nofun nofun conduct unblocked).2.symm

/-- The given acts, one after the other. -/
def inTurn (acts : List Act) : Conduct := fun shown => acts.getD (shown.length - 1) .step

/-- The least urgent task holds a mutex that the most urgent one wants but does not wait for. That one asks how urgent
the holder is. -/
def lockOrLeave : Conduct := inTurn [.step, .step, .step, .step, .move (.call .block), .step, .step, .step, .step,
  .move (.call (.lock 0 .forever)), .step, .move (.call (.unblock 0)), .step, .step, .step, .step, .step,
  .move (.call (.lock 0 .never)), .step, .move (.call (.effectivePriority 2)), .step]

/-- The most urgent task yields to the other one, which is interrupted by a tick. -/
def yieldAndTick : Conduct := inTurn [.step, .step, .step, .step, .move (.call (.yieldTo 1)), .step, .step,
  .move .beginInterrupt, .move .tick, .move .endInterrupt]

theorem policies_agree_lockOrLeave :
    (Showcase.tasksOnly.scenario.config.mutexes.size = 0 ∧
      Showcase.tasksOnly.scenario.config.slotEntries = Showcase.tasksOnly.scenario.config.tasks.size ∧
      ∀ p q : Policy, shown (Showcase.tasksOnly.scenario.config.under q)
          (conducted (Showcase.tasksOnly.scenario.config.under q) yieldAndTick 14) =
        shown (Showcase.tasksOnly.scenario.config.under p)
          (conducted (Showcase.tasksOnly.scenario.config.under p) yieldAndTick 14)) ∧
    (∀ i ≤ 21, (play ((Showcase.full .strict).scenario.config.under .strict)
      (conducted ((Showcase.full .strict).scenario.config.under .strict) lockOrLeave i)).Unblocked) ∧
    shown ((Showcase.full .strict).scenario.config.under .inheritance)
        (conducted ((Showcase.full .strict).scenario.config.under .inheritance) lockOrLeave 21) =
      shown ((Showcase.full .strict).scenario.config.under .strict)
        (conducted ((Showcase.full .strict).scenario.config.under .strict) lockOrLeave 21) := by
  refine ⟨⟨rfl, rfl, (policies_agree Showcase.tasksOnly.scenario.config yieldAndTick 14).1 rfl rfl⟩, by decide +kernel,
    ?_⟩
  exact (policies_agree (Showcase.full .strict).scenario.config lockOrLeave 21).2 (.inl (by decide +kernel))

end Machine

end Rtos
