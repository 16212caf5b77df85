import Rtos.Proofs.Abreast
import Rtos.Proofs.Course

/-!
# Spurious wake-ups cannot be noticed

Making a task runnable that waits for something other than being made runnable has no effect that an application could
notice. The task may be given the processor once more, but it only tries in vain and waits again.

* `Machine.Trails`: the run with the wake-up and the run without it, while nobody can tell them apart. The index bounds
  how many steps the first one may go on alone.
* `Account.Trailing.advance`: both go on, or the first one does, or one of them starves.
* `Machine.wakeup_unnoticed`: so whatever the application sees in one of the runs, it sees in the other as well.
-/

namespace Rtos
set_option autoImplicit false

variable {c : Config}

namespace Machine
open Kernel

variable {m m' x y : Machine c} {t : c.TaskId} {spurious : Prop} {a : Act} {n : Nat} {detour : Prop}

/-! ## Runs that have begun -/

/-- Once a task has been dispatched, there is always one that runs. -/
theorem Transition.begun (h : Transition m detour a m') (orderly : m.Orderly detour)
    (hn : ∀ ending, m'.control ≠ .ended ending) (aimed : c.Aimed) (hr : m.kernel.running ≠ none) :
    m'.kernel.running ≠ none := by
  cases h with
  | rests => exact hr
  | stops ending scheduled => exact absurd rfl (hn ending)
  | fails scheduled misplaced => exact absurd rfl (hn _)
  | @settles l control between settled narrows result =>
    replace orderly := orderly.dispatching control
    have processor := ((settle_upset orderly aimed).of_result result).1.processor
    rw [← between.thread, processor, orderly.thread]
    exact hr
  | idles control between decision idled =>
    obtain ⟨_, _, _, rfl⟩ := idled
    obtain ⟨s, hs, _⟩ := m.kernel.refresh_eq
    rw [hs]
    exact hr
  | dispatches control between settled decision handed | yieldsTo control executes ready task runnable handed =>
    obtain ⟨p, rfl⟩ := handed.rest
    exact nofun
  | wakes control resumes suspended edits takes executes goes result =>
    rw [kernel_proceed goes, goes.frame.running, edits.frame.running]
    exact hr
  | calls control executes ready unasked call other result goes disabled =>
    rw [kernel_proceed goes, goes.frame.running]
    exact hr
  | strays control executes task halts => exact absurd rfl (hn _)
  | returns | leaves | preempts | yields | interrupts | raises | ticks | services | continues => exact hr

/-- The machine is that of a run whose first task was dispatched. -/
def Reached (m : Machine c) : Prop :=
  ∃ acts, m = play c acts ∧ ((∀ ending, m.control ≠ .ended ending) → m.kernel.running ≠ none)

theorem Reached.act (h : m.Reached) (a : Act) : (m.act a).Reached := by
  obtain ⟨acts, rfl, begun⟩ := h
  refine ⟨acts ++ [a], (play_concat acts a).symm, fun hn => ?_⟩
  obtain ⟨orderly, timers⟩ := orderly_play (c := c) acts
  have before := not_ended_of_act hn
  exact (orderly.transition timers a).begun orderly hn (accepted_of_not_ended before).aimed (begun before)

theorem Reached.live (full : c.timers.size + c.tasks.size ≤ c.timerEntries) (h : m.Reached)
    (hn : ∀ ending, m.control ≠ .ended ending) : m.Live := by
  obtain ⟨acts, rfl, begun⟩ := h
  obtain ⟨t, _⟩ := Option.ne_none_iff_exists'.mp (begun hn)
  exact ⟨hn, (orderly_play acts).1.mono fun _ _ => trivial, sane_play acts hn, (timely_play full acts t hn).wired,
    fun t => resting_play full acts t hn, begun hn⟩

/-! ## Trailing runs -/

/-- Unless its run is over, the task is suspended in a wait that being made runnable does not end. -/
def Waking (t : c.TaskId) (y : Machine c) : Prop :=
  (∀ ending, y.control ≠ .ended ending) → ∃ wait, y.suspensions[t] = .waiting wait ∧ wait ≠ .block

theorem waking_act (hy : y.Live) (waking : Waking t y) (blocked : y.kernel.isRunnable t = false) (a : Act) :
    Waking t (y.act a) := by
  intro hn
  obtain ⟨wait, suspended, other⟩ := waking hy.alive
  have away := hy.orderly.away hy.alive blocked
  have apart := (hy.orderly.transition (fun _ => hy.sane.accepted.timers) a).apart hn away
  exact ⟨wait, apart.suspension.trans suspended, other⟩

theorem waking_withReply (waking : Waking t y) (reply : Option Value) : Waking t (y.withReply reply) := fun hn => by
  rw [suspensions_withReply]
  exact waking (not_ended_withReply hn)

/-- Two runs that the application cannot tell apart. The first one may go on alone for at most the given number of
steps. If what the last operation has returned is withheld, it may differ. -/
inductive Trails (t : c.TaskId) (x y : Machine c) : Nat → Bool → Prop
  | abreast {n : Nat} {withheld : Bool} (abreast : Abreast t (Waking t y) x y)
    (ahead : x.kernel.isRunnable t = y.kernel.isRunnable t ∨ n = 3) : Trails t x y n withheld
  | replied (reply : Option Value) (abreast : Abreast t (Waking t y) x (y.withReply reply))
    (unasked : x.kernel.preemptPending = false)
    (control : (∃ r, x.control = .leaving r) ∨ ∃ r, x.control = .application r) : Trails t x y 3 true
  | astray {withheld : Bool} (astray : Astray t x y) (waking : Waking t y) (second : y.control = .choosing) :
    Trails t x y 2 withheld
  | yielded {withheld : Bool} (astray : Astray t x y) (waking : Waking t y) (second : y.control = .dispatching) :
    Trails t x y 1 withheld
  | behind {withheld : Bool} (first : x.control = .dispatching) (second : y.control = .choosing)
    (suspensions : y.suspensions = x.suspensions) (alike : Alike t False False x.kernel y.kernel) :
    Trails t x y 1 withheld
  | ended {n : Nat} {withheld : Bool} (ending : Ending) (first : x.control = .ended ending)
      (second : y.control = .ended ending) :
    Trails t x y n withheld

theorem Matched.trails (h : Matched t (Waking t y) x y) (withheld : Bool) : ∃ n, Trails t x y n withheld := by
  cases h with
  | goes abreast => exact ⟨3, .abreast abreast (.inr rfl)⟩
  | ends ending first second => exact ⟨3, .ended ending first second⟩

/-- If the task is runnable in the first run only, it is still suspended after the next act of the second one. -/
theorem Abreast.wakes (h : Abreast t (Waking t y) x y) (hy : y.Live) (a : Act) : Abreast t (Waking t (y.act a)) x y :=
  h.sharpen.mono fun ⟨waking, _, blocked⟩ => waking_act hy waking blocked a

theorem Abreast.wakes_withReply {reply : Option Value} (h : Abreast t (Waking t y) x (y.withReply reply)) (hy : y.Live)
    (a : Act) :
    Abreast t (Waking t (y.act a)) x (y.withReply reply) := h.sharpen.mono fun ⟨waking, _, blocked⟩ => by
  rw [kernel_withReply] at blocked
  exact waking_act hy waking blocked a

/-- What comes next of two runs that the application cannot tell apart: both make a step, the first one makes one on its
own, one of them starves, or it is the turn of the application in both. -/
inductive Progresses (t : c.TaskId) (x y : Machine c) (n : Nat) (withheld : Bool) : Prop
  | steps {n' : Nat} (first : x.sight? withheld = none) (second : y.sight? withheld = none)
    (trails : Trails t (x.act .step) (y.act .step) n' withheld)
  | catches {n' : Nat} (first : x.sight? withheld = none) (fewer : n' < n)
      (trails : Trails t (x.act .step) y n' withheld)
  | starves (first : x.sight? withheld = none) (second : y.sight? withheld = none)
    (starved : (x.act .step).control = .ended starved ∨ (y.act .step).control = .ended starved)
  | moves (sight : Sight c) (first : x.sight? withheld = some sight) (second : y.sight? withheld = some sight)
    (trails : ∀ move : Move, ∃ n', Trails t (x.act (.move move)) (y.act (.move move)) n' (move.withholds c withheld))

/-! ## Steps of the kernel -/

theorem Abreast.steps (h : Abreast t (Waking t y) x y) (hx : x.Live) (hy : y.Live)
    (ahead : x.kernel.isRunnable t = y.kernel.isRunnable t ∨ n = 3) {withheld : Bool} (first : x.sight? withheld = none)
    (second : y.sight? withheld = none) : Progresses t x y n withheld := by
  have of_matched (matched : Matched t (Waking t (y.act .step)) (x.act .step) (y.act .step)) : Progresses t x y n
      withheld := by
    obtain ⟨_, trails⟩ := matched.trails withheld
    exact .steps first second trails
  have later := h.wakes hy .step
  cases hc : x.control with
  | dispatching => exact of_matched (later.settles hc)
  | resuming => exact of_matched (later.resumes hx hc)
  | leaving reply => exact of_matched (later.leaves hc)
  | application reply | handling => simp [Machine.sight?, hc] at first
  | ended ending => exact absurd hc (hx.alive ending)
  | choosing =>
    rcases h.sharpen.chooses hx hy hc with matched | starved | starved | ⟨⟨waking, runs, blocked⟩, astray⟩
    · exact of_matched (matched.mono fun ⟨waking, _, blocked⟩ => waking_act hy waking blocked .step)
    · exact .starves first second (.inl starved)
    · exact .starves first second (.inr starved)
    · -- Only the first run gives the processor to the task, which it can do only once.
      have differs : ¬ x.kernel.isRunnable t = y.kernel.isRunnable t := by
        rw [runs, blocked]
        exact nofun
      obtain rfl := ahead.resolve_left differs
      exact .catches first (by decide) (.astray astray waking (h.control.trans hc))

theorem Abreast.repliedStep {reply : Option Value} (h : Abreast t (Waking t y) x (y.withReply reply)) (hy : y.Live)
    (unasked : x.kernel.preemptPending = false) {r : Option Value} (hc : x.control = .leaving r) :
    Trails t (x.act .step) (y.act .step) 3 true := by
  obtain ⟨r', hc'⟩ := leaving_of_withReply (h.control.trans hc)
  have unasked' : y.kernel.preemptPending = false := by
    obtain ⟨_, _, _, he, _⟩ := h.alike.rest
    rw [← kernel_withReply y reply, he]
    exact unasked
  have stepped : x.act .step =
      { x with kernel := { x.kernel with preemptDisabled := false }, control := .application r } := by
    simp [act_leaves hc, leave, unasked, goto]
  have matched := (h.wakes_withReply hy .step).leaves hc
  rw [withReply_leaves hc' unasked'] at matched
  cases matched with
  | goes abreast => exact .replied reply abreast (by rw [stepped]; exact unasked) (.inr ⟨r, by rw [stepped]⟩)
  | ends ending first second =>
    rw [stepped] at first
    cases first

theorem trails_of_level (first : x.control = .dispatching ∨ x.control = .choosing) (second : y.control = x.control)
    (suspensions : y.suspensions = x.suspensions) (alike : Alike t False False x.kernel y.kernel) (withheld : Bool) :
    Trails t x y 0 withheld := by
  have dispatches : x.control.executes ≠ true := by rcases first with hc | hc <;> simp [hc, Control.executes]
  have level := (alike.runnable t).resolve_right fun apart => apart.2.2.2
  exact .abreast ⟨second, suspensions, alike.mono False.elim fun executes => absurd executes dispatches⟩ (.inl level)

/-- Nothing is recorded when the dispatcher is about to choose, so what comes before is quickly made up for. -/
theorem trails_of_behind (first : x.control = .dispatching) (second : y.control = .choosing)
    (suspensions : y.suspensions = x.suspensions) (alike : Alike t False False x.kernel y.kernel) (hx : x.Live)
    (hy : y.Live) (withheld : Bool) : Trails t (x.act .step) y 0 withheld := by
  have between := hx.orderly
  have settled := hy.orderly
  unfold Orderly at between settled
  rw [first] at between
  rw [second] at settled
  have still : settle x.kernel = .ok () x.kernel := settle_settled between (alike.hasPending.symm.trans settled.2)
  have stepped : x.act .step = x.goto .choosing := by simp only [act_settles first, run, still]
  rw [stepped]
  exact trails_of_level (x := x.goto .choosing) (.inr rfl) second suspensions alike withheld

/-! ## Moves of the application -/

theorem Abreast.yieldsTo (h : Abreast t (Waking t y) x y) (hx : x.Live) (hy : y.Live) {reply : Option Value}
    (hc : x.control = .application reply) (task : Nat) (withheld : Bool) :
    ∃ n, Trails t (x.act (.move (.call (.yieldTo task)))) (y.act (.move (.call (.yieldTo task)))) n withheld := by
  by_cases level : task = t.val → x.kernel.isRunnable t = y.kernel.isRunnable t
  · exact ((h.wakes hy _).yieldsTo_level hx hy hc level).trails withheld
  · obtain ⟨rfl, differs⟩ := Classical.not_imp.mp level
    obtain ⟨_, runs, blocked, waking⟩ := (h.alike.runnable t).resolve_left differs
    obtain ⟨astray, second⟩ := h.yieldsTo_apart hx hy hc runs blocked
    exact ⟨1, .yielded astray (waking_act hy waking blocked _) second⟩

theorem Abreast.asks (h : Abreast t (Waking t y) x y) (hx : x.Live) (hy : y.Live) {reply : Option Value}
    (hc : x.control = .application reply) (task : Nat) :
    ∃ n, Trails t (x.act (.move (.call (.effectivePriority task)))) (y.act (.move (.call (.effectivePriority task)))) n
      true := by
  rcases (h.wakes hy _).asksPriority hx hc task with ⟨ending, first, second⟩ | ⟨r, abreast, unasked, leaving⟩
  · exact ⟨3, .ended ending first second⟩
  · exact ⟨3, .replied r abreast unasked (.inl leaving)⟩

/-- Whatever the application does when it is its turn. -/
theorem Abreast.moved (h : Abreast t (Waking t y) x y) (hx : x.Live) (hy : y.Live)
    (turn : x.control = .handling ∨ ∃ reply, x.control = .application reply) (move : Move) (withheld : Bool) :
    ∃ n, Trails t (x.act (.move move)) (y.act (.move move)) n (move.withholds c withheld) := by
  by_cases other : (∃ reply, x.control = .application reply) → (∀ task, move ≠ .call (.yieldTo task)) ∧
    ∀ u, move = .call (.effectivePriority u) → c.policy ≠ .inheritance
  · exact ((h.wakes hy _).moves hx turn (fun app => (other app).1) fun app => (other app).2).trails _
  · obtain ⟨⟨reply, hc⟩, special⟩ := Classical.not_imp.mp other
    by_cases yields : ∃ task, move = .call (.yieldTo task)
    · obtain ⟨task, rfl⟩ := yields
      exact h.yieldsTo hx hy hc task _
    · obtain ⟨u, rfl, policy⟩ : ∃ u, move = .call (.effectivePriority u) ∧ c.policy = .inheritance := by
        by_contra hn
        exact special ⟨fun task he => yields ⟨task, he⟩, fun u he policy => hn ⟨u, he, policy⟩⟩
      have withheld : (Move.call (.effectivePriority u)).withholds c withheld = true := decide_eq_true policy
      rw [withheld]
      exact h.asks hx hy hc u

theorem Abreast.repliedMove {reply : Option Value} (h : Abreast t (Waking t y) x (y.withReply reply)) (hx : x.Live)
    (hy : y.Live) (unasked : x.kernel.preemptPending = false) {r : Option Value} (hc : x.control = .application r)
    (move : Move) :
    ∃ n, Trails t (x.act (.move move)) (y.act (.move move)) n (move.withholds c true) := by
  obtain ⟨r', hc'⟩ := application_of_withReply (h.control.trans hc)
  rcases withReply_moves hc' reply move with same | ⟨_, still, idle⟩
  · rw [← same]
    exact (h.mono fun waking => waking_withReply waking reply).moved hx (hy.withReply reply) (.inr ⟨r, hc⟩) move true
  · have first : x.act (.move move) = x := by rcases idle with rfl | rfl <;> simp only [act, Machine.move, hc]
    have withheld : move.withholds c true = true := by rcases idle with rfl | rfl <;> rfl
    rw [first, still, withheld]
    exact ⟨3, .replied reply h unasked (.inr ⟨r, hc⟩)⟩

/-! ## Progress -/

theorem Abreast.sight? (h : Abreast t spurious x y) (withheld : Bool) : y.sight? withheld = x.sight? withheld := by
  have seen (hc : x.control.executes = true) :
      y.kernel.running = x.kernel.running ∧ y.kernel.pool = x.kernel.pool ∧ y.kernel.now = x.kernel.now := by
    have alike := h.alike_executing hc
    obtain ⟨_, _, _, he, _⟩ := alike.rest
    exact ⟨(alike.inStep trivial).1, by rw [he], by rw [he]⟩
  unfold Machine.sight?
  rw [h.control]
  split
  · next hc =>
    obtain ⟨running, pool, now⟩ := seen (by rw [hc]; rfl)
    rw [running, pool, now]
  · next hc =>
    obtain ⟨running, pool, now⟩ := seen (by rw [hc]; rfl)
    rw [running, pool, now]
  · rfl

theorem turn_of_sight {withheld : Bool} {sight : Sight c} (h : m.sight? withheld = some sight) :
    m.control = .handling ∨ ∃ reply, m.control = .application reply := by
  unfold sight? at h
  split at h
  · next reply hc => exact .inr ⟨reply, hc⟩
  · next hc => exact .inl hc
  · cases h

theorem progresses_of_ended {ending : Ending} {withheld : Bool} (first : x.control = .ended ending)
    (second : y.control = .ended ending) : Progresses t x y n withheld := by
  have ended : Trails t (x.act .step) (y.act .step) n withheld := by
    rw [act_ended first, act_ended second]
    exact .ended ending first second
  exact .steps (by simp only [sight?, first]) (by simp only [sight?, second]) ended

theorem Abreast.progresses (h : Abreast t (Waking t y) x y) (hx : x.Live) (hy : y.Live)
    (ahead : x.kernel.isRunnable t = y.kernel.isRunnable t ∨ n = 3) (withheld : Bool) :
    Progresses t x y n withheld := by
  have same := h.sight? withheld
  cases first : x.sight? withheld with
  | none => exact h.steps hx hy ahead first (same.trans first)
  | some sight => exact .moves sight first (same.trans first) (h.moved hx hy (turn_of_sight first) · withheld)

theorem sight?_withReply (m : Machine c) (reply : Option Value) : (m.withReply reply).sight? true = m.sight? true := by
  unfold withReply
  split
  · next hc => simp only [sight?, goto, hc]
  · next hc => simp only [sight?, goto, hc, if_true]
  · rfl

theorem Abreast.progresses_withReply {reply : Option Value} (h : Abreast t (Waking t y) x (y.withReply reply))
    (hx : x.Live) (hy : y.Live) (unasked : x.kernel.preemptPending = false)
    (control : (∃ r, x.control = .leaving r) ∨ ∃ r, x.control = .application r) : Progresses t x y 3 true := by
  have second : y.sight? true = x.sight? true := (sight?_withReply y reply).symm.trans (h.sight? true)
  rcases control with ⟨r, hc⟩ | ⟨r, hc⟩
  · have first : x.sight? true = none := by simp only [Machine.sight?, hc]
    exact .steps first (second.trans first) (h.repliedStep hy unasked hc)
  · obtain ⟨sight, first⟩ : ∃ sight, x.sight? true = some sight := by
      rw [Machine.sight?, hc]
      exact ⟨_, rfl⟩
    exact .moves sight first (second.trans first) (h.repliedMove hx hy unasked hc)

/-- Both runs go on, or the first one catches up, or one of them starves. -/
theorem Trails.progresses {withheld : Bool} (h : Trails t x y n withheld)
    (full : c.timers.size + c.tasks.size ≤ c.timerEntries) (hx : x.Reached) (hy : y.Reached) :
    Progresses t x y n withheld := by
  cases h with
  | ended ending first second => exact progresses_of_ended first second
  | abreast abreast ahead =>
    by_cases hn : ∃ ending, x.control = .ended ending
    · obtain ⟨ending, first⟩ := hn
      exact progresses_of_ended first (abreast.control.trans first)
    · have alive (ending) (he : x.control = .ended ending) : False := hn ⟨ending, he⟩
      have alive' (ending) (he : y.control = .ended ending) : False := hn ⟨ending, abreast.control.symm.trans he⟩
      exact abreast.progresses (hx.live full alive) (hy.live full alive') ahead withheld
  | replied reply abreast unasked control =>
    have alive : ∀ ending, x.control ≠ .ended ending := by
      rcases control with ⟨r, hc⟩ | ⟨r, hc⟩ <;> exact not_ended_of_control hc nofun
    have alive' : ∀ ending, y.control ≠ .ended ending := not_ended_withReply (abreast.control ▸ alive)
    exact abreast.progresses_withReply (hx.live full alive) (hy.live full alive') unasked control
  | astray astray waking second =>
    have hx := hx.live full (not_ended_of_control astray.control nofun)
    have hy := hy.live full (not_ended_of_control second nofun)
    obtain ⟨first, suspensions, alike⟩ := astray.returns hx hy (waking hy.alive)
    have behind : Trails t (x.act .step) y 1 withheld :=
      .behind first second (astray.suspensions.trans suspensions.symm) alike
    exact .catches (by simp only [sight?, astray.control]) (by decide) behind
  | yielded astray waking second =>
    have hx := hx.live full (not_ended_of_control astray.control nofun)
    have hy := hy.live full (not_ended_of_control second nofun)
    obtain ⟨first, suspensions, alike⟩ := astray.returns hx hy (waking hy.alive)
    have caught : Trails t (x.act .step) y 0 withheld :=
      trails_of_level (.inl first) (second.trans first.symm) (astray.suspensions.trans suspensions.symm) alike withheld
    exact .catches (by simp only [sight?, astray.control]) (by decide) caught
  | behind first second suspensions alike =>
    have hx := hx.live full (not_ended_of_control first nofun)
    have hy := hy.live full (not_ended_of_control second nofun)
    exact .catches (by simp only [sight?, first]) (by decide)
      (trails_of_behind first second suspensions alike hx hy withheld)

end Machine

/-! ## Accounts -/

namespace Account
open Machine

variable {course : Course c} {a b : Account c} {t : c.TaskId} {n : Nat}

/-- Two accounts that show the same, of runs that the application cannot tell apart. -/
structure Trailing (t : c.TaskId) (n : Nat) (a b : Account c) : Prop where
  seen : b.seen = a.seen
  withheld : b.withheld = a.withheld
  first : a.machine.Reached
  second : b.machine.Reached
  trails : Trails t a.machine b.machine n a.withheld

theorem Trailing.ending? (h : Trailing t n a b) : b.ending? = a.ending? := by
  obtain ⟨_, _, _, _, trails⟩ := h
  unfold Account.ending?
  generalize a.withheld = withheld at trails
  cases trails with
  | abreast abreast => rw [abreast.control]
  | replied reply abreast unasked control =>
    rcases control with ⟨r, hc⟩ | ⟨r, hc⟩
    · obtain ⟨r', hc'⟩ := leaving_of_withReply (abreast.control.trans hc)
      rw [hc, hc']
    · obtain ⟨r', hc'⟩ := application_of_withReply (abreast.control.trans hc)
      rw [hc, hc']
  | astray astray waking second | yielded astray waking second => rw [astray.control, second]
  | behind first second => rw [first, second]
  | ended ending first second => rw [first, second]

theorem reached_advance (course : Course c) (h : a.machine.Reached) : (a.advance course).machine.Reached := by
  unfold advance
  split
  · exact h.act .step
  · exact h.act (.move _)

/-- Both runs go on, or the first one catches up, or one of them starves. -/
theorem Trailing.advance (h : Trailing t n a b) (full : c.timers.size + c.tasks.size ≤ c.timerEntries)
    (course : Course c) :
    (∃ n', Trailing t n' (a.advance course) (b.advance course)) ∨ (∃ n' < n, Trailing t n' (a.advance course) b) ∨
      (a.advance course).Starved ∨ (b.advance course).Starved := by
  have reached := reached_advance course h.first
  have reached' := reached_advance course h.second
  cases h.trails.progresses full h.first h.second with
  | @steps n' first second trails =>
    rw [← h.withheld] at second
    rw [advance_of_kernel first] at reached ⊢
    rw [advance_of_kernel second] at reached' ⊢
    exact .inl ⟨n', h.seen, h.withheld, reached, reached', trails⟩
  | @catches n' first fewer trails =>
    rw [advance_of_kernel first] at reached ⊢
    exact .inr (.inl ⟨n', fewer, h.seen, h.withheld, reached, h.second, trails⟩)
  | starves first second starved =>
    rw [← h.withheld] at second
    rw [advance_of_kernel first, advance_of_kernel second]
    exact .inr (.inr starved)
  | moves sight first second trails =>
    rw [← h.withheld] at second
    obtain ⟨n', trails⟩ := trails (course (a.seen ++ [sight]))
    rw [advance_of_sight first] at reached ⊢
    rw [advance_of_sight second, h.seen, h.withheld] at reached' ⊢
    exact .inl ⟨n', rfl, rfl, reached, reached', trails⟩

theorem Starved.advance (h : a.Starved) (course : Course c) : (a.advance course).Starved := by
  have control : a.machine.control = .ended Kernel.starved := h
  have kernel : a.machine.sight? a.withheld = none := by simp only [sight?, control]
  rw [advance_of_kernel kernel, act_ended control]
  exact h

section Course
variable (h : Trailing t n a b) (full : c.timers.size + c.tasks.size ≤ c.timerEntries) (course : Course c)
include h full

/-- However far the first run goes, the second one can follow. -/
theorem Trailing.follows (i : Nat) : (a.follow course i).Starved ∨
    ∃ j, (b.follow course j).Starved ∨ ∃ n', Trailing t n' (a.follow course i) (b.follow course j) := by
  induction i with
  | zero => exact .inr ⟨0, .inr ⟨n, h⟩⟩
  | succ i ih =>
    rw [follow_succ]
    rcases ih with starved | ⟨j, starved | ⟨_, trailing⟩⟩
    · exact .inl (starved.advance course)
    · exact .inr ⟨j, .inl starved⟩
    · rcases trailing.advance full course with both | ⟨n', _, first⟩ | starved | starved
      · exact .inr ⟨j + 1, .inr (by rwa [follow_succ])⟩
      · exact .inr ⟨j, .inr ⟨n', first⟩⟩
      · exact .inl starved
      · exact .inr ⟨j + 1, .inl (by rwa [follow_succ])⟩

/-- When the second run makes a step, the first one can go on until it has made it as well. -/
theorem Trailing.catchesUp : (b.advance course).Starved ∨
    ∃ j, (a.follow course j).Starved ∨ ∃ n', Trailing t n' (a.follow course j) (b.advance course) := by
  -- The number of steps that the first run may still make on its own gets smaller.
  induction n using Nat.strongRecOn generalizing a with
  | ind n ih =>
    rcases h.advance full course with both | ⟨n', fewer, first⟩ | starved | starved
    · exact .inr ⟨1, .inr both⟩
    · refine (ih n' fewer first).imp_right fun ⟨j, later⟩ => ⟨j + 1, ?_⟩
      rwa [← follow_advance]
    · exact .inr ⟨1, .inl starved⟩
    · exact .inl starved

/-- However far the second run goes, the first one can follow. -/
theorem Trailing.precedes (i : Nat) : (b.follow course i).Starved ∨
    ∃ j, (a.follow course j).Starved ∨ ∃ n', Trailing t n' (a.follow course j) (b.follow course i) := by
  induction i with
  | zero => exact .inr ⟨0, .inr ⟨n, h⟩⟩
  | succ i ih =>
    rw [follow_succ]
    rcases ih with starved | ⟨j, starved | ⟨_, trailing⟩⟩
    · exact .inl (starved.advance course)
    · exact .inr ⟨j, .inl starved⟩
    · refine (trailing.catchesUp full course).imp_right fun ⟨j', later⟩ => ⟨j + j', ?_⟩
      rwa [follow_add]

theorem Trailing.tells : Tells course a b ∧ Tells course b a := by
  refine ⟨fun i => (h.follows full course i).imp_right ?_, fun i => (h.precedes full course i).imp_right ?_⟩
  · exact fun ⟨j, later⟩ => ⟨j, later.imp_right fun ⟨_, h⟩ => ⟨h.seen, h.ending?⟩⟩
  · exact fun ⟨j, later⟩ => ⟨j, later.imp_right fun ⟨_, h⟩ => ⟨h.seen.symm, h.ending?.symm⟩⟩

end Course

theorem Tells.of_advance (h : Tells course (a.advance course) b) (seen : b.seen = a.seen)
    (ending : b.ending? = a.ending?) :
    Tells course a b := fun n => by
  cases n with
  | zero => exact .inr ⟨0, .inr ⟨seen, ending⟩⟩
  | succ n =>
    rw [← follow_advance]
    exact h n

theorem Tells.to_advance (h : Tells course b (a.advance course)) : Tells course b a := fun n =>
  (h n).imp_right fun ⟨n', later⟩ => ⟨n' + 1, by rwa [follow_advance] at later⟩

end Account

/-! ## The wake-up -/

namespace Machine
open Kernel

variable {m : Machine c} {t : c.TaskId}

/-- The task has been started, and it does not just wait for being made runnable. -/
def Wakeable (m : Machine c) (t : c.TaskId) : Prop :=
  m.kernel.isRunnable t = true ∨ (m.suspensions[t] ≠ .entry ∧ m.suspensions[t] ≠ .waiting .block)

section Program
variable {reply : Option Value} (hm : m.Live) (hc : m.control = .application reply)
include hm hc

/-- The running task yields. -/
theorem Live.yields {u : c.TaskId} (thread : m.kernel.processor.thread = some u) :
    m.act (.move (.call .yield)) = { m with kernel := m.kernel.entered, control := .dispatching
                                            suspensions := m.suspensions.set u (.returning (some .unit)) } := by
  obtain ⟨_, ready, _, _⟩ := hm.ready hc
  have done : perform .yield m.kernel = .ok (.dispatch (.returning (some .unit))) m.kernel.entered := by
    refine Ends.eq_ok ?_
    rw [perform, ends_bind, ready.ends_enter]
    exact ⟨rfl, rfl⟩
  rw [act_call hc, run, done]
  exact proceed_dispatch (l := m.kernel.entered) thread _

/-- The running task makes a task runnable and asks for the dispatcher. -/
theorem Live.unblocks (t : c.TaskId) :
    m.act (.move (.call (.unblock t))) =
      { m with kernel := requestSwitch (m.kernel.entered.makeRunnable t), control := .leaving (some .unit) } := by
  obtain ⟨_, ready, _, _⟩ := hm.ready hc
  have done : perform (.unblock t) m.kernel = .ok (.done .unit) (requestSwitch (m.kernel.entered.makeRunnable t)) := by
    refine Ends.eq_ok ?_
    rw [perform, unblock, ends_bind, ready.ends_enter]
    simp only [ends_bind, ends_taskId, ends_modify, ends_pure]
    exact ⟨fun _ => ⟨trivial, trivial⟩, fun hn => hn t.isLt⟩
  rw [act_call hc, run, done]
  rfl

theorem Live.unblocks_step (t : c.TaskId) {u : c.TaskId} (thread : m.kernel.processor.thread = some u) :
    (m.act (.move (.call (.unblock t)))).act .step =
      { m with kernel := m.kernel.entered.makeRunnable t, control := .dispatching
               suspensions := m.suspensions.set u (.returning (some .unit)) } := by
  obtain ⟨_, _, _, unasked⟩ := hm.ready hc
  have quiet : ({ m.kernel.entered.makeRunnable t with preemptPending := false } : Kernel c) =
      m.kernel.entered.makeRunnable t := by
    rw [← unasked]
    rfl
  let leaving : Machine c :=
    { m with kernel := requestSwitch (m.kernel.entered.makeRunnable t), control := .leaving (some .unit) }
  rw [hm.unblocks hc, act_leaves_of_pending (m := leaving) rfl rfl thread]
  exact congrArg (fun k => ({ kernel := k, control := .dispatching, suspensions := m.suspensions.set u _ } : Machine c))
    quiet

/-- A task that is not runnable is suspended in a wait, and stays so while the running task yields. -/
theorem Live.waking (wakeable : m.Wakeable t) (blocked : m.kernel.isRunnable t = false) :
    Waking t (m.act (.move (.call .yield))) := fun _ => by
  obtain ⟨u, ready, thread, _⟩ := hm.ready hc
  have active : m.kernel.isRunnable u = true :=
    (hm.orderly.program hc ready.running).1.owned.waits.active_runnable u rfl
  have apart : t ≠ u := by
    rintro rfl
    cases blocked.symm.trans active
  obtain ⟨started, other⟩ := wakeable.resolve_left (by rw [blocked]; exact nofun)
  rw [hm.yields hc thread]
  rcases hm.resting t blocked with entry | ⟨wait, suspended, _⟩
  · exact absurd entry started
  · exact ⟨wait, (Table.getElem_set_of_ne _ _ apart).trans suspended, fun he => other (he ▸ suspended)⟩

/-- One step after making the task runnable, the run has come to where it would be if the running task had yielded. -/
theorem Live.wakes (wakeable : m.Wakeable t) :
    Abreast t (Waking t (m.act (.move (.call .yield)))) ((m.act (.move (.call (.unblock t)))).act .step)
      (m.act (.move (.call .yield))) := by
  obtain ⟨u, _, thread, _⟩ := hm.ready hc
  have fits := (hm.orderly.scheduled hm.alive).fits
  have waking := hm.waking hc wakeable
  rw [hm.yields hc thread] at waking ⊢
  rw [hm.unblocks_step hc t thread]
  have runs : ∀ v, (m.kernel.entered.makeRunnable t).isRunnable v = (decide (v = t) || m.kernel.isRunnable v) :=
    fits.isRunnable_setRunnable t
  refine ⟨rfl, rfl, ⟨m.kernel.schedule, m.kernel.running, m.kernel.processor, rfl, rfl, rfl⟩, nofun,
    fits.setRunnable t, fits,
    fun v => ?_⟩
  by_cases different : v = t ∧ m.kernel.isRunnable v = false
  · obtain ⟨rfl, blocked⟩ := different
    exact .inr ⟨rfl, by simp [runs], blocked, waking blocked⟩
  · refine .inl ((runs v).trans ?_)
    by_cases hv : v = t
    · have runnable : m.kernel.isRunnable v = true := Bool.of_not_eq_false fun blocked => different ⟨hv, blocked⟩
      rw [runnable, Bool.or_true]
      exact runnable.symm
    · rw [decide_eq_false hv, Bool.false_or]
      rfl

end Program

theorem reached_of_application {acts : List Act} {reply : Option Value}
    (hc : (play c acts).control = .application reply) :
    (play c acts).Reached := by
  have orderly := (orderly_play (c := c) acts).1
  obtain ⟨u, _, ready, _⟩ := orderly.application hc
  exact ⟨acts, rfl, fun _ => by rw [ready.running]; exact nofun⟩

/-- Whether the running task makes a task runnable that does not just wait for that, or only yields: whatever the
programs and the interrupts do then, depending on what they see, they see the same, and the runs end in the same way,
unless one of them ends with a deadlock. -/
theorem wakeup_unnoticed (full : c.timers.size + c.tasks.size ≤ c.timerEntries) (acts : List Act) {reply : Option Value}
    (hc : (play c acts).control = .application reply) (wakeable : (play c acts).Wakeable t) (course : Course c) :
    Account.Tells course { machine := (play c acts).act (.move (.call (.unblock t))) }
        { machine := (play c acts).act (.move (.call .yield)) } ∧
      Account.Tells course { machine := (play c acts).act (.move (.call .yield)) }
        { machine := (play c acts).act (.move (.call (.unblock t))) } := by
  have reached := reached_of_application hc
  have live := reached.live full (not_ended_of_control hc nofun)
  obtain ⟨u, _, thread, _⟩ := live.ready hc
  have unblocks : ((play c acts).act (.move (.call (.unblock t)))).control = .leaving (some .unit) := by
    rw [live.unblocks hc]
  have yields : ((play c acts).act (.move (.call .yield))).control = .dispatching := by rw [live.yields hc thread]
  have kernel : ((play c acts).act (.move (.call (.unblock t)))).sight? false = none := by simp only [sight?, unblocks]
  have trailing : Account.Trailing t 3
      (Account.advance course { machine := (play c acts).act (.move (.call (.unblock t))) })
      { machine := (play c acts).act (.move (.call .yield)) } := by
    rw [Account.advance_of_kernel kernel]
    exact ⟨rfl, rfl, (reached.act _).act .step, reached.act (.move (.call .yield)),
      .abreast (live.wakes hc wakeable) (.inr rfl)⟩
  obtain ⟨tells, told⟩ := trailing.tells full course
  exact ⟨tells.of_advance rfl (by simp only [Account.ending?, unblocks, yields]), told.to_advance⟩

/-- The most urgent task waits for signals, and the least urgent one runs. -/
def waitForSignals : List Act :=
  [.step, .step, .step, .step, .move (.call (.waitSignals 4)), .step, .step, .step, .step]

/-- The task that waits. -/
def waiter : (Showcase.full .strict).scenario.config.TaskId := ⟨0, by decide⟩

/-- The programs ask for the time, then send the signals, and then ask for the time again and again. -/
def sendInBetween : Course (Showcase.full .strict).scenario.config
  | [_, _] => .call (.sendSignals 0 4)
  | _ => .call .now

theorem wakeup_unnoticed_waitForSignals :
    (Showcase.full .strict).scenario.config.timers.size + (Showcase.full .strict).scenario.config.tasks.size ≤
        (Showcase.full .strict).scenario.config.timerEntries ∧
      (play (Showcase.full .strict).scenario.config waitForSignals).control = .application none ∧
      (play (Showcase.full .strict).scenario.config waitForSignals).Wakeable waiter ∧
      Account.Tells sendInBetween
        { machine :=
            (play (Showcase.full .strict).scenario.config waitForSignals).act (.move (.call (.unblock waiter))) }
        { machine := (play (Showcase.full .strict).scenario.config waitForSignals).act (.move (.call .yield)) } ∧
      Account.Tells sendInBetween
        { machine := (play (Showcase.full .strict).scenario.config waitForSignals).act (.move (.call .yield)) }
        { machine :=
            (play (Showcase.full .strict).scenario.config waitForSignals).act (.move (.call (.unblock waiter))) } := by
  have full : (Showcase.full .strict).scenario.config.timers.size + (Showcase.full .strict).scenario.config.tasks.size ≤
      (Showcase.full .strict).scenario.config.timerEntries := by decide +kernel
  have here : (play (Showcase.full .strict).scenario.config waitForSignals).control = .application none := by
    decide +kernel
  have suspended : (play (Showcase.full .strict).scenario.config waitForSignals).suspensions[waiter] =
      .waiting (.signals 4) := by
    decide +kernel
  have wakeable : (play (Showcase.full .strict).scenario.config waitForSignals).Wakeable waiter := by
    refine .inr ?_
    rw [suspended]
    exact ⟨nofun, nofun⟩
  exact ⟨full, here, wakeable, wakeup_unnoticed full waitForSignals here wakeable sendInBetween⟩

end Machine

end Rtos
