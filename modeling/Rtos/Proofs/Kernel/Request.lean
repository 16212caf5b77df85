import Rtos.Proofs.Kernel.Edit

/-!
# Requests

* `Attempted`: what an attempt to have a request granted comes to: the change that grants it, or nothing.
* `Pursued`: what one round of the wait loop comes to. A task that waits in the end has its timeout timer armed if there
  is a deadline (`Armed`).
* `Asked`: what a request comes to that is made with a certain patience.
* `pursueOn_spec`: a task that was suspended in the wait loop disarms its timeout timer (`Disarmed`), is taken off the
  record, and makes the next round.
-/

namespace Rtos
set_option autoImplicit false

variable {c : Config}

/-- The message buffer of a request, as the caller passed it. -/
def Request.buffer : Request c → Buffer
  | .put _ message => message
  | .get _ message => message
  | _ => .own []

namespace Kernel

variable {k l : Kernel c} {t : c.TaskId} {r : Request c}

/-- The section ends the run after some changes, and not for being in the wrong place. -/
def Fails (t : c.TaskId) (k : Kernel c) (ending : Ending) (l : Kernel c) : Prop :=
  (∃ es, Edits t k es l) ∧ ending ≠ .fatal .badContext

theorem Fails.here {error : FatalError} (h : error ≠ .badContext) : Fails t k (.fatal error) k :=
  ⟨⟨[], .nil k⟩, by simpa using h⟩

theorem Fails.of_edits {m : Kernel c} {es : List (Edit c)} {ending : Ending} (h : Edits t k es l)
    (hf : Fails t l ending m) : Fails t k ending m := by
  obtain ⟨⟨fs, edits⟩, hne⟩ := hf
  exact ⟨⟨es ++ fs, h.trans edits⟩, hne⟩

/-- The section ends the run before it changes anything, because the message buffer of the request shares a byte with a
slot of the queue. -/
def Collides (k : Kernel c) (r : Request c) (ending : Ending) (l : Kernel c) : Prop :=
  ending = .fatal .messageBufferOverlap ∧ l = k ∧ ∃ start size, r.buffer.overlaps start size = true

theorem Collides.fails {ending : Ending} (h : k.Collides r ending l) : Fails t k ending l := by
  obtain ⟨rfl, rfl, _⟩ := h
  exact Fails.here nofun

/-! ## Attempts -/

/-- The message buffer of a request that is granted, as the caller finds it. -/
def received (k : Kernel c) : Request c → Buffer
  | .get queue message => (k.copyOut message (k.slotStart queue k.rings[queue].head)).2
  | r => r.buffer

/-- A request of a task is not granted: it has to be refused, or the task already holds the mutex. -/
def Denies (k : Kernel c) (t : c.TaskId) (r : Request c) : Prop :=
  k.Refuses t r ∨ ∃ x, r = .lock x ∧ k.holders[x] = some t

theorem Denies.refuses (h : k.Denies t r) (stranger : ∀ x, r.mutex? = some x → k.holders[x] ≠ some t) :
    k.Refuses t r := by
  refine h.resolve_right ?_
  rintro ⟨x, rfl, hx⟩
  exact stranger x rfl hx

/-- What an attempt to have a request granted comes to: the request is granted, or nothing happens. -/
inductive Attempted (t : c.TaskId) (k : Kernel c) (r : Request c) : Bool × Buffer → Kernel c → Prop
  | granted (allowed : r.edit.Allowed t k) : Attempted t k r (true, k.received r) (r.edit.apply t k)
  | denied (denied : k.Denies t r) : Attempted t k r (false, r.buffer) k

theorem rings_copyOut (k : Kernel c) (message : Buffer) (start : Nat) :
    (k.copyOut message start).1.rings = k.rings := by
  cases message <;> rfl

theorem attempt_spec (hr : k.running = some t) (r : Request c) :
    Ends (attempt r) k (Attempted t k r) (k.Collides r) := by
  cases r with
  | lock x =>
    simp only [attempt, tryLock, ends_bind, ends_current_of_running hr, ends_get]
    cases hx : k.holders[x] with
    | none => exact .granted (r := .lock x) hx
    | some h =>
      refine Attempted.denied (r := .lock x) ?_
      by_cases he : h = t
      · exact .inr ⟨x, rfl, he ▸ hx⟩
      · exact .inl ⟨h, he, hx⟩
  | token s =>
    simp only [attempt, tryWait, ends_bind, ends_get, ends_ite, ends_pure, ends_modify]
    constructor
    · intro hv
      exact .denied (r := .token s) (.inl hv)
    · intro hv
      exact .granted (r := .token s) hv
  | put q message =>
    simp only [attempt, tryPut, ends_bind, ends_get, ends_ite, ends_pure, ends_modify, expectDisjoint, ends_fail]
    refine ⟨fun hfull => .denied (r := .put q message) (.inl hfull),
      fun hroom => ⟨fun hov => ⟨rfl, rfl, _, _, hov⟩, ?_⟩⟩
    intro hov
    have granted : Attempted t k (.put q message) (true, message) ((Edit.store q message).apply t k) :=
      .granted (r := .put q message) ⟨hroom, Bool.eq_false_iff.mpr hov⟩
    constructor
    · intro hz
      simpa only [Edit.apply, if_pos hz] using granted
    · intro hz
      simpa only [Edit.apply, if_neg hz] using granted
  | get q message =>
    simp only [attempt, tryGet, ends_bind, ends_get, ends_ite, ends_pure, ends_modify, expectDisjoint, ends_fail,
      ends_set]
    refine ⟨fun hnone => .denied (r := .get q message) (.inl hnone),
      fun hsome => ⟨fun hov => ⟨rfl, rfl, _, _, hov⟩, ?_⟩⟩
    intro hov
    rw [rings_copyOut]
    have granted : Attempted t k (.get q message)
        (true, (k.copyOut message (k.slotStart q k.rings[q].head)).2) ((Edit.fetch q message).apply t k) :=
      .granted (r := .get q message) ⟨hsome, Bool.eq_false_iff.mpr hov⟩
    constructor
    · intro hfull
      simpa only [Edit.apply, if_pos hfull] using granted
    · intro hfull
      simpa only [Edit.apply, if_neg hfull] using granted

/-! ## Waiting -/

theorem ends_suspend (hr : k.running = some t) (wait : Wait c) {ok : Progress c → Kernel c → Prop}
    {bad : Ending → Kernel c → Prop} : Ends (suspend wait) k ok bad ↔
      ok (.dispatch (.waiting wait)) { k with schedule := k.schedule.setBlocked t } := by
  simp only [suspend, ends_bind, ends_current_of_running hr, ends_modify, ends_pure]

/-- The timeout timer of `t` is set to fire once, and it is forgotten that it has fired before. -/
def armed (k : Kernel c) (t : c.TaskId) (timer : c.TimerId) (ticks : Ticks) : Kernel c :=
  (k.modifyTask t fun s => { s with timedOut := false }).modifyTimer timer
    fun s => { s with reload := 0, expiry := k.now + ticks, enabled := true }

theorem edits_armed (k : Kernel c) {timer : c.TimerId} (own : timer.val = c.userTimers + t) (ticks : Ticks) :
    ∃ es, Edits t k es (k.armed t timer ticks) ∧ ∀ x, .take x ∉ es := by
  refine ⟨[.resetTimeout, .timer timer fun s => { s with reload := 0, expiry := k.now + ticks, enabled := true }], ?_,
    by simp⟩
  exact .cons trivial (.cons (.inr ⟨own, fun _ => ⟨rfl, fun _ => rfl⟩⟩) (.nil _))

theorem ends_armTimeout (ht : c.tasks.size ≤ c.timerCount) (ticks : Ticks) {ok : Unit → Kernel c → Prop}
    {bad : Ending → Kernel c → Prop} : Ends (armTimeout t ticks) k ok bad ↔
      ∀ h : c.userTimers + t < c.timerCount, ok () (k.armed t ⟨c.userTimers + t, h⟩ ticks) := by
  simp only [armTimeout, ends_bind, ends_timeoutId ht, ends_modify]
  exact Iff.rfl

/-- The timeout timer of a task that has one is set whatever the state. -/
theorem armTimeout_eq (k : Kernel c) {t : c.TaskId} {timer : c.TimerId} (own : timer.val = c.userTimers + t)
    (ticks : Ticks) :
    armTimeout t ticks k = .ok () (k.armed t timer ticks) := by
  have found : timeoutId t = pure timer := by
    rw [timeoutId, dif_pos (own ▸ timer.isLt)]
    exact congrArg pure (Fin.ext own.symm)
  rw [armTimeout, found]
  rfl

/-- Before a task waits, its timeout timer is armed if there is a number of ticks to wait for. -/
inductive Armed (t : c.TaskId) (k : Kernel c) : Option Ticks → Kernel c → Prop
  | unlimited : Armed t k none k
  | limited (timer : c.TimerId) (own : timer.val = c.userTimers + t) (ticks : Ticks) :
    Armed t k (some ticks) (k.armed t timer ticks)

theorem Armed.edits {ticks : Option Ticks} (h : Armed t k ticks l) : ∃ es, Edits t k es l ∧ ∀ x, .take x ∉ es := by
  cases h with
  | unlimited => exact ⟨[], .nil k, nofun⟩
  | limited timer own ticks => exact edits_armed k own ticks

theorem armed_noteWaiters (k : Kernel c) (o : WaitObject c) (timer : c.TimerId) (ticks : Ticks) :
    ((k.setWait t (some o)).noteWaiters o).armed t timer ticks =
      ((k.armed t timer ticks).setWait t (some o)).noteWaiters o := by
  cases o <;> simp [armed, setWait, modifyTask, modifyTimer, noteWaiters, waitersChanged]

theorem await_spec (ht : c.tasks.size ≤ c.timerCount) (hr : k.running = some t) (refused : k.Refuses t r)
    (deadline ticks : Option Ticks) : Ends (await r deadline ticks) k
      (fun p l => p = .dispatch (.waiting (.request r deadline)) ∧
        ∃ m, Armed t k ticks m ∧ Stops t m (.waiting (.request r deadline)) l) fun _ _ => False := by
  have hr' : ((k.setWait t (some r.object)).noteWaiters r.object).running = some t := by
    cases r <;> exact hr
  unfold await
  cases ticks with
  | none =>
    simp only [ends_bind, ends_current_of_running hr, ends_modify, ends_suspend hr']
    exact ⟨trivial, k, .unlimited, .awaits r deadline refused⟩
  | some ticks =>
    simp only [ends_bind, ends_current_of_running hr, ends_modify, ends_armTimeout ht]
    intro hi
    rw [ends_suspend (by exact hr')]
    refine ⟨rfl, k.armed t ⟨c.userTimers + t, hi⟩ ticks, .limited _ rfl ticks, ?_⟩
    have refused' : (k.armed t ⟨c.userTimers + t, hi⟩ ticks).Refuses t r := by
      cases r <;> exact refused
    rw [armed_noteWaiters]
    exact .awaits r deadline refused'

/-! ## The wait loop -/

/-- What one round of the wait loop comes to: the request is granted, or the deadline has passed, or the task waits, for
as many ticks as are left. -/
inductive Pursued (t : c.TaskId) (k : Kernel c) (r : Request c) (deadline : Option Ticks) :
    Progress c → Kernel c → Prop
  | granted (allowed : r.edit.Allowed t k) :
    Pursued t k r deadline (.done (reply r deadline.isSome true (k.received r))) (r.edit.apply t k)
  | expires {d : Ticks} (timed : deadline = some d) (past : remaining? k.now d = none) (refused : k.Refuses t r) :
    Pursued t k r deadline (.done (reply r true false r.buffer)) k
  | waits {ticks : Option Ticks} {m l : Kernel c} (left : deadline.map (remaining? k.now) = ticks.map some)
    (armed : Armed t k ticks m) (stop : Stops t m (.waiting (.request r deadline)) l) :
    Pursued t k r deadline (.dispatch (.waiting (.request r deadline))) l

/-- One round of the wait loop. The task must not hold the mutex it asks for. -/
theorem pursue_spec (ht : c.tasks.size ≤ c.timerCount) (hr : k.running = some t)
    (stranger : ∀ x, r.mutex? = some x → k.holders[x] ≠ some t) (deadline : Option Ticks) :
    Ends (pursue r deadline) k (Pursued t k r deadline) (k.Collides r) := by
  refine Ends.bind (attempt_spec hr r) fun result l h => ?_
  cases h with
  | granted allowed => exact .granted allowed
  | denied denied =>
    have refused := denied.refuses stranger
    cases deadline with
    | none =>
      refine (await_spec ht hr refused none none).mono (fun p l hl => ?_) fun _ _ => False.elim
      obtain ⟨rfl, m, armed, stop⟩ := hl
      exact .waits rfl armed stop
    | some d =>
      simp only [Bool.false_eq_true, if_false, ends_bind, ends_get]
      split
      · next past => exact .expires rfl past refused
      · next ticks left =>
        refine (await_spec ht hr refused (some d) (some ticks)).mono (fun p l hl => ?_) fun _ _ => False.elim
        obtain ⟨rfl, m, armed, stop⟩ := hl
        exact .waits (by rw [Option.map_some, left, Option.map_some]) armed stop

theorem Pursued.goes {deadline : Option Ticks} {p : Progress c} (h : Pursued t k r deadline p l) :
    Goes t k r.mutex? p l := by
  cases h with
  | granted allowed => exact Goes.after allowed (fun x hx => r.mutex?_of_take hx) _
  | expires timed past refused => exact Goes.unchanged _
  | waits left armed stop =>
    obtain ⟨es, edits, no⟩ := armed.edits
    exact .stops edits (fun x hx => absurd hx (no x)) stop fun _ hx => hx

/-- What a request comes to that is made with a certain patience. -/
def Asked (t : c.TaskId) (k : Kernel c) (r : Request c) : Patience → Progress c → Kernel c → Prop
  | .never => fun p l =>
    ∃ granted message, p = .done (reply r true granted message) ∧ Attempted t k r (granted, message) l
  | .forever => Pursued t k r none
  | .upTo timeout => Pursued t k r (some (k.now + timeout))

/-- A request, made with any patience. A task that is ready to wait must not hold the mutex it asks for. -/
theorem ask_spec (ht : c.tasks.size ≤ c.timerCount) (hr : k.running = some t) (patience : Patience)
    (stranger : patience ≠ .never → ∀ x, r.mutex? = some x → k.holders[x] ≠ some t) :
    Ends (ask r patience) k (Asked t k r patience) (k.Collides r) := by
  cases patience with
  | never =>
    refine Ends.bind (attempt_spec hr r) fun result l h => ?_
    exact ⟨result.1, result.2, rfl, h⟩
  | forever => exact pursue_spec ht hr (stranger nofun) none
  | upTo timeout => exact pursue_spec ht hr (stranger nofun) _

theorem Asked.goes {patience : Patience} {p : Progress c} (h : Asked t k r patience p l) : Goes t k r.mutex? p l := by
  cases patience with
  | never =>
    obtain ⟨granted, message, rfl, attempted⟩ := h
    cases attempted with
    | granted allowed => exact Goes.after allowed (fun x hx => r.mutex?_of_take hx) _
    | denied denied => exact Goes.unchanged _
  | forever => exact Pursued.goes h
  | upTo timeout => exact Pursued.goes h

/-! ## After a suspension -/

/-- After a wait with a deadline, the timeout timer is disarmed. -/
inductive Disarmed (t : c.TaskId) (k : Kernel c) : Option Ticks → Kernel c → Prop
  | unlimited : Disarmed t k none k
  | limited (timer : c.TimerId) (own : timer.val = c.userTimers + t) (deadline : Ticks) :
    Disarmed t k (some deadline) (k.modifyTimer timer fun s => { s with enabled := false })

theorem Disarmed.holders {deadline : Option Ticks} (h : Disarmed t k deadline l) : l.holders = k.holders := by
  cases h <;> rfl

theorem Disarmed.edits {deadline : Option Ticks} (h : Disarmed t k deadline l) (o : WaitObject c) :
    ∃ es, Edits t k es ((Edit.endWait o).apply t l) ∧ ∀ x, .take x ∉ es := by
  cases h with
  | unlimited => exact ⟨[.endWait o], .one (e := .endWait o) trivial, by simp⟩
  | limited timer own deadline =>
    refine ⟨[.timer timer fun s => { s with enabled := false }, .endWait o], ?_, by simp⟩
    exact .cons (.inr ⟨own, fun _ => ⟨rfl, id⟩⟩) (.one (e := .endWait o) trivial)

theorem apply_endWait (k : Kernel c) (t : c.TaskId) (o : WaitObject c) :
    ((Edit.endWait o).apply t k).tasks[t].wait = none ∧ ((Edit.endWait o).apply t k).holders = k.holders := by
  obtain ⟨s, he, _⟩ := (k.setWait t none).noteWaiters_eq o
  rw [Edit.apply, he]
  exact ⟨k.wait_setWait_self t none, rfl⟩

theorem endWait_spec (ht : c.tasks.size ≤ c.timerCount) (hr : k.running = some t) (r : Request c)
    (deadline : Option Ticks) : Ends (endWait r deadline) k
      (fun _ l => ∃ m, Disarmed t k deadline m ∧ l = (Edit.endWait r.object).apply t m) fun _ _ => False := by
  simp only [endWait, disarmTimeout, ends_bind, ends_current_of_running hr, ends_ite, ends_timeoutId ht, ends_modify]
  cases deadline with
  | none => exact ⟨nofun, fun _ => ⟨k, .unlimited, rfl⟩⟩
  | some d => exact ⟨fun _ hi => ⟨_, .limited ⟨c.userTimers + t, hi⟩ rfl d, rfl⟩, fun hn => absurd rfl hn⟩

/-- A task that was suspended in the wait loop makes the next round. It must not hold the mutex it waits for. -/
theorem pursueOn_spec (ht : c.tasks.size ≤ c.timerCount) (hr : k.running = some t)
    (stranger : ∀ x, r.mutex? = some x → k.holders[x] ≠ some t) (deadline : Option Ticks) :
    Ends (resume (.request r deadline)) k
      (fun p l => ∃ m, Disarmed t k deadline m ∧ Pursued t ((Edit.endWait r.object).apply t m) r deadline p l)
      fun ending l => ∃ m, Disarmed t k deadline m ∧ ((Edit.endWait r.object).apply t m).Collides r ending l := by
  refine (ends_bind _ _).mpr ((endWait_spec ht hr r deadline).mono (fun _ l hl => ?_) fun _ _ => False.elim)
  obtain ⟨m, disarmed, rfl⟩ := hl
  obtain ⟨es, edits, _⟩ := disarmed.edits r.object
  have stranger' : ∀ x, r.mutex? = some x → ((Edit.endWait r.object).apply t m).holders[x] ≠ some t := by
    intro x hx
    rw [(apply_endWait m t r.object).2, disarmed.holders]
    exact stranger x hx
  exact (pursue_spec ht (edits.frame.running.trans hr) stranger' deadline).mono (fun p l hp => ⟨m, disarmed, hp⟩)
    fun ending l hf => ⟨m, disarmed, hf⟩

end Kernel

end Rtos
