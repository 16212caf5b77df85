import Rtos.Proofs.Kernel.TimedWait

/-!
# Waits that are not over

* `Kernel.Unmet`: what would end the wait of a task has not come about.
* `unmet_resume`: a task that goes on in such a wait tries in vain and waits again. Its timeout timer is set to fire at
  the same tick as before, and nothing tells that it has tried.
* `perform_parks`, `resume_parks`: a wait that begins or goes on is not over.
* `Kernel.Hushed`: whoever sends signals to a task makes it runnable, and nobody makes another task stop being runnable.
* `Unmet.passed`: so a wait that is not over goes on, whatever others do, until the task is runnable.
-/

namespace Rtos
set_option autoImplicit false

variable {c : Config}

namespace Kernel

variable {k l m : Kernel c} {t u : c.TaskId} {r : Request c} {wait : Wait c} {p : Progress c}

/-- What would end the wait of the task has not come about. That its request is refused is left to the records of
waits. -/
def Unmet (k : Kernel c) (t : c.TaskId) : Wait c → Prop
  | .block => True
  | .sleep => k.tasks[t].timedOut = false
  | .signals set => k.pendingSignals t set = 0
  | .request _ none => True
  | .request _ (some d) => k.On t d ∧ ∃ left, remaining? k.now d = some left

theorem Unmet.congr (h : k.Unmet t wait) (hn : l.now = k.now) (ht : l.timers = k.timers) (hs : l.tasks = k.tasks) :
    l.Unmet t wait := by
  have same : Spares t k l := .of_eq hn ht hs
  cases wait with
  | block => exact trivial
  | sleep => exact same.timedOut.trans h
  | signals set =>
    exact (congrArg (fun tasks : Table (TaskState c) c.tasks.size => tasks[t].signals &&& set) hs).trans h
  | request r deadline =>
    cases deadline with
    | none => exact trivial
    | some d => exact ⟨same.on h.1, hn ▸ h.2⟩

/-! ## Trying in vain -/

/-- The task is not runnable any more, and nothing else has happened. -/
def Relapses (t : c.TaskId) (k l : Kernel c) : Prop :=
  ∃ s : Schedule c, l = { k with schedule := s } ∧ s.Fits ∧ ∀ u, s.isRunnable u = (decide (u ≠ t) && k.isRunnable u)

theorem relapses_setBlocked (fits : k.schedule.Fits) (t : c.TaskId) :
    Relapses t k { k with schedule := k.schedule.setBlocked t } :=
  ⟨_, rfl, fits.setBlocked t, fits.isRunnable_setBlocked t⟩

theorem attempt_refused (hr : k.running = some t) (refused : k.Refuses t r) :
    Ends (attempt r) k (fun result l => result = (false, r.buffer) ∧ l = k) fun _ _ => False := by
  cases r with
  | lock x =>
    obtain ⟨u, _, hu⟩ := refused
    simp only [attempt, tryLock, ends_bind, ends_current_of_running hr, ends_get, hu]
    exact ⟨rfl, rfl⟩
  | token s =>
    simp only [attempt, tryWait, ends_bind, ends_get, ends_ite, ends_pure]
    exact ⟨fun _ => ⟨rfl, trivial⟩, fun hn => absurd refused hn⟩
  | put q message =>
    simp only [attempt, tryPut, ends_bind, ends_get, ends_ite, ends_pure]
    exact ⟨fun _ => ⟨rfl, trivial⟩, fun hn => absurd refused hn⟩
  | get q message =>
    simp only [attempt, tryGet, ends_bind, ends_get, ends_ite, ends_pure]
    exact ⟨fun _ => ⟨rfl, trivial⟩, fun hn => absurd refused hn⟩

theorem pursue_refused (ht : c.tasks.size ≤ c.timerCount) (hr : k.running = some t) (refused : k.Refuses t r)
    (deadline ticks : Option Ticks) (left : deadline.map (remaining? k.now) = ticks.map some) :
    Ends (pursue r deadline) k (fun p l => p = .dispatch (.waiting (.request r deadline)) ∧
      ∃ m, Armed t k ticks m ∧ Stops t m (.waiting (.request r deadline)) l) fun _ _ => False := by
  refine Ends.bind (attempt_refused hr refused) fun result l hl => ?_
  obtain ⟨rfl, rfl⟩ := hl
  cases deadline with
  | none =>
    cases ticks with
    | none => exact await_spec ht hr refused none none
    | some ticks => cases left
  | some d =>
    cases ticks with
    | none => cases left
    | some ticks =>
      have left : remaining? l.now d = some ticks := Option.some.inj left
      simp only [Bool.false_eq_true, if_false, ends_bind, ends_get, left]
      exact await_spec ht hr refused (some d) (some ticks)

/-- A record that is erased and made again is the same record. -/
theorem setWait_setWait (o : WaitObject c) (recorded : k.tasks[t].wait = some o) :
    ∃ s : Schedule c, (((k.setWait t none).noteWaiters o).setWait t (some o)).noteWaiters o = { k with schedule := s } ∧
      (k.schedule.Fits → s.Fits) ∧ ∀ u, s.isRunnable u = k.isRunnable u := by
  have same : k.tasks.set t { k.tasks[t] with wait := some o } = k.tasks := by
    rw [← recorded]
    exact k.tasks.set_getElem t
  cases o with
  | mutex x =>
    refine ⟨k.schedule.waitersChanged.waitersChanged, ?_, fun fits => fits.waitersChanged.waitersChanged, fun u => ?_⟩
    · simp only [noteWaiters, waitersChanged, setWait, modifyTask, Table.getElem_set_self, Table.set_set, same]
    · rw [Schedule.isRunnable_waitersChanged, Schedule.isRunnable_waitersChanged, isRunnable]
  | semaphore s | queue q =>
    refine ⟨k.schedule, ?_, id, fun _ => rfl⟩
    simp only [noteWaiters, setWait, modifyTask, Table.getElem_set_self, Table.set_set, same]

/-- The timeout timer is set for the rest of the time, and so fires when it would have fired anyway. -/
theorem armed_disarmed (wired : k.Wired) {timer : c.TimerId} (own : timer.val = c.userTimers + t) {d ticks : Ticks}
    (on : k.On t d) (left : k.now + ticks = d) (o : WaitObject c) :
    (((k.modifyTimer timer fun s => { s with enabled := false }).setWait t none).noteWaiters o).armed t timer ticks =
      (k.setWait t none).noteWaiters o := by
  obtain ⟨enabled, expiry⟩ := on.timer timer own
  have early := on.early
  have once := (wired.timeout timer t own).2
  have timers : k.timers.set timer { k.timers[timer] with reload := 0, expiry := k.now + ticks, enabled := true } =
      k.timers := by
    rw [left, ← expiry, ← enabled, ← once]
    exact k.timers.set_getElem timer
  have tasks : k.tasks.set t { k.tasks[t] with wait := none, timedOut := false } =
      k.tasks.set t { k.tasks[t] with wait := none } := by
    rw [← early]
  cases o <;> simp only [noteWaiters, waitersChanged, setWait, modifyTask, modifyTimer, armed, Table.getElem_set_self,
    Table.set_set,
    timers, tasks]

theorem and_not_of_and_eq_zero {signals set : SignalSet} (h : signals &&& set = 0) : signals &&& ~~~set = signals := by
  refine UInt32.toBitVec_inj.mp (BitVec.eq_of_getLsbD_eq fun i hi => ?_)
  have absent : (signals &&& set).toBitVec.getLsbD i = false := by simp [h]
  simp only [UInt32.toBitVec_and, BitVec.getLsbD_and] at absent
  simp only [UInt32.toBitVec_and, UInt32.toBitVec_not, BitVec.getLsbD_and, BitVec.getLsbD_not, hi]
  cases hs : signals.toBitVec.getLsbD i
  · rfl
  · simpa [hs] using absent

theorem clearSignals_of_none {set : SignalSet} (none : k.pendingSignals t set = 0) : k.clearSignals t set = k := by
  have same : k.tasks.set t { k.tasks[t] with signals := k.tasks[t].signals &&& ~~~set } = k.tasks := by
    rw [and_not_of_and_eq_zero none]
    exact k.tasks.set_getElem t
  rw [clearSignals, modifyTask, same]

theorem unmet_pursue (ht : c.tasks.size ≤ c.timerCount) (wired : k.Wired) (hr : k.running = some t)
    (fits : k.schedule.Fits) {deadline : Option Ticks} (unmet : k.Unmet t (.request r deadline))
    (recorded : k.tasks[t].wait = some r.object) (refused : k.Refuses t r) : Ends (resume (.request r deadline)) k
      (fun p l => p = .dispatch (.waiting (.request r deadline)) ∧ Relapses t k l) fun _ _ => False := by
  refine (ends_bind _ _).mpr ((endWait_spec ht hr r deadline).mono (fun _ l hl => ?_) fun _ _ => False.elim)
  obtain ⟨m, disarmed, rfl⟩ := hl
  have running : ((m.setWait t none).noteWaiters r.object).running = some t := by
    cases disarmed <;> cases r <;> exact hr
  have still : ((m.setWait t none).noteWaiters r.object).Refuses t r := by
    cases disarmed <;> cases r <;> exact refused
  obtain ⟨s, rejoined, fits', runs⟩ := setWait_setWait r.object recorded
  -- Up to the timeout timer, that is all a round comes to.
  have stops : ∀ {l}, Stops t ((k.setWait t none).noteWaiters r.object) (.waiting (.request r deadline)) l →
      Relapses t k l := by
    intro l stop
    cases stop with
    | suspends wait other => exact absurd rfl (other r deadline)
    | awaits _ _ _ =>
      rw [rejoined]
      refine ⟨_, rfl, (fits' fits).setBlocked t, fun u => ?_⟩
      rw [(fits' fits).isRunnable_setBlocked, runs]
  cases disarmed with
  | unlimited =>
    refine (pursue_refused ht running still none none rfl).mono (fun p l hl => ?_) fun _ _ => id
    obtain ⟨rfl, _, armed, stop⟩ := hl
    cases armed
    exact ⟨rfl, stops stop⟩
  | limited timer own d =>
    obtain ⟨on, left, ahead⟩ := unmet
    have now : (((k.modifyTimer timer fun s => { s with enabled := false }).setWait t none).noteWaiters r.object).now =
        k.now :=
      (Timeless.noteWaiters _ _).now
    refine (pursue_refused ht running still (some d) (some left) ?_).mono (fun p l hl => ?_) fun _ _ => id
    · rw [Option.map_some, now, ahead, Option.map_some]
    obtain ⟨rfl, _, armed, stop⟩ := hl
    cases armed with
    | limited timer' own' ticks =>
      obtain rfl : timer' = timer := Fin.ext (own'.trans own.symm)
      rw [armed_disarmed wired own on (add_of_remaining? ahead)] at stop
      exact ⟨rfl, stops stop⟩

/-- A task that goes on in a wait that is not over waits again, and nothing tells that it was given the processor. -/
theorem unmet_resume (ht : c.tasks.size ≤ c.timerCount) (wired : k.Wired) (hr : k.running = some t)
    (fits : k.schedule.Fits) (waits : wait ≠ .block) (unmet : k.Unmet t wait)
    (refused : ∀ r d, wait = .request r d → k.tasks[t].wait = some r.object ∧ k.Refuses t r) : Ends (resume wait) k
      (fun p l => p = .dispatch (.waiting wait) ∧ Relapses t k l) fun _ _ => False := by
  cases wait with
  | block => exact absurd rfl waits
  | sleep =>
    refine (sleepOn_early hr unmet).mono (fun p l hl => ?_) fun _ _ => id
    obtain ⟨rfl, rfl⟩ := hl
    exact ⟨rfl, relapses_setBlocked fits t⟩
  | signals set =>
    have unmet : k.pendingSignals t set = 0 := unmet
    simp only [resume, takeOrWait, ends_bind, ends_takeSignals hr, ends_ite, ends_pure, clearSignals_of_none unmet,
      ends_suspend hr]
    exact ⟨fun _ => ⟨trivial, relapses_setBlocked fits t⟩, fun hn => absurd unmet hn⟩
  | request r deadline =>
    obtain ⟨recorded, refused⟩ := refused r deadline rfl
    exact unmet_pursue ht wired hr fits unmet recorded refused

/-! ## Where a task stops -/

/-- If the operation, as far as it got, waits, then the wait is not over. -/
def Parks (t : c.TaskId) (p : Progress c) (l : Kernel c) : Prop := ∀ wait, p = .dispatch (.waiting wait) →
    l.Unmet t wait

/-- Whatever state it starts from, the section makes no task wait but for being made runnable. -/
def Carefree (x : Action c (Progress c)) : Prop :=
  ∀ k, Ends x k (fun p _ => ∀ wait, p = .dispatch (.waiting wait) → wait = .block) fun _ _ => True

theorem Carefree.parks {x : Action c (Progress c)} (h : Carefree x) (k : Kernel c) :
    Ends x k (Parks t) fun _ _ => True := by
  refine (h k).mono (fun p l hp wait he => ?_) fun _ _ => id
  obtain rfl := hp wait he
  exact trivial

theorem carefree_pure {p : Progress c} (h : ∀ wait, p = .dispatch (.waiting wait) → wait = .block) :
    Carefree (pure p : Action c (Progress c)) := fun _ => h

theorem carefree_after {α : Type} {x : Action c α} {f : α → Action c (Progress c)} (h : ∀ a, Carefree (f a)) :
    Carefree (x >>= f) := fun _ =>
  Ends.bind (ends_of_forall (fun _ _ => trivial) fun _ _ => trivial) fun a l _ => h a l

theorem carefree_ite {q : Prop} [Decidable q] {x y : Action c (Progress c)} (hx : Carefree x) (hy : Carefree y) :
    Carefree (if q then x else y) := by
  split
  · exact hx
  · exact hy

/-- Only a call that makes a request, sleeps or waits for signals makes the task wait for something. -/
theorem perform_carefree {call : Call} (ha : call.asks = false) (hs : ∀ ticks, call ≠ .sleep ticks)
    (hw : ∀ set, call ≠ .waitSignals set) : Carefree (perform call : Action c (Progress c)) := by
  cases call with
  | lock mutex patience | wait semaphore patience | put queue message patience | get queue message patience => cases ha
  | sleep ticks => exact absurd rfl (hs ticks)
  | waitSignals set => exact absurd rfl (hw set)
  | yield => exact carefree_after fun _ => carefree_pure nofun
  | block =>
    exact carefree_after fun _ => carefree_after fun _ => carefree_after fun _ => carefree_pure fun wait he => by
      cases he; rfl
  | yieldTo task =>
    exact carefree_after fun _ => carefree_after fun _ => carefree_after fun _ =>
      carefree_ite (carefree_pure nofun) (carefree_pure nofun)
  | raise event =>
    exact carefree_after fun _ => carefree_after fun _ => carefree_after fun _ => carefree_ite (carefree_pure nofun)
      (carefree_after fun _ => carefree_ite (carefree_pure nofun) (carefree_pure nofun))
  | now => exact carefree_after fun _ => carefree_after fun _ => carefree_pure nofun
  | currentTask | pollSignals set =>
    exact carefree_after fun _ => carefree_after fun _ => carefree_pure nofun
  | effectivePriority task | peekSignals set | unlock mutex | isLocked mutex | post semaphore | initMax semaphore max
  | tokens semaphore | messages queue | enableTimer timer | disableTimer timer | setReload timer reload
  | setTimerError timer error | ticksToFiring timer =>
    exact carefree_after fun _ => carefree_after fun _ => carefree_after fun _ => carefree_pure nofun
  | unblock task | start task | sendSignals task set | holds mutex | oneShot timer timeout
  | setTimerSignal timer task set
  | takeOverflow timer =>
    exact carefree_after fun _ => carefree_after fun _ => carefree_after fun _ => carefree_after
      fun _ => carefree_pure nofun

theorem takeOrWait_parks (hr : k.running = some t) (set : SignalSet) :
    Ends (takeOrWait set) k (Parks t) fun _ _ => True := by
  simp only [takeOrWait, ends_bind, ends_takeSignals hr, ends_ite, ends_pure,
    ends_suspend (k := k.clearSignals t set) hr]
  refine ⟨fun _ => ?_, fun _ => by rintro _ ⟨⟩⟩
  rintro _ ⟨⟩
  have cleared := k.modifyTask_self t fun s => { s with signals := s.signals &&& ~~~set }
  have none : (k.tasks[t].signals &&& ~~~set) &&& set = 0 := by
    rw [UInt32.and_assoc, UInt32.and_comm (~~~set), UInt32.and_not_self, UInt32.and_zero]
  exact (congrArg (fun s : TaskState c => s.signals &&& set) cleared).trans none

theorem Round.parks {d : Ticks} (h : Round t k r d p l) : Parks t p l := by
  cases h with
  | granted allowed resources now off | expires past refused resources now off => exact nofun
  | waits ahead resources now on =>
    rintro _ ⟨⟩
    exact ⟨on, now ▸ ahead⟩

theorem Pursued.parks (h : Pursued t k r none p l) : Parks t p l := by
  cases h with
  | granted allowed | expires timed past refused => exact nofun
  | waits left armed stop =>
    rintro _ ⟨⟩
    exact trivial

theorem Asked.parks {patience : Patience} (h : Asked t k r patience p l) (off : k.Off t) : Parks t p l := by
  cases patience with
  | never =>
    obtain ⟨granted, message, rfl, _⟩ := h
    exact nofun
  | forever => exact Pursued.parks h
  | upTo timeout =>
    have round : Round t k r (k.now + timeout) p l := Pursued.round h rfl rfl off
    exact round.parks

theorem Sleeps.parks {ticks : Ticks} (h : Sleeps t k ticks p l) : Parks t p l := by
  cases h with
  | yields zero => exact nofun
  | waits positive accepts timer own stop =>
    rintro _ ⟨⟩
    exact (timeless_stops stop).timedOut t |>.trans (on_armed k own ticks).early

theorem perform_parks (ht : c.tasks.size ≤ c.timerCount) (h : k.Ready t) (off : k.Off t) (call : Call) :
    Ends (perform call) k (Parks t) fun _ _ => True := by
  by_cases ha : call.asks = true
  · refine (asks_spec ht h ha).mono (fun p l asks => ?_) fun _ _ _ => trivial
    obtain ⟨r, patience, _, _, _, asked⟩ := asks
    exact asked.parks off
  by_cases hs : ∃ ticks, call = .sleep ticks
  · obtain ⟨ticks, rfl⟩ := hs
    exact (sleep_spec ht h ticks).mono (fun p l sleeps => sleeps.parks) fun _ _ _ => trivial
  by_cases hw : ∃ set, call = .waitSignals set
  · obtain ⟨set, rfl⟩ := hw
    have hr : k.entered.running = some t := h.running
    exact (ends_bind _ _).mpr (h.ends_enter.mpr (takeOrWait_parks hr set))
  · exact (perform_carefree (Bool.eq_false_iff.mpr ha) (fun ticks he => hs ⟨ticks, he⟩)
      fun set he => hw ⟨set, he⟩).parks k

theorem resume_parks (ht : c.tasks.size ≤ c.timerCount) (hr : k.running = some t) (wait : Wait c)
    (stranger : ∀ x, wait.mutex? = some x → k.holders[x] ≠ some t) :
    Ends (resume wait) k (Parks t) fun _ _ => True := by
  cases wait with
  | block => exact nofun
  | sleep =>
    simp only [resume, sleepOn, ends_bind, ends_current_of_running hr, ends_get, ends_ite, ends_pure, ends_suspend hr]
    refine ⟨fun _ => nofun, fun early => ?_⟩
    rintro _ ⟨⟩
    exact Bool.eq_false_iff.mpr early
  | signals set => exact takeOrWait_parks hr set
  | request r deadline =>
    cases deadline with
    | some d => exact (round_spec ht hr stranger d).mono (fun p l round => round.parks) fun _ _ _ => trivial
    | none =>
      refine (pursueOn_spec ht hr stranger none).mono (fun p l hl => ?_) fun _ _ _ => trivial
      obtain ⟨_, _, pursued⟩ := hl
      exact pursued.parks

/-! ## What others do to a wait -/

/-- Nobody makes the task stop being runnable, and whoever sends it signals makes it runnable. -/
structure Hushed (t : c.TaskId) (k l : Kernel c) : Prop where
  runnable : k.isRunnable t = true → l.isRunnable t = true
  signals : l.isRunnable t = true ∨ l.tasks[t].signals = k.tasks[t].signals

namespace Hushed

theorem refl (t : c.TaskId) (k : Kernel c) : Hushed t k k := ⟨id, .inr rfl⟩

theorem trans (h : Hushed t k l) (h' : Hushed t l m) : Hushed t k m := by
  refine ⟨fun hr => h'.runnable (h.runnable hr), ?_⟩
  rcases h.signals with runs | same
  · exact .inl (h'.runnable runs)
  · exact h'.signals.imp_right fun same' => same'.trans same

/-- A task that is not runnable was not runnable before either. -/
theorem blocked (h : Hushed t k l) (hl : l.isRunnable t = false) : k.isRunnable t = false :=
  Bool.eq_false_iff.mpr fun runs => Bool.eq_false_iff.mp hl (h.runnable runs)

theorem of_eq (hr : ∀ u, l.isRunnable u = k.isRunnable u) (hs : l.tasks = k.tasks) : Hushed t k l :=
  ⟨fun h => (hr t).trans h, .inr (by rw [hs])⟩

theorem makeRunnable (fits : k.schedule.Fits) (u : c.TaskId) : Hushed t k (k.makeRunnable u) := by
  refine ⟨fun hr => ?_, .inr rfl⟩
  rw [Kernel.isRunnable, Kernel.makeRunnable, fits.isRunnable_setRunnable, ← Kernel.isRunnable, hr, Bool.or_true]

theorem sendSignals (fits : k.schedule.Fits) (u : c.TaskId) (set : SignalSet) : Hushed t k (k.sendSignals u set) := by
  have roused := fits.isRunnable_setRunnable u t
  refine ⟨fun hr => ?_, ?_⟩
  · exact roused.trans (by rw [← Kernel.isRunnable, hr, Bool.or_true])
  · by_cases he : t = u
    · exact .inl (roused.trans (by rw [decide_eq_true he, Bool.true_or]))
    · exact .inr (congrArg TaskState.signals (modifyTask_ne k (fun s => { s with signals := s.signals ||| set }) he))

theorem timeOut (fits : k.schedule.Fits) (u : c.TaskId) : Hushed t k (k.timeOut u) := by
  refine ⟨(makeRunnable fits u).runnable, .inr ?_⟩
  by_cases he : t = u
  · have self := congrArg TaskState.signals (k.modifyTask_self u fun s => { s with timedOut := true })
    rw [he]
    exact self
  · exact congrArg TaskState.signals (modifyTask_ne k (fun s => { s with timedOut := true }) he)

end Hushed

/-- Whatever a task has the kernel do leaves the others waiting, or makes them runnable. -/
theorem hushed_edit (hs : k.Scheduled) (hu : u ≠ t) (e : Edit c) : Hushed t k (e.apply u k) := by
  refine ⟨fun hr => isRunnable_edit hs e hr, ?_⟩
  have woken : ∀ {l : Kernel c} (o : WaitObject c), l.tasks = k.tasks →
      (l.wakeWaiters o).tasks[t].signals = k.tasks[t].signals := fun {l} o he => by
    rw [signals_wakeWaiters, he]
  cases e with
  | enter | record event | takeToken semaphore | setMax semaphore max | take mutex | rouse task | timer id change =>
    exact .inr rfl
  | refresh =>
    obtain ⟨s, he, _⟩ := k.refresh_eq
    rw [Edit.apply, he]
    exact .inr rfl
  | send task set => exact (Hushed.sendSignals hs.fits task set).signals
  | clear set | resetTimeout => exact .inr (congrArg TaskState.signals (modifyTask_ne k _ (Ne.symm hu)))
  | release mutex => exact .inr (signals_wakeLockers _ mutex t)
  | addToken semaphore value =>
    rw [Edit.apply]
    split
    · exact .inr (woken _ rfl)
    · exact .inr rfl
  | store q message =>
    have stored : ((k.copyIn message (k.slotStart q (k.tailSlot q))).pushed q).tasks = k.tasks := by
      cases message <;> rfl
    simp only [Edit.apply]
    split
    · exact .inr (woken _ stored)
    · exact .inr (congrArg (fun tasks : Table (TaskState c) c.tasks.size => tasks[t].signals) stored)
  | fetch q message =>
    have fetched : ((k.copyOut message (k.slotStart q k.rings[q].head)).1.popped q).tasks = k.tasks := by
      cases message <;> rfl
    simp only [Edit.apply]
    split
    · exact .inr (woken _ fetched)
    · exact .inr (congrArg (fun tasks : Table (TaskState c) c.tasks.size => tasks[t].signals) fetched)
  | endWait o =>
    obtain ⟨s, he, _⟩ := (k.setWait u none).noteWaiters_eq o
    rw [Edit.apply, he]
    exact .inr (congrArg TaskState.signals (setWait_ne k none (Ne.symm hu)))

theorem Owned.hushed {suspensions : Table (Suspension c) c.tasks.size} {detour : Prop} {es : List (Edit c)}
    (h : k.Owned suspensions u detour) (hu : u ≠ t) (he : Edits u k es l) : Hushed t k l := by
  induction he with
  | nil k => exact .refl t k
  | @cons k l e es allowed rest ih => exact (hushed_edit h.scheduled hu e).trans (ih (h.edit e allowed))

theorem hushed_stops {s : Suspension c} (hs : k.Scheduled) (hu : u ≠ t) (h : Stops u k s l) : Hushed t k l := by
  refine ⟨fun hr => ((hs.others_of_stops h).2 t (Ne.symm hu)).trans hr, .inr ?_⟩
  cases h with
  | yields | suspends wait other => rfl
  | awaits r deadline refused =>
    obtain ⟨s, he, _⟩ := (k.setWait u (some r.object)).noteWaiters_eq r.object
    rw [he]
    exact congrArg TaskState.signals (setWait_ne k _ (Ne.symm hu))

/-! ## The dispatcher -/

section Settling
variable {suspensions : Table (Suspension c) c.tasks.size}

theorem applyEvent_hushed (fits : k.schedule.Fits) (event : c.EventId) :
    Ends (applyEvent event) k (fun _ l => Hushed t k l) fun _ _ => True := by
  unfold applyEvent
  split
  · simp only [ends_bind, ends_taskId, ends_modify]
    exact ⟨fun _ => .makeRunnable fits _, fun _ => trivial⟩
  · simp only [ends_bind, ends_taskId, ends_modify]
    exact ⟨fun _ => .sendSignals fits _ _, fun _ => trivial⟩

theorem fire_hushed (fits : k.schedule.Fits) (id : c.TimerId) :
    Ends (fire id) k (fun _ l => Hushed t k l) fun _ _ => True := by
  refine (ends_bind _ _).mpr (ends_get.mpr ?_)
  split
  · exact .refl t k
  · simp only [ends_bind, ends_taskId, ends_get, ends_ite, ends_modify]
    refine ⟨fun _ => ⟨fun _ => ?_, fun _ => .sendSignals fits _ _⟩, fun _ => trivial⟩
    have marked : Hushed t k (k.modifyTimer id fun s => { s with overflow := true }) := .of_eq (fun _ => rfl) rfl
    exact marked.trans (.sendSignals (k := k.modifyTimer id fun s => { s with overflow := true }) fits _ _)
  · trivial
  · exact .timeOut fits _

theorem fireIfDue_hushed (fits : k.schedule.Fits) (id : c.TimerId) :
    Ends (fireIfDue id) k (fun _ l => Hushed t k l) fun _ _ => True := by
  simp only [fireIfDue, ends_bind, ends_get, ends_ite, ends_modify, ends_pure]
  have rearmed : Hushed t k (k.rearm id) := .of_eq (fun _ => rfl) rfl
  exact ⟨fun _ => (fire_hushed (k := k.rearm id) fits id).mono (fun _ _ hl => rearmed.trans hl) fun _ _ h => h,
    fun _ => .refl t k⟩

theorem applyTicks_hushed (h : Settling k suspensions l) (ticks : Nat) :
    Ends (applyTicks ticks) l (fun _ m => Hushed t l m) fun _ _ => True := by
  match ticks with
  | 0 => exact .refl t l
  | 1 =>
    have timers : ∀ id ∈ List.finRange c.timerCount, ∀ m, Settling k suspensions m ∧ Hushed t l m →
        Ends (fireIfDue id) m (fun _ m => Settling k suspensions m ∧ Hushed t l m) fun _ _ => True := by
      intro id _ m hm
      refine ((hm.1.fireIfDue id).and (fireIfDue_hushed (t := t) hm.1.between.scheduled.fits id)).mono
        (fun _ _ hn => ?_)
        fun _ _ _ => trivial
      exact ⟨hn.1, hm.2.trans hn.2⟩
    have ticked : Hushed t l { l with now := l.now + 1 } := .of_eq (fun _ => rfl) rfl
    exact (Ends.forM _ timers _ ⟨h.tick, ticked⟩).mono (fun _ _ hm => hm.2) fun _ _ h => h
  | _ + 2 => trivial

theorem settle_hushed (hb : k.Between suspensions) : Ends settle k (fun _ l => Hushed t k l) fun _ _ => True := by
  have events : ∀ event ∈ k.raisedEvents, ∀ l, Settling k suspensions l ∧ Hushed t k l →
      Ends (applyEvent event) l (fun _ l => Settling k suspensions l ∧ Hushed t k l) fun _ _ => True := by
    intro event _ l hl
    refine ((hl.1.applyEvent event).and (applyEvent_hushed (t := t) hl.1.between.scheduled.fits event)).mono
      (fun _ m hm => ?_)
      fun _ _ _ => trivial
    exact ⟨hm.1, hl.2.trans hm.2⟩
  rw [settle, ends_bind, ends_takePending hb.context_ne_outside hb.unmasked]
  refine Ends.bind (Ends.forM _ events _ ⟨.taken hb, .of_eq (fun _ => rfl) rfl⟩) fun _ l hl => ?_
  exact (applyTicks_hushed hl.1 k.pendingTicks).mono (fun _ _ hm => hl.2.trans hm) fun _ _ h => h

end Settling

/-- A wait that is not over goes on, whatever others do, until the task is runnable. -/
theorem Unmet.passed (h : k.Unmet t wait) {id : c.TimerId} (own : id.val = c.userTimers + t) (passed : Passed t id k l)
    (hushed : Hushed t k l) (hr : l.isRunnable t = false) : l.Unmet t wait := by
  have alive : ¬ Expired t l := fun expired => Bool.eq_false_iff.mp hr expired.runnable
  cases wait with
  | block => exact trivial
  | sleep =>
    cases passed with
    | still spares => exact spares.timedOut.trans h
    | early tick now timer ahead timedOut => exact timedOut.trans h
    | fires tick now due expired => exact absurd expired alive
  | signals set =>
    have same := hushed.signals.resolve_left (Bool.eq_false_iff.mp hr)
    exact (congrArg (· &&& set) same).trans h
  | request r deadline =>
    cases deadline with
    | none => exact trivial
    | some d =>
      obtain ⟨on, left, ahead⟩ := h
      rcases passed.on own on with ⟨now, on⟩ | ⟨now, ⟨later, on⟩ | ⟨_, expired⟩⟩
      · exact ⟨on, left, now ▸ ahead⟩
      · exact ⟨on, left - 1, now ▸ remaining?_tick ahead later⟩
      · exact absurd expired alive

end Kernel

end Rtos
