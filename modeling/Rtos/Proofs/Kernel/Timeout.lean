import Rtos.Proofs.Kernel.Resources

/-!
# Timeout timers

* `Timeless`: what leaves the tick counter and the timeout timer of a task alone.
* `Kernel.Off`, `Kernel.On`: the timeout timer of a task is off, or set to fire at a deadline and has not fired yet.
* `Kernel.Wired`: the timeout timers are the timers that end waits, and they fire once.
* `Passed`, `settle_passed`: when the dispatcher applies a tick, the timeout timer of a task fires just if it is due.
-/

namespace Rtos
set_option autoImplicit false

variable {c : Config}

/-- Whether a change is one to a timer, or to the note that one has fired. -/
def Edit.times : Edit c → Bool
  | .timer _ _ | .resetTimeout => true
  | _ => false

namespace Kernel

variable {k l m : Kernel c} {t u : c.TaskId} {r : Request c}

/-! ## What is no matter of time -/

/-- No tick passes, and nothing happens to a timer. -/
structure Timeless (k l : Kernel c) : Prop where
  now : l.now = k.now
  timers : l.timers = k.timers
  timedOut : ∀ u : c.TaskId, l.tasks[u].timedOut = k.tasks[u].timedOut

namespace Timeless

theorem refl (k : Kernel c) : Timeless k k := ⟨rfl, rfl, fun _ => rfl⟩

theorem trans (h : Timeless k l) (h' : Timeless l m) : Timeless k m :=
  ⟨h'.now.trans h.now, h'.timers.trans h.timers, fun u => (h'.timedOut u).trans (h.timedOut u)⟩

theorem of_eq (hn : l.now = k.now) (ht : l.timers = k.timers) (hs : l.tasks = k.tasks) : Timeless k l :=
  ⟨hn, ht, fun u => by rw [hs]⟩

theorem modifyTask (k : Kernel c) (t : c.TaskId) {f : TaskState c → TaskState c}
    (hf : ∀ s, (f s).timedOut = s.timedOut) :
    Timeless k (k.modifyTask t f) := by
  refine ⟨rfl, rfl, fun u => ?_⟩
  by_cases hu : u = t
  · rw [hu, modifyTask_self, hf]
  · rw [modifyTask_ne k f hu]

theorem sendSignals (k : Kernel c) (t : c.TaskId) (set : SignalSet) : Timeless k (k.sendSignals t set) :=
  (modifyTask k t (f := fun s => { s with signals := s.signals ||| set }) fun _ => rfl).trans (.of_eq rfl rfl rfl)

theorem clearSignals (k : Kernel c) (t : c.TaskId) (set : SignalSet) : Timeless k (k.clearSignals t set) :=
  modifyTask k t (f := fun s => { s with signals := s.signals &&& ~~~set }) fun _ => rfl

theorem setWait (k : Kernel c) (t : c.TaskId) (wait : Option (WaitObject c)) : Timeless k (k.setWait t wait) :=
  modifyTask k t fun _ => rfl

theorem noteWaiters (k : Kernel c) (o : WaitObject c) : Timeless k (k.noteWaiters o) := by
  obtain ⟨s, he, _⟩ := k.noteWaiters_eq o
  rw [he]
  exact .of_eq rfl rfl rfl

theorem foldl_wake (k : Kernel c) (ts : List c.TaskId) : Timeless k (ts.foldl wake k) := by
  induction ts generalizing k with
  | nil => exact .refl k
  | cons t ts ih =>
    have one : Timeless k (k.wake t) := (setWait k t none).trans (.of_eq rfl rfl rfl)
    exact one.trans (ih (k.wake t))

theorem wakeWaiters (k : Kernel c) (o : WaitObject c) : Timeless k (k.wakeWaiters o) := by
  unfold Kernel.wakeWaiters
  split
  · exact .refl k
  · exact (foldl_wake k _).trans (.of_eq rfl rfl rfl)

theorem wakeLockers (k : Kernel c) (x : c.MutexId) : Timeless k (k.wakeLockers x) := by
  unfold Kernel.wakeLockers
  split
  · exact .refl k
  · exact (wakeWaiters k (.mutex x)).trans (.of_eq rfl rfl rfl)

end Timeless

/-- Time, timers and tasks stay as they are. -/
structure Passive (k l : Kernel c) : Prop where
  now : l.now = k.now
  timers : l.timers = k.timers
  tasks : l.tasks = k.tasks

theorem Passive.timeless (h : Passive k l) : Timeless k l := .of_eq h.now h.timers h.tasks

theorem passive_refresh (k : Kernel c) : Passive k k.refresh := by
  obtain ⟨s, he, _⟩ := k.refresh_eq
  rw [he]
  exact ⟨rfl, rfl, rfl⟩

theorem timeless_edit (k : Kernel c) (t : c.TaskId) {e : Edit c} (he : e.times = false) : Timeless k (e.apply t k) := by
  cases e with
  | enter | record event | takeToken semaphore | setMax semaphore max | take mutex | rouse task =>
    exact .of_eq rfl rfl rfl
  | refresh => exact (passive_refresh k).timeless
  | send task set => exact (Timeless.sendSignals k task set).trans (.of_eq rfl rfl rfl)
  | clear set => exact .clearSignals k t set
  | resetTimeout | timer id change => cases he
  | release mutex =>
    have free : Timeless k (k.freeMutex mutex) := .of_eq rfl rfl rfl
    exact (free.trans (.wakeLockers _ mutex)).trans (.of_eq rfl rfl rfl)
  | addToken semaphore value =>
    have added : Timeless k (k.setValue semaphore value) := .of_eq rfl rfl rfl
    rw [Edit.apply]
    split
    · exact added.trans (.wakeWaiters _ _)
    · exact added
  | store q message =>
    have stored : Timeless k ((k.copyIn message (k.slotStart q (k.tailSlot q))).pushed q) := by
      cases message <;> exact .of_eq rfl rfl rfl
    simp only [Edit.apply]
    split
    · exact stored.trans (.wakeWaiters _ _)
    · exact stored
  | fetch q message =>
    have fetched : Timeless k ((k.copyOut message (k.slotStart q k.rings[q].head)).1.popped q) := by
      cases message <;> exact .of_eq rfl rfl rfl
    simp only [Edit.apply]
    split
    · exact fetched.trans (.wakeWaiters _ _)
    · exact fetched
  | endWait o => exact (Timeless.setWait k t none).trans (.noteWaiters _ o)

theorem timeless_grant (k : Kernel c) (t : c.TaskId) (r : Request c) : Timeless k (r.edit.apply t k) :=
  timeless_edit k t (by cases r <;> rfl)

theorem timeless_stops {s : Suspension c} (h : Stops t k s l) : Timeless k l := by
  cases h with
  | yields => exact .refl k
  | suspends wait other => exact .of_eq rfl rfl rfl
  | awaits r deadline refused =>
    exact ((Timeless.setWait k t (some r.object)).trans (.noteWaiters _ r.object)).trans (.of_eq rfl rfl rfl)

/-! ## What spares the timeout timer of a task -/

/-- No tick passes, and nothing happens to the timeout timer of the task. -/
structure Spares (t : c.TaskId) (k l : Kernel c) : Prop where
  now : l.now = k.now
  timer : ∀ id : c.TimerId, id.val = c.userTimers + t → l.timers[id] = k.timers[id]
  timedOut : l.tasks[t].timedOut = k.tasks[t].timedOut

theorem Timeless.spares (h : Timeless k l) (t : c.TaskId) : Spares t k l :=
  ⟨h.now, fun id _ => by rw [h.timers], h.timedOut t⟩

namespace Spares

theorem refl (t : c.TaskId) (k : Kernel c) : Spares t k k := (Timeless.refl k).spares t

theorem trans (h : Spares t k l) (h' : Spares t l m) : Spares t k m :=
  ⟨h'.now.trans h.now, fun id own => (h'.timer id own).trans (h.timer id own), h'.timedOut.trans h.timedOut⟩

theorem of_eq (hn : l.now = k.now) (ht : l.timers = k.timers) (hs : l.tasks = k.tasks) : Spares t k l :=
  (Timeless.of_eq hn ht hs).spares t

theorem modifyTimer (k : Kernel c) {other : c.TimerId} (h : other.val ≠ c.userTimers + t)
    (f : TimerState c → TimerState c) : Spares t k (k.modifyTimer other f) := by
  refine ⟨rfl, fun id own => ?_, rfl⟩
  exact Table.getElem_set_of_ne k.timers _ fun he => h (he ▸ own)

end Spares

/-- Whatever a task has the kernel do spares the timeout timers of the others. -/
theorem spares_edit {e : Edit c} (ha : e.Allowed u k) (hu : u ≠ t) : Spares t k (e.apply u k) := by
  by_cases he : e.times = false
  · exact (timeless_edit k u he).spares t
  · cases e with
    | timer id change =>
      refine Spares.modifyTimer k (fun own => ?_) change
      rcases ha with ⟨user, _⟩ | ⟨timeout, _⟩
      · omega
      · exact hu (Fin.ext (by omega))
    | resetTimeout => exact ⟨rfl, fun _ _ => rfl, congrArg TaskState.timedOut (modifyTask_ne k _ (Ne.symm hu))⟩
    | _ => exact absurd rfl he

theorem spares_edits {es : List (Edit c)} (h : Edits u k es l) (hu : u ≠ t) : Spares t k l := by
  induction h with
  | nil k => exact .refl t k
  | cons allowed _ ih => exact (spares_edit allowed hu).trans ih

theorem now_edits {es : List (Edit c)} (h : Edits u k es l) : l.now = k.now := by
  induction h with
  | nil k => rfl
  | @cons k l e es allowed _ ih =>
    refine ih.trans ?_
    by_cases he : e.times = false
    · exact (timeless_edit k u he).now
    · cases e with
      | timer id change | resetTimeout => rfl
      | _ => exact absurd rfl he

/-! ## The timeout timer of a task -/

/-- The timeout timer of the task is off. -/
def Off (k : Kernel c) (t : c.TaskId) : Prop :=
  ∀ id : c.TimerId, id.val = c.userTimers + t → k.timers[id].enabled = false

/-- The timeout timer of the task is set to fire at the deadline, and has not fired yet. -/
structure On (k : Kernel c) (t : c.TaskId) (deadline : Ticks) : Prop where
  timer : ∀ id : c.TimerId, id.val = c.userTimers + t → k.timers[id].enabled = true ∧ k.timers[id].expiry = deadline
  early : k.tasks[t].timedOut = false

theorem Spares.off (h : Spares t k l) (hk : k.Off t) : l.Off t := fun id own => by rw [h.timer id own, hk id own]

theorem Spares.on (h : Spares t k l) {deadline : Ticks} (hk : k.On t deadline) : l.On t deadline where
  timer id own := by
    rw [h.timer id own]
    exact hk.timer id own
  early := h.timedOut.trans hk.early

theorem on_armed (k : Kernel c) {timer : c.TimerId} (own : timer.val = c.userTimers + t) (ticks : Ticks) :
    (k.armed t timer ticks).On t (k.now + ticks) where
  timer id own' := by
    obtain rfl : id = timer := Fin.ext (own'.trans own.symm)
    have self : (k.armed t id ticks).timers[id] =
        { k.timers[id] with reload := 0, expiry := k.now + ticks, enabled := true } := Table.getElem_set_self ..
    rw [self]
    exact ⟨rfl, rfl⟩
  early := congrArg TaskState.timedOut (k.modifyTask_self t fun s => { s with timedOut := false })

theorem Disarmed.off {d : Ticks} (h : Disarmed t k (some d) l) : l.Off t := by
  cases h with
  | limited timer own =>
    intro id own'
    obtain rfl : id = timer := Fin.ext (own'.trans own.symm)
    exact congrArg TimerState.enabled (Table.getElem_set_self ..)

theorem Disarmed.now {d : Option Ticks} (h : Disarmed t k d l) : l.now = k.now := by
  cases h <;> rfl

/-! ## Timers that end waits -/

/-- The timeout timers, and no other timers, end waits, each that of its task, and they fire once. -/
structure Wired (k : Kernel c) : Prop where
  timeout : ∀ (id : c.TimerId) (u : c.TaskId), id.val = c.userTimers + u →
    k.timers[id].effect = .timeout u ∧ k.timers[id].reload = 0
  only : ∀ (id : c.TimerId) (u : c.TaskId), k.timers[id].effect = .timeout u → id.val = c.userTimers + u

namespace Wired

theorem of_timers (h : k.Wired) (ht : l.timers = k.timers) : l.Wired := by
  constructor <;> rw [ht]
  · exact h.timeout
  · exact h.only

theorem modifyTimer (h : k.Wired) (other : c.TimerId) {f : TimerState c → TimerState c}
    (hf : (other.val < c.userTimers ∧ ∀ s u, (f s).effect = .timeout u → s.effect = .timeout u) ∨
      ∀ s, (f s).effect = s.effect ∧ (s.reload = 0 → (f s).reload = 0)) : (k.modifyTimer other f).Wired := by
  have self : (k.modifyTimer other f).timers[other] = f k.timers[other] := Table.getElem_set_self ..
  have same : ∀ id, id ≠ other → (k.modifyTimer other f).timers[id] = k.timers[id] :=
    fun id hne => Table.getElem_set_of_ne k.timers _ hne
  constructor
  · intro id u own
    by_cases he : id = other
    · subst he
      rw [self]
      rcases hf with ⟨user, _⟩ | hf
      · omega
      · obtain ⟨effect, reload⟩ := h.timeout id u own
        exact ⟨(hf _).1.trans effect, (hf _).2 reload⟩
    · rw [same id he]
      exact h.timeout id u own
  · intro id u
    by_cases he : id = other
    · subst he
      rw [self]
      intro effect
      rcases hf with ⟨_, hf⟩ | hf
      · exact h.only id u (hf _ u effect)
      · exact h.only id u ((hf _).1.symm.trans effect)
    · rw [same id he]
      exact h.only id u

theorem edit (h : k.Wired) {e : Edit c} (ha : e.Allowed t k) : (e.apply t k).Wired := by
  by_cases he : e.times = false
  · exact h.of_timers (timeless_edit k t he).timers
  · cases e with
    | timer id change =>
      refine h.modifyTimer id ?_
      rcases ha with user | ⟨_, hf⟩
      · exact .inl user
      · exact .inr hf
    | resetTimeout => exact h.of_timers rfl
    | _ => exact absurd rfl he

theorem edits (h : k.Wired) {es : List (Edit c)} (he : Edits t k es l) : l.Wired := by
  induction he with
  | nil k => exact h
  | cons allowed _ ih => exact ih (h.edit allowed)

theorem rearm (h : k.Wired) (id : c.TimerId) : (k.rearm id).Wired := by
  refine h.modifyTimer id (.inr fun s => ?_)
  split
  · exact ⟨rfl, fun hr => hr⟩
  · exact ⟨rfl, fun hr => hr⟩

end Wired

/-! ## A tick -/

theorem fire_spares (h : k.Wired) {id : c.TimerId} (other : id.val ≠ c.userTimers + t) :
    Ends (fire id) k (fun _ l => Spares t k l ∧ l.Wired) fun _ _ => True := by
  refine (ends_bind _ _).mpr (ends_get.mpr ?_)
  split
  · exact ⟨.refl t k, h⟩
  · next task set _ =>
    simp only [ends_bind, ends_taskId, ends_get, ends_ite, ends_modify]
    refine ⟨fun hi => ⟨fun _ => ?_, fun _ => ?_⟩, fun _ => trivial⟩
    · have marked : Spares t k (k.modifyTimer id fun s => { s with overflow := true }) := Spares.modifyTimer k other _
      have wired : (k.modifyTimer id fun s => { s with overflow := true }).Wired :=
        h.modifyTimer id (.inr fun _ => ⟨rfl, fun hr => hr⟩)
      have sent := Timeless.sendSignals (k.modifyTimer id fun s => { s with overflow := true }) ⟨task, hi⟩ set
      exact ⟨marked.trans (sent.spares t), wired.of_timers sent.timers⟩
    · have sent := Timeless.sendSignals k ⟨task, hi⟩ set
      exact ⟨sent.spares t, h.of_timers sent.timers⟩
  · trivial
  · next task he =>
    have hne : t ≠ task := by
      rintro rfl
      exact other (h.only id t he)
    have same := modifyTask_ne k (fun s => { s with timedOut := true }) hne
    exact ⟨⟨rfl, fun _ _ => rfl, congrArg TaskState.timedOut same⟩, h.of_timers rfl⟩

theorem fireIfDue_spares (h : k.Wired) {id : c.TimerId} (other : id.val ≠ c.userTimers + t) :
    Ends (fireIfDue id) k (fun _ l => Spares t k l ∧ l.Wired) fun _ _ => True := by
  simp only [fireIfDue, ends_bind, ends_get, ends_ite, ends_modify, ends_pure]
  refine ⟨fun _ => ?_, fun _ => ⟨.refl t k, h⟩⟩
  refine (fire_spares (h.rearm id) other).mono (fun _ l hl => ?_) fun _ _ _ => trivial
  exact ⟨(Spares.modifyTimer k other _).trans hl.1, hl.2⟩

/-- The timeout timer of a task ends its wait if it is due. -/
theorem fireIfDue_own (h : k.Wired) {id : c.TimerId} (own : id.val = c.userTimers + t) : Ends (fireIfDue id) k
    (fun _ l => (k.isDue id = false ∧ l = k) ∨ (k.isDue id = true ∧ l = (k.rearm id).timeOut t)) fun _ _ => True := by
  have effect : (k.rearm id).timers[id].effect = .timeout t := ((h.rearm id).timeout id t own).1
  simp only [fireIfDue, ends_bind, ends_get, ends_ite, ends_modify, ends_pure]
  refine ⟨fun due => ?_, fun due => .inl ⟨Bool.eq_false_iff.mpr due, trivial⟩⟩
  refine (ends_bind _ _).mpr (ends_get.mpr ?_)
  rw [effect]
  exact .inr ⟨due, rfl⟩

/-- The wait of the task is over: its timeout timer is off, it is noted that the timer has fired, and the task is
runnable. -/
structure Expired (t : c.TaskId) (k : Kernel c) : Prop where
  off : k.Off t
  late : k.tasks[t].timedOut = true
  runnable : k.isRunnable t = true

theorem Expired.of_spares (h : Expired t k) (hs : Spares t k l) (hr : k.isRunnable t = true → l.isRunnable t = true) :
    Expired t l :=
  ⟨hs.off h.off, hs.timedOut.trans h.late, hr h.runnable⟩

theorem expired_timeOut (hs : k.Scheduled) (h : k.Wired) {id : c.TimerId} (own : id.val = c.userTimers + t) :
    Expired t ((k.rearm id).timeOut t) where
  off other own' := by
    obtain rfl : other = id := Fin.ext (own'.trans own.symm)
    have self : (k.rearm other).timers[other].enabled = false := by
      rw [rearm, Kernel.modifyTimer, Table.getElem_set_self, if_pos (h.timeout other t own).2]
    exact self
  late := congrArg TaskState.timedOut ((k.rearm id).modifyTask_self t fun s => { s with timedOut := true })
  runnable := by
    have made := hs.fits.isRunnable_setRunnable t t
    rw [decide_eq_true rfl, Bool.true_or] at made
    exact made

theorem not_due_of_off (h : k.Off t) {id : c.TimerId} (own : id.val = c.userTimers + t) : k.isDue id = false := by
  rw [isDue, h id own, Bool.false_and]

/-- After some of the timers were looked at, the timeout timer of the task is as it was, or it was due and has fired. -/
structure Ticking (suspensions : Table (Suspension c) c.tasks.size) (t : c.TaskId) (id : c.TimerId) (k : Kernel c)
    (done : List c.TimerId) (l : Kernel c) : Prop where
  between : l.Between suspensions
  settled : l.hasPending = false
  wired : l.Wired
  now : l.now = k.now
  timer : (Spares t k l ∧ (id ∈ done → k.isDue id = false)) ∨ (k.isDue id = true ∧ Expired t l)

section Ticking
variable {suspensions : Table (Suspension c) c.tasks.size} {id : c.TimerId} {done : List c.TimerId}

theorem Ticking.own (h : Ticking suspensions t id k done l) (own : id.val = c.userTimers + t)
    (hm : (l.isDue id = false ∧ m = l) ∨ (l.isDue id = true ∧ m = (l.rearm id).timeOut t)) :
    m.now = k.now ∧
    ((Spares t k m ∧ (id ∈ done ++ [id] → k.isDue id = false)) ∨ (k.isDue id = true ∧ Expired t m)) := by
  have due : Spares t k l → l.isDue id = k.isDue id := fun hs => by rw [isDue, isDue, hs.timer id own, hs.now]
  rcases hm with ⟨notDue, rfl⟩ | ⟨hd, rfl⟩
  · refine ⟨h.now, h.timer.imp_left ?_⟩
    rintro ⟨spares, _⟩
    exact ⟨spares, fun _ => (due spares).symm.trans notDue⟩
  · refine ⟨h.now, .inr ⟨?_, expired_timeOut h.between.scheduled h.wired own⟩⟩
    rcases h.timer with ⟨spares, _⟩ | ⟨_, expired⟩
    · exact (due spares).symm.trans hd
    · -- A timeout timer that has fired is off, so it does not fire again.
      cases (not_due_of_off expired.off own).symm.trans hd

theorem Ticking.other (h : Ticking suspensions t id k done l) {other : c.TimerId} (hne : other ≠ id) (hs : Spares t l m)
    (hn : Narrows l m) : m.now = k.now ∧
      ((Spares t k m ∧ (id ∈ done ++ [other] → k.isDue id = false)) ∨ (k.isDue id = true ∧ Expired t m)) := by
  refine ⟨hs.now.trans h.now, h.timer.imp ?_ (And.imp_right fun he => he.of_spares hs (hn.runnable t))⟩
  rintro ⟨spares, looked⟩
  refine ⟨spares.trans hs, fun hi => looked ?_⟩
  rcases List.mem_append.mp hi with hi | hi
  · exact hi
  · exact absurd (List.mem_singleton.mp hi).symm hne

theorem Ticking.fireIfDue (h : Ticking suspensions t id k done l) (own : id.val = c.userTimers + t)
    (other : c.TimerId) :
    Ends (fireIfDue other) l (fun _ => Ticking suspensions t id k (done ++ [other])) fun _ _ => True := by
  have settling : Settling l suspensions l := ⟨h.between, .refl l, h.settled, fun _ => rfl⟩
  by_cases he : other = id
  · subst he
    refine ((settling.fireIfDue other).and (fireIfDue_own h.wired own)).mono (fun _ m hm => ?_) fun _ _ _ => trivial
    obtain ⟨⟨between, narrows, settled, _⟩, hm⟩ := hm
    obtain ⟨now, timer⟩ := h.own own hm
    refine ⟨between, settled, ?_, now, timer⟩
    rcases hm with ⟨_, rfl⟩ | ⟨_, rfl⟩
    · exact h.wired
    · exact (h.wired.rearm other).of_timers rfl
  · have foreign : other.val ≠ c.userTimers + t := fun hv => he (Fin.ext (hv.trans own.symm))
    refine ((settling.fireIfDue other).and (fireIfDue_spares h.wired foreign)).mono (fun _ m hm => ?_)
      fun _ _ _ => trivial
    obtain ⟨⟨between, narrows, settled, _⟩, spares, wired⟩ := hm
    obtain ⟨now, timer⟩ := h.other he spares narrows
    exact ⟨between, settled, wired, now, timer⟩

theorem processTick_spec (hb : k.Between suspensions) (hp : k.hasPending = false) (hw : k.Wired)
    (own : id.val = c.userTimers + t) : Ends processTick k
      (fun _ => Ticking suspensions t id { k with now := k.now + 1 } (List.finRange c.timerCount)) fun _ _ => True := by
  have settling : Settling k suspensions k := ⟨hb, .refl k, hp, fun _ => rfl⟩
  have start : Ticking suspensions t id { k with now := k.now + 1 } [] { k with now := k.now + 1 } :=
    ⟨settling.tick.between, hp, hw.of_timers rfl, rfl, .inl ⟨.refl t _, nofun⟩⟩
  refine Ends.forM_of_prefix (List.finRange c.timerCount) (fun done other rest _ l hl => ?_) _ start
  exact hl.fireIfDue own other

end Ticking

/-- What becomes of the tick counter and of the timeout timer of a task that does nothing itself: there may be a tick,
and the timer fires then just if it is due. -/
inductive Passed (t : c.TaskId) (id : c.TimerId) (k l : Kernel c) : Prop
  | still (spares : Spares t k l)
  | early (tick : k.pendingTicks ≠ 0) (now : l.now = k.now + 1) (timer : l.timers[id] = k.timers[id])
    (ahead : k.timers[id].enabled = true → k.timers[id].expiry ≠ k.now + 1)
    (timedOut : l.tasks[t].timedOut = k.tasks[t].timedOut)
  | fires (tick : k.pendingTicks ≠ 0) (now : l.now = k.now + 1)
      (due : k.timers[id].enabled = true ∧ k.timers[id].expiry = k.now + 1)
    (expired : Expired t l)

theorem applyEvent_timeless (event : c.EventId) :
    Ends (applyEvent event) k (fun _ l => Timeless k l) fun _ _ => True := by
  unfold applyEvent
  split
  · simp only [ends_bind, ends_taskId, ends_modify]
    exact ⟨fun _ => .of_eq rfl rfl rfl, fun _ => trivial⟩
  · simp only [ends_bind, ends_taskId, ends_modify]
    exact ⟨fun _ => .sendSignals k _ _, fun _ => trivial⟩

theorem applyTicks_passed {suspensions : Table (Suspension c) c.tasks.size} (settling : Settling k suspensions l)
    (timeless : Timeless k l) (hw : k.Wired) {id : c.TimerId} (own : id.val = c.userTimers + t) :
    Ends (applyTicks k.pendingTicks) l (fun _ m => m.Wired ∧ Passed t id k m) fun _ _ => True := by
  have wired := hw.of_timers timeless.timers
  -- The kernel gives up when it is more than one tick behind.
  match hp : k.pendingTicks with
  | 0 => exact ⟨wired, .still (timeless.spares t)⟩
  | 1 =>
    refine (processTick_spec settling.between settling.settled wired own).mono (fun _ m hm => ⟨hm.wired, ?_⟩)
      fun _ _ h => h
    have now : m.now = k.now + 1 := hm.now.trans (congrArg (· + 1) timeless.now)
    have timer : l.timers[id] = k.timers[id] := by rw [timeless.timers]
    have due : ({ l with now := l.now + 1 } : Kernel c).isDue id = true ↔
        k.timers[id].enabled = true ∧ k.timers[id].expiry = k.now + 1 := by
      simp only [isDue, timer, timeless.now, Bool.and_eq_true, beq_iff_eq]
    have tick : k.pendingTicks ≠ 0 := by
      rw [hp]
      exact Nat.one_ne_zero
    rcases hm.timer with ⟨spares, looked⟩ | ⟨hd, expired⟩
    · refine .early tick now ((spares.timer id own).trans timer) (fun on hd => ?_)
        (spares.timedOut.trans (timeless.timedOut t))
      cases (looked (List.mem_finRange id)).symm.trans (due.mpr ⟨on, hd⟩)
    · exact .fires tick now (due.mp hd) expired
  | n + 2 => trivial

theorem settle_passed {suspensions : Table (Suspension c) c.tasks.size} (hb : k.Between suspensions) (hw : k.Wired)
    {id : c.TimerId} (own : id.val = c.userTimers + t) :
    Ends settle k (fun _ l => l.Wired ∧ Passed t id k l) fun _ _ => True := by
  have taken : Timeless k { k with raised := Table.replicate _ false, pendingTicks := 0 } := .of_eq rfl rfl rfl
  have events : ∀ event ∈ k.raisedEvents, ∀ l, Settling k suspensions l ∧ Timeless k l →
      Ends (applyEvent event) l (fun _ l => Settling k suspensions l ∧ Timeless k l) fun _ _ => True := by
    intro event _ l hl
    refine ((hl.1.applyEvent event).and (applyEvent_timeless event)).mono (fun _ m hm => ?_) fun _ _ _ => trivial
    exact ⟨hm.1, hl.2.trans hm.2⟩
  rw [settle, ends_bind, ends_takePending hb.context_ne_outside hb.unmasked]
  refine Ends.bind (Ends.forM _ events _ ⟨.taken hb, taken⟩) fun _ l hl => ?_
  exact applyTicks_passed hl.1 hl.2 hw own

namespace Passed
variable {id : c.TimerId} (h : Passed t id k l) (own : id.val = c.userTimers + t)
include h

theorem now : l.now = k.now ∨ l.now = k.now + 1 := by
  cases h with
  | still spares => exact .inl spares.now
  | early tick now timer ahead timedOut => exact .inr now
  | fires tick now due expired => exact .inr now

theorem now_of_no_tick (hk : k.pendingTicks = 0) : l.now = k.now := by
  cases h with
  | still spares => exact spares.now
  | early tick | fires tick => exact absurd hk tick

include own

theorem off (hk : k.Off t) : l.Off t := by
  cases h with
  | still spares => exact spares.off hk
  | early tick now timer ahead timedOut =>
    intro id' own'
    obtain rfl : id' = id := Fin.ext (own'.trans own.symm)
    rw [timer]
    exact hk id' own'
  | fires tick now due expired => exact expired.off

/-- A timeout timer that is set to fire at the next tick fires if there is one. -/
theorem on {deadline : Ticks} (hk : k.On t deadline) : (l.now = k.now ∧ l.On t deadline) ∨
    (l.now = k.now + 1 ∧ ((deadline ≠ k.now + 1 ∧ l.On t deadline) ∨ (deadline = k.now + 1 ∧ Expired t l))) := by
  obtain ⟨enabled, expiry⟩ := hk.timer id own
  cases h with
  | still spares => exact .inl ⟨spares.now, spares.on hk⟩
  | early tick now timer ahead timedOut =>
    refine .inr ⟨now, .inl ⟨fun he => ahead enabled (expiry.trans he), fun id' own' => ?_, timedOut.trans hk.early⟩⟩
    obtain rfl : id' = id := Fin.ext (own'.trans own.symm)
    rw [timer]
    exact ⟨enabled, expiry⟩
  | fires tick now due expired => exact .inr ⟨now, .inr ⟨expiry.symm.trans due.2, expired⟩⟩

theorem expired (hk : Expired t k) (hr : l.isRunnable t = true) : Expired t l := by
  refine ⟨h.off own hk.off, ?_, hr⟩
  cases h with
  | still spares => exact spares.timedOut.trans hk.late
  | early tick now timer ahead timedOut => exact timedOut.trans hk.late
  | fires tick now due expired => exact expired.late

end Passed

end Kernel

end Rtos
