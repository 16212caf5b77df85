import Rtos.Proofs.Kernel.Plain

/-!
# What operations do to timers and to signals

* `Retains`: no tick passes, and neither the timers of the application nor the signals change. So it is with every
  request, with sleeping, and when a task goes on in such a wait.
* `perform_timers`, `resume_timers`: an operation changes a timer of the application only if it is about that timer.
* `Kernel.Ahead`: no timer that is enabled is set to the current tick. All operations keep that.
-/

namespace Rtos
set_option autoImplicit false

variable {c : Config}

/-- Whether a change is one to signals. -/
def Edit.signals : Edit c → Bool
  | .send _ _ | .clear _ => true
  | _ => false

namespace Kernel

variable {k l m : Kernel c} {t u : c.TaskId} {r : Request c} {p : Progress c} {call : Call} {wait : Wait c}

/-! ## Signals -/

theorem signals_modifyTask (k : Kernel c) (t u : c.TaskId) {f : TaskState c → TaskState c}
    (hf : ∀ s, (f s).signals = s.signals) : (k.modifyTask t f).tasks[u].signals = k.tasks[u].signals := by
  by_cases hu : u = t
  · rw [hu, modifyTask_self, hf]
  · rw [modifyTask_ne k f hu]

theorem signals_noteWaiters (k : Kernel c) (o : WaitObject c) (u : c.TaskId) :
    (k.noteWaiters o).tasks[u].signals = k.tasks[u].signals := by
  cases o <;> rfl

theorem signals_clearSignals (k : Kernel c) (t u : c.TaskId) (set : SignalSet) :
    (k.clearSignals t set).tasks[u].signals = if u = t then k.tasks[u].signals &&& ~~~set else k.tasks[u].signals := by
  by_cases hu : u = t
  · subst hu
    rw [if_pos rfl]
    exact congrArg TaskState.signals (k.modifyTask_self u fun s => { s with signals := s.signals &&& ~~~set })
  · rw [if_neg hu]
    exact congrArg TaskState.signals (k.modifyTask_ne (fun s => { s with signals := s.signals &&& ~~~set }) hu)

theorem signals_sendSignals (k : Kernel c) (t u : c.TaskId) (set : SignalSet) :
    (k.sendSignals t set).tasks[u].signals = if u = t then k.tasks[u].signals ||| set else k.tasks[u].signals := by
  by_cases hu : u = t
  · subst hu
    rw [if_pos rfl]
    exact congrArg TaskState.signals (k.modifyTask_self u fun s => { s with signals := s.signals ||| set })
  · rw [if_neg hu]
    exact congrArg TaskState.signals (k.modifyTask_ne (fun s => { s with signals := s.signals ||| set }) hu)

theorem signals_edit (k : Kernel c) (t u : c.TaskId) {e : Edit c} (he : e.signals = false) :
    (e.apply t k).tasks[u].signals = k.tasks[u].signals := by
  have woken : ∀ (l : Kernel c) (o : WaitObject c), l.tasks = k.tasks →
      (l.wakeWaiters o).tasks[u].signals = k.tasks[u].signals := fun l o same => by
    rw [signals_wakeWaiters, same]
  cases e with
  | enter | record event | takeToken semaphore | setMax semaphore max | take mutex | rouse task | timer id change => rfl
  | refresh =>
    obtain ⟨s, refreshed, _⟩ := k.refresh_eq
    rw [Edit.apply, refreshed]
  | send task set | clear set => cases he
  | resetTimeout => exact signals_modifyTask k t u fun _ => rfl
  | release mutex => exact signals_wakeLockers _ mutex u
  | addToken semaphore value =>
    rw [Edit.apply]
    split
    · exact woken _ _ rfl
    · rfl
  | store q message =>
    have stored : ((k.copyIn message (k.slotStart q (k.tailSlot q))).pushed q).tasks = k.tasks := by
      cases message <;> rfl
    simp only [Edit.apply]
    split
    · exact woken _ _ stored
    · exact congrArg (fun tasks : Table (TaskState c) c.tasks.size => tasks[u].signals) stored
  | fetch q message =>
    have fetched : ((k.copyOut message (k.slotStart q k.rings[q].head)).1.popped q).tasks = k.tasks := by
      cases message <;> rfl
    simp only [Edit.apply]
    split
    · exact woken _ _ fetched
    · exact congrArg (fun tasks : Table (TaskState c) c.tasks.size => tasks[u].signals) fetched
  | endWait o => exact (signals_noteWaiters _ o u).trans (signals_modifyTask k t u fun _ => rfl)

theorem signals_stops {s : Suspension c} (h : Stops t k s l) (u : c.TaskId) :
    l.tasks[u].signals = k.tasks[u].signals := by
  cases h with
  | yields | suspends wait other => rfl
  | awaits r deadline refused => exact (signals_noteWaiters _ r.object u).trans (signals_modifyTask k t u fun _ => rfl)

/-! ## What waiting leaves alone -/

/-- No tick passes, and neither a timer of the application nor a signal changes. -/
structure Retains (k l : Kernel c) : Prop where
  now : l.now = k.now
  timers : ∀ id : c.TimerId, id.val < c.userTimers → l.timers[id] = k.timers[id]
  signals : ∀ u : c.TaskId, l.tasks[u].signals = k.tasks[u].signals

namespace Retains

theorem refl (k : Kernel c) : Retains k k := ⟨rfl, fun _ _ => rfl, fun _ => rfl⟩

theorem trans (h : Retains k l) (h' : Retains l m) : Retains k m :=
  ⟨h'.now.trans h.now, fun id hi => (h'.timers id hi).trans (h.timers id hi),
    fun u => (h'.signals u).trans (h.signals u)⟩

theorem of_timeless (h : Timeless k l) (hs : ∀ u : c.TaskId, l.tasks[u].signals = k.tasks[u].signals) : Retains k l :=
  ⟨h.now, fun _ _ => by rw [h.timers], hs⟩

theorem edit (k : Kernel c) (t : c.TaskId) {e : Edit c} (ht : e.times = false) (hs : e.signals = false) :
    Retains k (e.apply t k) :=
  of_timeless (timeless_edit k t ht) fun u => signals_edit k t u hs

theorem grant (k : Kernel c) (t : c.TaskId) (r : Request c) : Retains k (r.edit.apply t k) := by
  cases r <;> exact edit k t rfl rfl

theorem stops {s : Suspension c} (h : Stops t k s l) : Retains k l := of_timeless (timeless_stops h) (signals_stops h)

theorem modifyTimer (k : Kernel c) {id : c.TimerId} (own : id.val = c.userTimers + t)
    (f : TimerState c → TimerState c) :
    Retains k (k.modifyTimer id f) := by
  refine ⟨rfl, fun other hi => ?_, fun _ => rfl⟩
  exact Table.getElem_set_of_ne k.timers _ fun he => by rw [he] at hi; omega

theorem arming (k : Kernel c) {id : c.TimerId} (own : id.val = c.userTimers + t) (ticks : Ticks) :
    Retains k (k.armed t id ticks) := by
  have reset : Retains k (k.modifyTask t fun s => { s with timedOut := false }) :=
    ⟨rfl, fun _ _ => rfl, fun u => signals_modifyTask k t u fun _ => rfl⟩
  exact reset.trans (modifyTimer _ own _)

theorem armed {ticks : Option Ticks} (h : Armed t k ticks l) : Retains k l := by
  cases h with
  | unlimited => exact refl k
  | limited timer own ticks => exact arming k own ticks

theorem disarmed {deadline : Option Ticks} (h : Disarmed t k deadline l) : Retains k l := by
  cases h with
  | unlimited => exact refl k
  | limited timer own deadline => exact modifyTimer k own _

theorem pursued {deadline : Option Ticks} (h : Pursued t k r deadline p l) : Retains k l := by
  cases h with
  | granted allowed => exact grant k t r
  | expires timed past refused => exact refl k
  | waits left set stop => exact (armed set).trans (stops stop)

theorem asked {patience : Patience} (h : Asked t k r patience p l) : Retains k l := by
  cases patience with
  | never =>
    obtain ⟨granted, message, rfl, attempted⟩ := h
    cases attempted with
    | granted allowed => exact grant k t r
    | denied denied => exact refl k
  | forever => exact pursued h
  | upTo timeout => exact pursued h

theorem sleeps {ticks : Ticks} (h : Sleeps t k ticks p l) : Retains k l := by
  cases h with
  | yields zero => exact refl k
  | waits positive accepts timer own stop => exact (arming k own ticks).trans (stops stop)

end Retains

/-- Requests and sleeping leave timers of the application and signals alone. -/
theorem perform_retains (ht : c.tasks.size ≤ c.timerCount) (h : k.Ready t)
    (waits : call.asks = true ∨ ∃ ticks, call = .sleep ticks) :
    Ends (perform call) k (fun _ l => Retains k l) fun _ _ => True := by
  have entered : Retains k k.entered := .edit k t (e := .enter) rfl rfl
  rcases waits with asks | ⟨ticks, rfl⟩
  · refine (asks_spec ht h asks).mono (fun p l asks => ?_) fun _ _ _ => trivial
    obtain ⟨r, patience, _, _, _, asked⟩ := asks
    exact entered.trans (.asked asked)
  · exact (sleep_spec ht h ticks).mono (fun p l sleeps => entered.trans (.sleeps sleeps)) fun _ _ _ => trivial

/-- So does going on in any wait but one for signals. -/
theorem resume_retains (ht : c.tasks.size ≤ c.timerCount) (hr : k.running = some t)
    (stranger : ∀ x, wait.mutex? = some x → k.holders[x] ≠ some t) (other : ∀ set, wait ≠ .signals set) :
    Ends (resume wait) k (fun _ l => Retains k l) fun _ _ => True := by
  have blocked : Retains k { k with schedule := k.schedule.setBlocked t } := ⟨rfl, fun _ _ => rfl, fun _ => rfl⟩
  cases wait with
  | block => exact .refl k
  | sleep =>
    simp only [resume, sleepOn, ends_bind, ends_current_of_running hr, ends_get, ends_ite, ends_pure, ends_suspend hr]
    exact ⟨fun _ => .refl k, fun _ => blocked⟩
  | signals set => exact absurd rfl (other set)
  | request r deadline =>
    refine (pursueOn_spec ht hr stranger deadline).mono (fun p l hl => ?_) fun _ _ _ => trivial
    obtain ⟨m, disarmed, pursued⟩ := hl
    exact ((Retains.disarmed disarmed).trans (.edit m t (e := .endWait r.object) rfl rfl)).trans (.pursued pursued)

/-! ## Timers -/

theorem retimed_of_waits (now : Ticks) (id : c.TimerId) (s : TimerState c)
    (waits : call.asks = true ∨ ∃ ticks, call = .sleep ticks) : call.retimed now id s = s := by
  rcases waits with asks | ⟨ticks, rfl⟩
  · cases call <;> first | rfl | cases asks
  · rfl

/-- An operation changes a timer of the application only if it is about that timer. -/
theorem perform_timers (ht : c.tasks.size ≤ c.timerCount) (h : k.Ready t) (hy : ∀ task, call ≠ .yieldTo task) :
    Ends (perform call) k (fun _ l => ∀ id : c.TimerId, id.val < c.userTimers →
      l.timers[id] = call.retimed k.now id k.timers[id]) fun _ _ => True := by
  rcases call.waits_or_plain hy with waits | plain
  · refine (perform_retains ht h waits).mono (fun _ l retains id user => ?_) fun _ _ _ => trivial
    rw [retains.timers id user, retimed_of_waits k.now id _ waits]
  · refine (perform_plain h plain).mono (fun _ l hl id user => ?_) fun _ _ _ => trivial
    have same : l.timers = (k.changed t call).timers := by rcases hl with rfl | rfl <;> rfl
    rw [same]
    cases hc : call.change? (c := c) k.now with
    | none =>
      rw [(timeless_changed t hc).timers, Call.retimed, hc]
    | some made =>
      obtain ⟨timer, change⟩ := made
      rw [timers_changed k t hc, Call.retimed, hc]
      by_cases he : timer = id
      · rw [if_pos ⟨he, he ▸ user⟩]
        exact (if_pos he).symm
      · rw [if_neg fun both => he both.1]
        exact (if_neg he).symm

theorem resume_timers (ht : c.tasks.size ≤ c.timerCount) (hr : k.running = some t)
    (stranger : ∀ x, wait.mutex? = some x → k.holders[x] ≠ some t) : Ends (resume wait) k
      (fun _ l => ∀ id : c.TimerId, id.val < c.userTimers → l.timers[id] = k.timers[id]) fun _ _ => True := by
  by_cases hw : ∃ set, wait = .signals set
  · obtain ⟨set, rfl⟩ := hw
    simp only [resume, takeOrWait, ends_bind, ends_takeSignals hr, ends_ite, ends_pure,
      ends_suspend (k := k.clearSignals t set) hr]
    exact ⟨fun _ _ _ => rfl, fun _ _ _ => rfl⟩
  · exact (resume_retains ht hr stranger fun set he => hw ⟨set, he⟩).mono (fun _ _ retains => retains.timers)
      fun _ _ _ => trivial

/-! ## Timers lie ahead -/

/-- No timer that is enabled, be it one of the application or a timeout timer, is set to the current tick. -/
def Ahead (k : Kernel c) : Prop := ∀ id : c.TimerId, k.timers[id].Ahead k.now

namespace Ahead

theorem of_eq (h : k.Ahead) (hn : l.now = k.now) (ht : l.timers = k.timers) : l.Ahead := fun id => by
  rw [hn, ht]
  exact h id

theorem modifyTimer (h : k.Ahead) (id : c.TimerId) {f : TimerState c → TimerState c}
    (hf : ∀ s, s.Ahead k.now → (f s).Ahead k.now) :
    (k.modifyTimer id f).Ahead := by
  intro other
  by_cases he : other = id
  · subst he
    rw [show (k.modifyTimer other f).timers[other] = f k.timers[other] from Table.getElem_set_self ..]
    exact hf _ (h other)
  · rw [show (k.modifyTimer id f).timers[other] = k.timers[other] from Table.getElem_set_of_ne k.timers _ he]
    exact h other

theorem edit (h : k.Ahead) (t : c.TaskId) {e : Edit c} (he : e.times = false) : (e.apply t k).Ahead :=
  h.of_eq (timeless_edit k t he).now (timeless_edit k t he).timers

theorem grant (h : k.Ahead) (t : c.TaskId) (r : Request c) : (r.edit.apply t k).Ahead :=
  h.of_eq (timeless_grant k t r).now (timeless_grant k t r).timers

theorem stops (h : k.Ahead) {s : Suspension c} (hs : Stops t k s l) : l.Ahead :=
  h.of_eq (timeless_stops hs).now (timeless_stops hs).timers

theorem arming (h : k.Ahead) (t : c.TaskId) (id : c.TimerId) {ticks : Ticks} (positive : ticks ≠ 0) :
    (k.armed t id ticks).Ahead := by
  have reset : (k.modifyTask t fun s => { s with timedOut := false }).Ahead := h.of_eq rfl rfl
  exact reset.modifyTimer id fun _ _ _ => add_ne k.now positive

theorem disarmed (h : k.Ahead) {deadline : Option Ticks} (hd : Disarmed t k deadline l) : l.Ahead := by
  cases hd with
  | unlimited => exact h
  | limited timer own deadline => exact h.modifyTimer timer fun _ _ => nofun

theorem pursued (h : k.Ahead) {deadline : Option Ticks} (hp : Pursued t k r deadline p l) : l.Ahead := by
  cases hp with
  | granted allowed => exact h.grant t r
  | expires timed past refused => exact h
  | @waits ticks m l left armed stop =>
    cases armed with
    | unlimited => exact h.stops stop
    | limited timer own ticks =>
      obtain ⟨d, _, left⟩ := Option.map_eq_some_iff.mp left
      exact (h.arming t timer (ne_zero_of_remaining? left)).stops stop

theorem asked (h : k.Ahead) {patience : Patience} (ha : Asked t k r patience p l) : l.Ahead := by
  cases patience with
  | never =>
    obtain ⟨granted, message, rfl, attempted⟩ := ha
    cases attempted with
    | granted allowed => exact h.grant t r
    | denied denied => exact h
  | forever => exact h.pursued ha
  | upTo timeout => exact h.pursued ha

theorem sleeps (h : k.Ahead) {ticks : Ticks} (hs : Sleeps t k ticks p l) : l.Ahead := by
  cases hs with
  | yields zero => exact h
  | waits positive accepts timer own stop => exact (h.arming t timer positive).stops stop

theorem changed (h : k.Ahead) (t : c.TaskId) (call : Call) : (k.changed t call).Ahead := by
  have entered : k.entered.Ahead := h.of_eq rfl rfl
  cases hc : call.change? (c := c) k.now with
  | none => exact h.of_eq (timeless_changed t hc).now (timeless_changed t hc).timers
  | some made =>
    obtain ⟨timer, change⟩ := made
    by_cases hi : timer < c.userTimers
    · rw [changed_timer k t hc hi]
      exact entered.modifyTimer _ fun s ahead => ahead.change? hc
    · rw [changed_of_missing k t hc hi]
      exact entered

theorem perform (h : k.Ahead) (ht : c.tasks.size ≤ c.timerCount) (ready : k.Ready t)
    (hy : ∀ task, call ≠ .yieldTo task) :
    Ends (perform call) k (fun _ l => l.Ahead) fun _ _ => True := by
  have entered : k.entered.Ahead := h.of_eq rfl rfl
  rcases call.waits_or_plain hy with (asks | ⟨ticks, rfl⟩) | plain
  · refine (asks_spec ht ready asks).mono (fun p l asks => ?_) fun _ _ _ => trivial
    obtain ⟨r, patience, _, _, _, asked⟩ := asks
    exact entered.asked asked
  · exact (sleep_spec ht ready ticks).mono (fun p l sleeps => entered.sleeps sleeps) fun _ _ _ => trivial
  · refine (perform_plain ready plain).mono (fun _ l hl => ?_) fun _ _ _ => trivial
    have changed := h.changed t call
    rcases hl with rfl | rfl
    · exact changed
    · exact changed.of_eq rfl rfl

theorem resume (h : k.Ahead) (ht : c.tasks.size ≤ c.timerCount) (hr : k.running = some t)
    (stranger : ∀ x, wait.mutex? = some x → k.holders[x] ≠ some t) :
    Ends (resume wait) k (fun _ l => l.Ahead) fun _ _ => True := by
  cases wait with
  | block => exact h
  | sleep =>
    simp only [Kernel.resume, sleepOn, ends_bind, ends_current_of_running hr, ends_get, ends_ite, ends_pure,
      ends_suspend hr]
    exact ⟨fun _ => h, fun _ => h.of_eq rfl rfl⟩
  | signals set =>
    simp only [Kernel.resume, takeOrWait, ends_bind, ends_takeSignals hr, ends_ite, ends_pure,
      ends_suspend (k := k.clearSignals t set) hr]
    exact ⟨fun _ => h.of_eq rfl rfl, fun _ => h.of_eq rfl rfl⟩
  | request r deadline =>
    refine (pursueOn_spec ht hr stranger deadline).mono (fun p l hl => ?_) fun _ _ _ => trivial
    obtain ⟨m, disarmed, pursued⟩ := hl
    exact ((h.disarmed disarmed).edit t (e := .endWait r.object) rfl).pursued pursued

end Ahead

end Kernel

end Rtos
