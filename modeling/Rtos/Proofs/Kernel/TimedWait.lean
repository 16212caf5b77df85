import Rtos.Proofs.Ticks
import Rtos.Proofs.Kernel.Plain

/-!
# Timed waits

* `Kernel.Round`: what one round of a wait for a request with a deadline comes to. Afterwards the timeout timer is off,
  or set to fire at the deadline.
* `perform_spares`, `resume_spares`: no other operation but `sleep` touches the timeout timer of a task.
* `Kernel.Alarmed`: the timeout timer of a task is off unless the task waits by it; this is what all operations of the
  task keep (`perform_alarmed`, `resume_alarmed`).
-/

namespace Rtos
set_option autoImplicit false

variable {c : Config}

/-- The wait ends at the given tick, if not before. A task that sleeps keeps no note of that tick itself. -/
def Wait.EndsAt (wait : Wait c) (d : Ticks) : Prop := wait = .sleep ∨ ∃ r, wait = .request r (some d)

namespace Kernel

variable {k l : Kernel c} {t u : c.TaskId} {r : Request c} {d : Ticks} {p : Progress c}

/-! ## Rounds -/

/-- One round of a wait for a request with a deadline. -/
inductive Round (t : c.TaskId) (k : Kernel c) (r : Request c) (d : Ticks) : Progress c → Kernel c → Prop
  | granted {l : Kernel c} (allowed : r.edit.Allowed t k) (resources : l.resources = (r.edit.apply t k).resources)
    (now : l.now = k.now) (off : l.Off t) : Round t k r d (.done (reply r true true (k.received r))) l
  | expires {l : Kernel c} (past : remaining? k.now d = none) (refused : k.Refuses t r)
    (resources : l.resources = k.resources) (now : l.now = k.now) (off : l.Off t) :
    Round t k r d (.done (reply r true false r.buffer)) l
  | waits {l : Kernel c} (ahead : ∃ left, remaining? k.now d = some left) (resources : l.resources = k.resources)
    (now : l.now = k.now) (on : l.On t d) : Round t k r d (.dispatch (.waiting (.request r (some d)))) l

theorem Pursued.round {k' : Kernel c} (h : Pursued t k' r (some d) p l) (hr : k'.resources = k.resources)
    (hn : k'.now = k.now) (off : k'.Off t) : Round t k r d p l := by
  cases h with
  | granted allowed =>
    have grant := timeless_grant k' t r
    have granted := Round.granted (d := d) (allowed_congr hr allowed) (resources_grant_congr hr r) (grant.now.trans hn)
      ((grant.spares t).off off)
    rw [received_congr hr]
    exact granted
  | expires timed past refused =>
    cases timed
    exact .expires (hn ▸ past) (refuses_congr hr refused) hr hn off
  | waits left armed stop =>
    have stopped := timeless_stops stop
    cases armed with
    | unlimited => cases left
    | limited timer own ticks =>
      have left := Option.some.inj left
      refine .waits ⟨ticks, hn ▸ left⟩ ((resources_stops stop).trans hr) (stopped.now.trans hn) ?_
      -- The timer is set anew for the rest of the time, which makes for the same deadline.
      rw [← add_of_remaining? left]
      exact (stopped.spares t).on (on_armed k' own ticks)

theorem Asks.round {call : Call} {timeout : Ticks} (h : Asks t k call p l)
    (hr : call.request? c = some (r, .upTo timeout)) (off : k.Off t) : Round t k r (k.now + timeout) p l := by
  obtain ⟨r', patience, request, _, _, asked⟩ := h
  cases hr.symm.trans request
  exact Pursued.round asked rfl rfl off

theorem round_spec (ht : c.tasks.size ≤ c.timerCount) (hr : k.running = some t)
    (stranger : ∀ x, r.mutex? = some x → k.holders[x] ≠ some t) (d : Ticks) :
    Ends (resume (.request r (some d))) k (Round t k r d) fun _ _ => True := by
  refine (pursueOn_spec ht hr stranger (some d)).mono (fun p l hl => ?_) fun _ _ _ => trivial
  obtain ⟨m, disarmed, pursued⟩ := hl
  have ended : Timeless m ((Edit.endWait r.object).apply t m) := timeless_edit m t rfl
  refine pursued.round ?_ (ended.now.trans disarmed.now) ((ended.spares t).off disarmed.off)
  exact (resources_noteWaiters _ _).trans disarmed.resources

/-! ## Operations that time no wait -/

theorem takeOrWait_spares (hr : k.running = some t) (set : SignalSet) :
    Ends (takeOrWait set) k (fun _ l => Spares u k l) fun _ _ => True := by
  simp only [takeOrWait, ends_bind, ends_takeSignals hr, ends_ite, ends_pure,
    ends_suspend (k := k.clearSignals t set) hr]
  have clear := Timeless.clearSignals k t set
  exact ⟨fun _ => (clear.spares u).trans (.of_eq rfl rfl rfl), fun _ => clear.spares u⟩

/-- A plain call spares all timeout timers. -/
theorem perform_spares (h : k.Ready t) {call : Call} (plain : call.IsPlain) :
    Ends (perform call) k (fun _ l => Spares u k l) fun _ _ => True := by
  refine (perform_plain h plain).mono (fun _ l hl => ?_) fun _ _ _ => trivial
  have spares := spares_changed k t u call
  rcases hl with rfl | rfl
  · exact spares
  · exact spares.trans (.of_eq rfl rfl rfl)

theorem resume_spares (hr : k.running = some t) {wait : Wait c} (hw : ∀ r d, wait ≠ .request r d) :
    Ends (resume wait) k (fun _ l => Spares u k l) fun _ _ => True := by
  cases wait with
  | block => exact .refl u k
  | sleep =>
    simp only [resume, sleepOn, ends_bind, ends_current_of_running hr, ends_get, ends_ite, ends_pure, ends_suspend hr]
    exact ⟨fun _ => .refl u k, fun _ => .of_eq rfl rfl rfl⟩
  | signals set => exact takeOrWait_spares hr set
  | request r d => exact absurd rfl (hw r d)

/-! ## All operations -/

/-- The timeout timer of the task is off, or the operation, as far as it got, waits by it. -/
inductive Alarmed (t : c.TaskId) (p : Progress c) (l : Kernel c) : Prop
  | off (off : l.Off t)
  | waits {wait : Wait c} {d : Ticks} (progress : p = .dispatch (.waiting wait)) (ends : wait.EndsAt d) (on : l.On t d)

theorem Round.now (h : Round t k r d p l) : l.now = k.now := by cases h <;> assumption

theorem Round.alarmed (h : Round t k r d p l) : Alarmed t p l := by
  cases h with
  | granted allowed resources now off => exact .off off
  | expires past refused resources now off => exact .off off
  | waits ahead resources now on => exact .waits rfl (.inr ⟨r, rfl⟩) on

theorem Pursued.spares (h : Pursued t k r none p l) : Spares u k l := by
  cases h with
  | granted allowed => exact (timeless_grant k t r).spares u
  | expires timed past refused => cases timed
  | @waits ticks m l left armed stop =>
    cases armed with
    | unlimited => exact (timeless_stops stop).spares u
    | limited timer own ticks => cases left

theorem Asked.alarmed {patience : Patience} (h : Asked t k r patience p l) (off : k.Off t) :
    l.now = k.now ∧ Alarmed t p l := by
  cases patience with
  | never =>
    obtain ⟨granted, message, rfl, attempted⟩ := h
    cases attempted with
    | granted allowed =>
      have grant := timeless_grant k t r
      exact ⟨grant.now, .off ((grant.spares t).off off)⟩
    | denied denied => exact ⟨rfl, .off off⟩
  | forever =>
    have spares : Spares t k l := Pursued.spares h
    exact ⟨spares.now, .off (spares.off off)⟩
  | upTo timeout =>
    have round : Round t k r (k.now + timeout) p l := Pursued.round h rfl rfl off
    exact ⟨round.now, round.alarmed⟩

theorem Sleeps.alarmed {ticks : Ticks} (h : Sleeps t k ticks p l) (off : k.Off t) : l.now = k.now ∧ Alarmed t p l := by
  cases h with
  | yields zero => exact ⟨rfl, .off off⟩
  | waits positive accepts timer own stop =>
    have stopped := timeless_stops stop
    exact ⟨stopped.now, .waits rfl (.inl rfl) ((stopped.spares t).on (on_armed k own ticks))⟩

theorem perform_alarmed (ht : c.tasks.size ≤ c.timerCount) (h : k.Ready t) (off : k.Off t) {call : Call}
    (hy : ∀ task, call ≠ .yieldTo task) :
    Ends (perform call) k (fun p l => l.now = k.now ∧ Alarmed t p l) fun _ _ => True := by
  by_cases ha : call.asks = true
  · refine (asks_spec ht h ha).mono (fun p l asks => ?_) fun _ _ _ => trivial
    obtain ⟨r, patience, _, _, _, asked⟩ := asks
    exact asked.alarmed off
  by_cases hs : ∃ ticks, call = .sleep ticks
  · obtain ⟨ticks, rfl⟩ := hs
    exact (sleep_spec ht h ticks).mono (fun p l sleeps => sleeps.alarmed off) fun _ _ _ => trivial
  · have plain : call.IsPlain := ⟨Bool.eq_false_iff.mpr ha, fun ticks he => hs ⟨ticks, he⟩, hy⟩
    refine (perform_spares (u := t) h plain).mono (fun p l spares => ?_) fun _ _ _ => trivial
    exact ⟨spares.now, .off (spares.off off)⟩

/-- A task that sleeps goes on sleeping, and leaves its timeout timer alone, as long as that has not fired. -/
theorem sleepOn_early (hr : k.running = some t) (early : k.tasks[t].timedOut = false) : Ends sleepOn k
    (fun p l => p = .dispatch (.waiting .sleep) ∧ l = { k with schedule := k.schedule.setBlocked t })
      fun _ _ => False := by
  simp only [sleepOn, ends_bind, ends_current_of_running hr, ends_get, ends_ite, ends_pure, ends_suspend hr, early]
  exact ⟨fun he => absurd he Bool.false_ne_true, fun _ => ⟨trivial, trivial⟩⟩

theorem sleepOn_late (hr : k.running = some t) (late : k.tasks[t].timedOut = true) :
    Ends sleepOn k (fun p l => p = .done .unit ∧ l = k) fun _ _ => False := by
  simp only [sleepOn, ends_bind, ends_current_of_running hr, ends_get, ends_ite, ends_pure, late]
  exact ⟨fun _ => ⟨trivial, trivial⟩, fun hn => absurd trivial hn⟩

/-- A task that goes on in a wait is kept from others by its timeout timer only if it waits by it. -/
theorem resume_alarmed (ht : c.tasks.size ≤ c.timerCount) (hr : k.running = some t) {wait : Wait c}
    (stranger : ∀ x, wait.mutex? = some x → k.holders[x] ≠ some t)
    (h : k.Off t ∨ ∃ d, wait.EndsAt d ∧ k.On t d) :
    Ends (resume wait) k (fun p l => l.now = k.now ∧ Alarmed t p l) fun _ _ => True := by
  have quiet : (∀ r d, wait ≠ .request r d) → k.Off t →
      Ends (resume wait) k (fun p l => l.now = k.now ∧ Alarmed t p l) fun _ _ => True := fun hw off =>
    (resume_spares (u := t) hr hw).mono (fun p l spares => ⟨spares.now, .off (spares.off off)⟩) fun _ _ _ => trivial
  cases wait with
  | block | signals set =>
    rcases h with off | ⟨d, (hw | ⟨r, hw⟩), _⟩
    · exact quiet nofun off
    · cases hw
    · cases hw
  | sleep =>
    rcases h with off | ⟨d, _, on⟩
    · exact quiet nofun off
    · refine (sleepOn_early hr on.early).mono (fun p l hl => ?_) fun _ _ _ => trivial
      obtain ⟨rfl, rfl⟩ := hl
      exact ⟨rfl, .waits rfl (.inl rfl) ⟨on.timer, on.early⟩⟩
  | request r deadline =>
    cases deadline with
    | some d =>
      exact (round_spec ht hr stranger d).mono (fun p l round => ⟨round.now, round.alarmed⟩) fun _ _ _ => trivial
    | none =>
      have off : k.Off t := by
        rcases h with off | ⟨d, (hw | ⟨r, hw⟩), _⟩
        · exact off
        · cases hw
        · cases hw
      refine (pursueOn_spec ht hr stranger none).mono (fun p l hl => ?_) fun _ _ _ => trivial
      obtain ⟨m, disarmed, pursued⟩ := hl
      cases disarmed with
      | unlimited =>
        have spares := ((timeless_edit k t (e := .endWait r.object) rfl).spares t).trans pursued.spares
        exact ⟨spares.now, .off (spares.off off)⟩

end Kernel

end Rtos
