import Rtos.Proofs.Kernel.Traffic

/-!
# Overflowing timers

* `Kernel.Meets`: the signal of a timer is still pending, at least in part.
* `fireIfDue_overflow`: the turn of a timer sets its flag just if the timer fires into a signal it meets.
* `settle_overflow`: the turns of the other timers make no difference to the flag.
* `turn?_signals`: the signals that are pending when a timer has its turn.
-/

namespace Rtos
set_option autoImplicit false

variable {c : Config}

namespace Kernel
open Traffic

variable {k l m : Kernel c} {id : c.TimerId} {suspensions : Table (Suspension c) c.tasks.size}

/-- The timer signals a task that has one of the signals pending. -/
def Meets (k : Kernel c) (id : c.TimerId) : Prop := ∃ (task : c.TaskId) (set : SignalSet),
  k.timers[id].effect = .user (.signal task set) ∧ k.pendingSignals task set ≠ 0

theorem pendingSignals_ne_zero_iff (k : Kernel c) (task : c.TaskId) (set : SignalSet) :
    k.pendingSignals task set ≠ 0 ↔ ∃ bit, set.has bit = true ∧ k.tasks[task].signals.has bit = true := by
  simp only [pendingSignals, ne_zero_iff_has, has_and, Bool.and_eq_true, and_comm]

/-! ## One turn -/

theorem fire_overflow (id : c.TimerId) (k : Kernel c) : Ends (fire id) k
    (fun _ l => l.timers[id].overflow = true ↔ k.timers[id].overflow = true ∨ k.Meets id) fun _ _ => True := by
  refine (ends_bind _ _).mpr (ends_get.mpr ?_)
  have other : (∀ task set, k.timers[id].effect ≠ .user (.signal task set)) → ¬ k.Meets id :=
    fun none ⟨task, set, effect, _⟩ => none task set effect
  split
  · next effect => simp [ends_pure, other fun task set he => by rw [effect] at he; cases he]
  · next task set effect =>
    simp only [ends_bind, ends_taskId, ends_get, ends_ite, ends_modify]
    refine ⟨fun hi => ⟨fun pending => ?_, fun clear => ?_⟩, fun _ => trivial⟩
    · have own : ((k.modifyTimer id fun t => { t with overflow := true }).sendSignals ⟨task, hi⟩ set).timers[id] =
          { k.timers[id] with overflow := true } := Table.getElem_set_self ..
      rw [own]
      exact ⟨fun _ => .inr ⟨⟨task, hi⟩, set, effect, pending⟩, fun _ => rfl⟩
    · refine ⟨.inl, fun h => h.resolve_right ?_⟩
      rintro ⟨task', set', effect', pending⟩
      cases effect.symm.trans effect'
      exact clear pending
  · trivial
  · next task effect =>
    have same : (k.timeOut task).timers = k.timers := rfl
    rw [ends_modify, same]
    simp [other fun task set he => by rw [effect] at he; cases he]

/-- The turn of a timer sets its flag if the timer fires while its signal is pending, and never clears it. -/
theorem fireIfDue_overflow (id : c.TimerId) (k : Kernel c) : Ends (fireIfDue id) k
    (fun _ l => l.timers[id].overflow = true ↔ k.timers[id].overflow = true ∨ (k.isDue id = true ∧ k.Meets id))
    fun _ _ => True := by
  simp only [fireIfDue, ends_bind, ends_get, ends_ite, ends_modify, ends_pure]
  constructor
  · intro due
    have rearmed : (k.rearm id).timers[id].overflow = k.timers[id].overflow ∧
        (k.rearm id).timers[id].effect = k.timers[id].effect := by
      rw [rearm, modifyTimer, Table.getElem_set_self]
      split <;> exact ⟨rfl, rfl⟩
    have meets : (k.rearm id).Meets id ↔ k.Meets id := by
      unfold Meets
      rw [rearmed.2]
      rfl
    refine (fire_overflow id (k.rearm id)).mono (fun _ l hl => ?_) fun _ _ _ => trivial
    rw [hl, rearmed.1, meets]
    simp [due]
  · intro idle
    simp [idle]

/-! ## The dispatcher -/

/-- What a tick makes of the flag of a timer is decided when the timer has its turn. -/
theorem settle_overflow (h : k.Between suspensions) (hs : settle k = .ok () l) (turn : k.turn? id = some m) :
    l.timers[id].overflow = true ↔ k.timers[id].overflow = true ∨ (m.isDue id = true ∧ m.Meets id) := by
  obtain ⟨one, _, same⟩ := turn?_spec h turn
  have come : comeTo id k = .ok () m := by
    rw [turn?, if_pos one] at turn
    split at turn
    · next come =>
      cases turn
      exact come
    · cases turn
  have after : ((List.finRange c.timerCount).drop (id + 1)).Nodup :=
    (List.nodup_finRange _).sublist (List.drop_sublist _ _)
  have apart : id ∉ (List.finRange c.timerCount).drop (id + 1) := by
    intro hi
    obtain ⟨i, hi, he⟩ := List.mem_drop_iff_getElem.mp hi
    have := congrArg Fin.val he
    rw [List.getElem_finRange] at this
    simp only [Fin.val_cast] at this
    omega
  have turns : Ends (do
      fireIfDue id
      ((List.finRange c.timerCount).drop (id + 1)).forM fireIfDue) m
      (fun _ l => l.timers[id].overflow = true ↔ m.timers[id].overflow = true ∨ (m.isDue id = true ∧ m.Meets id))
      fun _ _ => True := by
    refine Ends.bind (fireIfDue_overflow id m) fun _ m' own => (fireAll_timers after m').mono (fun _ l hl => ?_)
      fun _ _ h => h
    rw [hl.later id apart]
    exact own
  rw [settle_eq h one id, bind_ok come] at hs
  rw [← same]
  exact turns.of_result hs

/-- When a timer has its turn, the recorded events have been applied, and the timers before it have had theirs. -/
theorem turn?_signals (h : k.Between suspensions) (turn : k.turn? id = some m) (u : c.TaskId) :
    m.tasks[u].signals = deliver u k.tasks[u].signals (k.raisedEvents.filterMap eventTraffic? ++
      (((List.finRange c.timerCount).take id).filter fun id => k.timers[id].enabled ∧
        k.timers[id].expiry = k.now + 1).filterMap
        fun id => k.timers[id].traffic?) := by
  obtain ⟨one, _, _⟩ := turn?_spec h turn
  rw [turn?, if_pos one] at turn
  split at turn
  · next come =>
    cases turn
    have before : ((List.finRange c.timerCount).take id).Nodup :=
      (List.nodup_finRange _).sublist (List.take_sublist _ _)
    rw [comeTo, bind_ok (takePending_eq h)] at come
    exact (tick_signals before k.raisedEvents _).of_result come u
  · cases turn

end Kernel

end Rtos
