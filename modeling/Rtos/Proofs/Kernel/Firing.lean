import Rtos.Proofs.Kernel.Effects

/-!
# Firing

At a tick the dispatcher goes through the timers, in the order of the timer pool.

* `Kernel.comeTo`, `Kernel.turn?`: the kernel when a timer has its turn; `settle_eq` tells how the dispatcher goes on
  from there.
* `Ticked`: what the turns of some timers change. No timer is changed by the turn of another.
* `settle_timers`: what becomes of all timers when the dispatcher applies what was recorded.
* `turn?_spec`: so a timer finds itself as it was before the tick when it has its turn.
-/

namespace Rtos
set_option autoImplicit false

variable {c : Config}

/-- What the turn of a timer makes of it: if it is due, it is set to the end of its next period, or disabled if it has
none. -/
def TimerState.ticked (now : Ticks) (s : TimerState c) : TimerState c :=
  if s.enabled = true ∧ s.expiry = now then
    if s.reload = 0 then { s with enabled := false } else { s with expiry := now + s.reload }
  else s

theorem TimerState.ahead_ticked (now : Ticks) (s : TimerState c) : (s.ticked now).Ahead now := by
  unfold ticked
  split
  · split
    · exact nofun
    · next reload => exact fun _ => add_ne now reload
  · next idle => exact fun enabled due => idle ⟨enabled, due⟩

namespace Kernel

variable {k l m : Kernel c} {id : c.TimerId} {suspensions : Table (Suspension c) c.tasks.size}

/-! ## One timer -/

theorem isDue_iff (k : Kernel c) (id : c.TimerId) :
    k.isDue id = true ↔ k.timers[id].enabled = true ∧ k.timers[id].expiry = k.now := by
  rw [isDue, Bool.and_eq_true, beq_iff_eq]

/-- What some timers have become after their turns, and that the others are still the same. -/
structure Ticked (done : List c.TimerId) (k l : Kernel c) : Prop where
  now : l.now = k.now
  later : ∀ id, id ∉ done → l.timers[id] = k.timers[id]
  ticked : ∀ id, id ∈ done → ∃ overflow, l.timers[id] = { k.timers[id].ticked k.now with overflow := overflow }

theorem Ticked.nil (k : Kernel c) : Ticked [] k k := ⟨rfl, fun _ _ => rfl, nofun⟩

/-- Whatever a timer does when it fires, it changes no timer but itself. -/
theorem fire_timers (id : c.TimerId) (k : Kernel c) : Ends (fire id) k (fun _ l => l.now = k.now ∧
    (∀ other, other ≠ id → l.timers[other] = k.timers[other]) ∧
      ∃ overflow, l.timers[id] = { k.timers[id] with overflow := overflow }) fun _ _ => True := by
  refine (ends_bind _ _).mpr (ends_get.mpr ?_)
  split
  · exact ⟨rfl, fun _ _ => rfl, _, rfl⟩
  · next task set _ =>
    simp only [ends_bind, ends_taskId, ends_get, ends_ite, ends_modify]
    refine ⟨fun hi => ⟨fun _ => ⟨rfl, fun other hne => ?_, true, ?_⟩, fun _ => ⟨rfl, fun _ _ => rfl, _, rfl⟩⟩,
      fun _ => trivial⟩
    · exact Table.getElem_set_of_ne k.timers _ hne
    · exact Table.getElem_set_self ..
  · trivial
  · exact ⟨rfl, fun _ _ => rfl, _, rfl⟩

theorem fireIfDue_timers (id : c.TimerId) (k : Kernel c) :
    Ends (fireIfDue id) k (fun _ l => Ticked [id] k l) fun _ _ => True := by
  simp only [fireIfDue, ends_bind, ends_get, ends_ite, ends_modify, ends_pure, isDue_iff]
  constructor
  · intro due
    have own : (k.rearm id).timers[id] = k.timers[id].ticked k.now := by
      rw [rearm, modifyTimer, Table.getElem_set_self, TimerState.ticked, if_pos due]
    refine (fire_timers id (k.rearm id)).mono (fun _ l hl => ?_) fun _ _ _ => trivial
    obtain ⟨now, others, overflow, hl⟩ := hl
    refine ⟨now, fun other hn => ?_, fun other hi => ?_⟩
    · have hne : other ≠ id := fun he => hn (List.mem_singleton.mpr he)
      exact (others other hne).trans (Table.getElem_set_of_ne k.timers _ hne)
    · obtain rfl := List.mem_singleton.mp hi
      exact ⟨overflow, by rw [hl, own]⟩
  · intro idle
    refine ⟨rfl, fun _ _ => rfl, fun other hi => ?_⟩
    obtain rfl := List.mem_singleton.mp hi
    exact ⟨k.timers[other].overflow, by rw [TimerState.ticked, if_neg idle]⟩

/-! ## All timers -/

theorem Ticked.concat {done : List c.TimerId} (h : Ticked done k l) (hm : Ticked [id] l m) (new : id ∉ done) :
    Ticked (done ++ [id]) k m := by
  refine ⟨hm.now.trans h.now, fun other hn => ?_, fun other hi => ?_⟩
  · rw [List.mem_append, not_or] at hn
    exact (hm.later other hn.2).trans (h.later other hn.1)
  · by_cases he : other = id
    · subst he
      obtain ⟨overflow, own⟩ := hm.ticked other (List.mem_singleton.mpr rfl)
      exact ⟨overflow, by rw [own, h.now, h.later other new]⟩
    · have earlier := (List.mem_append.mp hi).resolve_right fun hs => he (List.mem_singleton.mp hs)
      rw [hm.later other fun hs => he (List.mem_singleton.mp hs)]
      exact h.ticked other earlier

theorem fireAll_timers {ids : List c.TimerId} (nodup : ids.Nodup) (k : Kernel c) :
    Ends (ids.forM fireIfDue) k (fun _ l => Ticked ids k l) fun _ _ => True := by
  refine Ends.forM_of_prefix (I := fun done l => Ticked done k l) ids (fun done id rest he l hl => ?_) k (.nil k)
  have new : id ∉ done := fun hi => by
    rw [he, List.nodup_append] at nodup
    exact nodup.2.2 id hi id List.mem_cons_self rfl
  exact (fireIfDue_timers id l).mono (fun _ m hm => hl.concat hm new) fun _ _ _ => trivial

/-! ## The dispatcher -/

theorem takePending_eq (h : k.Between suspensions) :
    takePending k =
      .ok (k.raisedEvents, k.pendingTicks) { k with raised := Table.replicate _ false, pendingTicks := 0 } :=
  Ends.eq_ok ((ends_takePending h.context_ne_outside h.unmasked).mpr ⟨rfl, rfl⟩)

theorem applyEvents_timeless (events : List c.EventId) (k : Kernel c) :
    Ends (events.forM applyEvent) k (fun _ l => Timeless k l) fun _ _ => True :=
  Ends.forM events (fun event _ _ hl => (applyEvent_timeless event).mono (fun _ _ hm => hl.trans hm)
    fun _ _ _ => trivial)
    k (.refl k)

/-- What happens before the tick is no matter of time. -/
theorem Ticked.of_timeless {done : List c.TimerId} (h : Ticked done { l with now := l.now + 1 } m)
    (hl : Timeless { k with raised := Table.replicate _ false, pendingTicks := 0 } l) :
    Ticked done { k with now := k.now + 1 } m := by
  have now : l.now = k.now := hl.now
  have timers : l.timers = k.timers := hl.timers
  constructor
  · rw [h.now, now]
  · intro id hn
    rw [h.later id hn, timers]
  · intro id hi
    obtain ⟨overflow, own⟩ := h.ticked id hi
    exact ⟨overflow, by rw [own, now, timers]⟩

/-- No timer changes unless a tick is applied, and then every timer has its turn once. -/
theorem settle_timers (h : k.Between suspensions) : Ends settle k
    (fun _ l => (k.pendingTicks = 0 ∧ l.now = k.now ∧ l.timers = k.timers) ∨
      (k.pendingTicks = 1 ∧ Ticked (List.finRange c.timerCount) { k with now := k.now + 1 } l)) fun _ _ => True := by
  rw [settle, ends_bind, ends_takePending h.context_ne_outside h.unmasked]
  refine Ends.bind (applyEvents_timeless k.raisedEvents _) fun _ l hl => ?_
  rcases hp : k.pendingTicks with _ | _ | n
  · exact .inl ⟨rfl, hl.now, hl.timers⟩
  · refine (fireAll_timers (List.nodup_finRange _) { l with now := l.now + 1 }).mono (fun _ m hm => .inr ⟨rfl, ?_⟩)
      fun _ _ h => h
    obtain ⟨now, later, ticked⟩ := hm.of_timeless hl
    exact ⟨now, later, ticked⟩
  · trivial

/-! ## The turn of a timer -/

/-- Apply the recorded events, advance the tick counter, and give the timers before the given one their turns. -/
def comeTo (id : c.TimerId) : Action c Unit := do
  let (events, _) ← takePending
  events.forM applyEvent
  modify fun k => { k with now := k.now + 1 }
  ((List.finRange c.timerCount).take id).forM fireIfDue

/-- The kernel when a timer has its turn, if there is a tick to be applied and nothing goes wrong before. -/
def turn? (k : Kernel c) (id : c.TimerId) : Option (Kernel c) :=
  if k.pendingTicks = 1 then
    match comeTo id k with
    | .ok _ l => some l
    | .error _ _ => none
  else none

/-- The dispatcher comes to a timer, gives it its turn, and goes on with the timers after it. -/
theorem settle_eq (h : k.Between suspensions) (one : k.pendingTicks = 1) (id : c.TimerId) : settle k = (do
    comeTo id
    fireIfDue id
    ((List.finRange c.timerCount).drop (id + 1)).forM fireIfDue : Action c Unit) k := by
  have inside : id.val < (List.finRange c.timerCount).length := by
    rw [List.length_finRange]
    exact id.isLt
  have pool : List.finRange c.timerCount =
      (List.finRange c.timerCount).take id ++ id :: (List.finRange c.timerCount).drop (id + 1) := by
    conv_lhs => rw [← List.take_append_drop id.val (List.finRange c.timerCount), List.drop_eq_getElem_cons inside]
    rw [List.getElem_finRange]
    rfl
  have turns : processTick (c := c) = (do
      modify fun k => { k with now := k.now + 1 }
      ((List.finRange c.timerCount).take id).forM fireIfDue
      fireIfDue id
      ((List.finRange c.timerCount).drop (id + 1)).forM fireIfDue) := by
    rw [processTick]
    conv_lhs => rw [pool]
    simp only [List.forM_eq_forM, List.forM_append, List.forM_cons]
  simp only [settle, comeTo, bind_assoc]
  rw [bind_ok (takePending_eq h), bind_ok (takePending_eq h), one]
  simp only [applyTicks, turns]

/-- If the dispatcher goes on after a tick, every timer has had its turn. -/
theorem exists_turn (h : k.Between suspensions) (one : k.pendingTicks = 1) (hs : settle k = .ok () l) (id : c.TimerId) :
    ∃ m, k.turn? id = some m := by
  rw [settle_eq h one id] at hs
  unfold turn?
  rw [if_pos one]
  cases hc : comeTo id k with
  | ok _ m => exact ⟨m, rfl⟩
  | error ending m =>
    rw [bind_error hc] at hs
    cases hs

theorem comeTo_timers (h : k.Between suspensions) (id : c.TimerId) : Ends (comeTo id) k
    (fun _ l => Ticked ((List.finRange c.timerCount).take id) { k with now := k.now + 1 } l) fun _ _ => True := by
  rw [comeTo, ends_bind, ends_takePending h.context_ne_outside h.unmasked]
  refine Ends.bind (applyEvents_timeless k.raisedEvents _) fun _ l hl => ?_
  refine (ends_bind _ _).mpr ((ends_modify _).mpr ?_)
  have nodup : ((List.finRange c.timerCount).take id).Nodup := (List.nodup_finRange _).sublist (List.take_sublist _ _)
  exact (fireAll_timers nodup { l with now := l.now + 1 }).mono (fun _ m hm => hm.of_timeless hl) fun _ _ h => h

/-- When a timer has its turn, the tick has been counted, and the timer is as it was before. -/
theorem turn?_spec (h : k.Between suspensions) (hl : k.turn? id = some l) :
    k.pendingTicks = 1 ∧ l.now = k.now + 1 ∧ l.timers[id] = k.timers[id] := by
  unfold turn? at hl
  obtain ⟨one, hl⟩ := Option.ite_none_right_eq_some.mp hl
  cases hc : comeTo id k with
  | ok _ m =>
    rw [hc] at hl
    cases hl
    have ticked := (comeTo_timers h id).of_result hc
    refine ⟨one, ticked.now, ticked.later id fun hi => ?_⟩
    obtain ⟨i, hi, he⟩ := List.mem_take_iff_getElem.mp hi
    rw [List.getElem_finRange] at he
    have := congrArg Fin.val he
    simp only [Fin.val_cast] at this
    omega
  | error ending m =>
    rw [hc] at hl
    cases hl

end Kernel

end Rtos
