import Rtos.Proofs.CeilingDecision
import Rtos.Proofs.InheritanceProtocol
import Rtos.Proofs.Kernel.Steady

/-!
# Choices in two runs

In one of two runs a task may be runnable that is not in the other one. If the policy does not choose that very task, it
makes the same choice in both: whoever else is chosen stays the most urgent one when there are fewer to choose from.

* `Scheduled.nobody_runnable`: the policy chooses no task only if there is none to choose.
* `Alike.decision`: the choices in alike states.
-/

namespace Rtos
set_option autoImplicit false

variable {c : Config}

/-! ## The row of slots -/

namespace SlotTable

variable {n m : Nat} {s s' : SlotTable n m} {holders : Table (Option (Fin n)) m} {t : Fin n}

/-- If fewer tasks are runnable, the scan still finds the task that it found, unless that is one of those that are
not. -/
theorem Finds.of_fewer (hf : s.Finds t) (h : s.Tracks holders) (h' : s'.Tracks holders) (hl : s.Laid) (hl' : s'.Laid)
    (tasks : s'.taskSlot = s.taskSlot) (mutexes : s'.mutexSlot = s.mutexSlot)
    (fewer : ∀ u, s'.isRunnable u = true → s.isRunnable u = true) (ht : s'.isRunnable t = true) : s'.Finds t := by
  obtain ⟨slot, hs, speaks, silent⟩ := hf
  have same : s'.spokesman? slot = some s'.taskSlot[t] := by
    rcases hl.slot_cases hs with ⟨v, rfl⟩ | ⟨x, rfl⟩
    · rw [h.spokesman?_task] at speaks
      split at speaks
      · obtain rfl := hl.taskSlot_inj (Option.some.inj speaks)
        rw [← tasks, h'.spokesman?_task, if_pos ht]
      · cases speaks
    · rw [h.spokesman?_mutex hl] at speaks
      rw [← mutexes, h'.spokesman?_mutex hl']
      split at speaks
      · cases speaks
      · next v hv =>
        split at speaks
        · obtain rfl := hl.taskSlot_inj (Option.some.inj speaks)
          exact if_pos ht
        · cases speaks
  have short : slot < s'.lockedBy.size := by
    rcases hl.slot_cases hs with ⟨v, rfl⟩ | ⟨x, rfl⟩
    · exact tasks ▸ hl'.taskSlot_lt v
    · exact mutexes ▸ hl'.mutexSlot_lt x
  refine ⟨slot, short, same, fun j hj => ?_⟩
  have none := silent j hj
  rcases hl'.slot_cases (Nat.lt_trans hj short) with ⟨v, rfl⟩ | ⟨x, rfl⟩
  · rw [tasks, h.spokesman?_task] at none
    rw [h'.spokesman?_task]
    exact if_neg fun hv => by cases (if_pos (fewer v hv)).symm.trans none
  · rw [mutexes, h.spokesman?_mutex hl] at none
    rw [h'.spokesman?_mutex hl']
    split
    · rfl
    · next v hv =>
      simp only [hv] at none
      exact if_neg fun hr => by cases (if_pos (fewer v hr)).symm.trans none

end SlotTable

namespace Kernel

variable {k l : Kernel c} {t u : c.TaskId} {spurious inStep : Prop}

/-- If the policy chooses no task, there is none to choose. -/
theorem Scheduled.nobody_runnable (h : k.Scheduled) (hd : k.decision = .ok none) (t : c.TaskId) :
    k.isRunnable t = false := by
  cases hs : k.schedule with
  | strict runnable =>
    rw [decision_strict hs] at hd
    have none := List.find?_eq_none.mp (Except.ok.inj hd) t (List.mem_finRange t)
    rw [isRunnable, hs]
    exact Bool.eq_false_iff.mpr none
  | ceiling slots =>
    have fits := h.fits
    rw [hs] at fits
    exact h.not_runnable_of_decision fits.1 hd
  | inheritance runnable priorities stale =>
    have fits := h.fits
    rw [hs] at fits
    rcases h.choice_inheritance fits with ⟨_, nobody⟩ | ⟨u, chosen, _⟩
    · exact nobody t
    · cases hd.symm.trans chosen

namespace Alike
variable (h : Alike t spurious inStep k l)
include h

theorem runnable_of (hu : l.isRunnable u = true) : k.isRunnable u = true := by
  rcases h.runnable u with same | ⟨_, runnable, _⟩
  · exact same.trans hu
  · exact runnable

theorem chain_of {u v : c.TaskId} (hc : k.Chain u v) : l.Chain u v := by
  refine Relation.ReflTransGen.mono (fun x y hxy => ?_) u v hc
  obtain ⟨blocked, hx⟩ := hxy
  refine ⟨Bool.eq_false_iff.mpr fun hr => Bool.eq_false_iff.mp blocked (h.runnable_of hr), ?_⟩
  obtain ⟨_, _, _, rfl, _⟩ := h.rest
  exact hx

/-- A chain that is a chain in the second state only leads through the task that is runnable in the first one. -/
theorem chain {u v : c.TaskId} (hc : l.Chain u v) : k.Chain u v ∨ (k.Chain u t ∧ k.isRunnable t = true) := by
  induction hc with
  | refl => exact .inl .refl
  | @tail x y _ hxy ih =>
    obtain ⟨blocked, hx⟩ := hxy
    rcases ih with hux | through
    · rcases h.runnable x with same | ⟨rfl, runnable, _⟩
      · refine .inl (hux.tail ⟨same.trans blocked, ?_⟩)
        obtain ⟨_, _, _, rfl, _⟩ := h.rest
        exact hx
      · exact .inr ⟨hux, runnable⟩
    · exact .inr through

/-! ## The choice -/

theorem decision_of_inheritance (hk : k.Scheduled) (hl : l.Scheduled) (hp : c.policy = .inheritance)
    (hd : k.decision = .ok (some u)) (hu : l.isRunnable u = true) : l.decision = .ok (some u) := by
  obtain ⟨_, v, hv, least⟩ := hk.chain_of_decision hp hd
  refine (hl.choose_iff (some u)).mp
    (((hl.inheritsExactly hp).chosen u).mpr ⟨hu, v, h.chain_of hv, fun w s hw hs => ?_⟩)
  rcases h.chain hw with same | ⟨through, runnable⟩
  · exact least w s same (h.runnable_of hs)
  · exact least w t through runnable

theorem decision_of_ceiling (hk : k.Scheduled) (hl : l.Scheduled) (hp : c.policy = .ceiling)
    (hd : k.decision = .ok (some u)) (hu : l.isRunnable u = true) : l.decision = .ok (some u) := by
  obtain ⟨s, hs, laid, tasks, mutexes, tracks⟩ := hk.exists_slots hp
  obtain ⟨s', hs', laid', tasks', mutexes', tracks'⟩ := hl.exists_slots hp
  have holders : l.holders = k.holders := by
    obtain ⟨_, _, _, rfl, _⟩ := h.rest
    rfl
  rw [holders] at tracks'
  have runs : ∀ v, s'.isRunnable v = true → s.isRunnable v = true := fun v hv => by
    have runnable := h.runnable_of (u := v)
    rw [isRunnable, hs', isRunnable, hs] at runnable
    exact runnable hv
  rw [isRunnable, hs'] at hu
  rw [decision_ceiling hs] at hd
  rw [decision_ceiling hs']
  refine (SlotTable.Tracks.next_eq_ok_iff tracks' laid' u).mpr ?_
  exact ((SlotTable.Tracks.next_eq_ok_iff tracks laid u).mp hd).of_fewer tracks tracks' laid laid'
    (tasks'.trans tasks.symm)
    (mutexes'.trans mutexes.symm) runs hu

theorem decision_of_strict {r r' : Table Bool c.tasks.size} (hk : k.schedule = .strict r) (hl : l.schedule = .strict r')
    (hd : k.decision = .ok (some u)) (hu : l.isRunnable u = true) : l.decision = .ok (some u) := by
  rw [decision_strict hk, Except.ok.injEq, List.find?_eq_some_iff_append] at hd
  rw [isRunnable, hl] at hu
  rw [decision_strict hl, Except.ok.injEq, List.find?_eq_some_iff_append]
  obtain ⟨_, before, after, order, none⟩ := hd
  refine ⟨hu, before, after, order, fun v hv => ?_⟩
  have runnable := h.runnable_of (u := v)
  rw [isRunnable, hl, isRunnable, hk] at runnable
  have not := none v hv
  rw [Bool.not_eq_true'] at not ⊢
  exact Bool.eq_false_iff.mpr fun hr => Bool.eq_false_iff.mp not (runnable hr)

/-- The policy makes the same choice in both states, unless it chooses the task that is runnable in the first one
only. -/
theorem decision (hk : k.Scheduled) (hl : l.Scheduled) {choice choice' : Option c.TaskId} (hd : k.decision = .ok choice)
    (hd' : l.decision = .ok choice') : choice' = choice ∨ (choice = some t ∧ l.isRunnable t = false ∧ spurious) := by
  cases choice with
  | none =>
    refine .inl ?_
    cases choice' with
    | none => rfl
    | some v => cases (hk.nobody_runnable hd v).symm.trans (h.runnable_of (hl.isRunnable_of_decision hd'))
  | some u =>
    rcases h.runnable u with same | ⟨rfl, _, blocked, known⟩
    · have hu := same.symm.trans (hk.isRunnable_of_decision hd)
      have chosen : l.decision = .ok (some u) := by
        rcases h.schedules with ⟨_, r, r', hs, hs'⟩ | ⟨s, s', hs, hs', _⟩ | ⟨inherits, _⟩
        · exact h.decision_of_strict hs hs' hd hu
        · have fits := hk.fits
          rw [hs] at fits
          exact h.decision_of_ceiling hk hl fits.1 hd hu
        · exact h.decision_of_inheritance hk hl inherits hd hu
      cases chosen.symm.trans hd'
      exact .inl rfl
    · exact .inr ⟨rfl, blocked, known⟩

end Alike

end Kernel

end Rtos
