import Rtos.Kernel.State

/-!
# Reasoning about critical sections

`Ends action k ok bad`: run from the state `k`, the action yields a value and a state that satisfy `ok`, or ends the run
in a way and in a state that satisfy `bad`. Each building block of an action has an equation for `Ends`, so that
`simp only` with these equations runs an action symbolically; `Ends.bind`, `Ends.forM` and `Ends.mono` compose what is
known of its parts.

`Pairs` compares how two actions come out, be they of one system or of two.
-/

namespace Rtos.Kernel
set_option autoImplicit false

variable {c : Config} {α β : Type}

/-- Run from `k`, the action yields a value and a state that satisfy `ok`, or ends the run in a way and in a state that
satisfy `bad`. -/
def Ends (action : Action c α) (k : Kernel c) (ok : α → Kernel c → Prop) (bad : Ending → Kernel c → Prop) : Prop :=
  match action k with
  | .ok a l => ok a l
  | .error ending l => bad ending l

section Ends
variable {k : Kernel c} {ok ok' : α → Kernel c → Prop} {mid : β → Kernel c → Prop} {bad bad' : Ending → Kernel c → Prop}

/-! ## Building blocks -/

theorem ends_pure (a : α) : Ends (pure a) k ok bad ↔ ok a k := Iff.rfl

theorem ends_throw (ending : Ending) : Ends (throw ending : Action c α) k ok bad ↔ bad ending k := Iff.rfl

theorem ends_fail (error : FatalError) : Ends (fail error : Action c α) k ok bad ↔ bad (.fatal error) k := Iff.rfl

theorem ends_get {ok : Kernel c → Kernel c → Prop} : Ends (get : Action c (Kernel c)) k ok bad ↔ ok k k := Iff.rfl

theorem ends_set (l : Kernel c) {ok : PUnit → Kernel c → Prop} :
    Ends (set l : Action c PUnit) k ok bad ↔ ok ⟨⟩ l := Iff.rfl

theorem ends_modify (f : Kernel c → Kernel c) {ok : PUnit → Kernel c → Prop} :
    Ends (modify f : Action c PUnit) k ok bad ↔ ok ⟨⟩ (f k) := Iff.rfl

theorem bind_ok {action : Action c β} {next : β → Action c α} {b : β} {l : Kernel c} (h : action k = .ok b l) :
    (action >>= next) k = next b l := by
  show EStateM.bind action next k = _
  rw [EStateM.bind, h]

theorem bind_error {action : Action c β} {next : β → Action c α} {ending : Ending} {l : Kernel c}
    (h : action k = .error ending l) :
    (action >>= next) k = .error ending l := by
  show EStateM.bind action next k = _
  rw [EStateM.bind, h]

theorem ends_bind (action : Action c β) (next : β → Action c α) :
    Ends (action >>= next) k ok bad ↔ Ends action k (fun b l => Ends (next b) l ok bad) bad := by
  unfold Ends
  cases h : action k with
  | ok b l => rw [bind_ok h]
  | error ending l => rw [bind_error h]

theorem ends_ite (p : Prop) [Decidable p] (x y : Action c α) :
    Ends (if p then x else y) k ok bad ↔ (p → Ends x k ok bad) ∧ (¬ p → Ends y k ok bad) := by
  by_cases h : p <;> simp [h]

theorem ends_dite (p : Prop) [Decidable p] (x : p → Action c α) (y : ¬ p → Action c α) :
    Ends (if h : p then x h else y h) k ok bad ↔ (∀ h : p, Ends (x h) k ok bad) ∧ ∀ h : ¬ p, Ends (y h) k ok bad := by
  by_cases h : p <;> simp [h]

/-! ## Composition -/

theorem Ends.mono {action : Action c α} (h : Ends action k ok bad) (hok : ∀ a l, ok a l → ok' a l)
    (hbad : ∀ ending l, bad ending l → bad' ending l) : Ends action k ok' bad' := by
  unfold Ends at h ⊢
  cases hr : action k with
  | ok a l =>
    rw [hr] at h
    exact hok a l h
  | error ending l =>
    rw [hr] at h
    exact hbad ending l h

theorem ends_of_forall {action : Action c α} (hok : ∀ a l, ok a l) (hbad : ∀ ending l, bad ending l) :
    Ends action k ok bad := by
  unfold Ends
  cases action k with
  | ok a l => exact hok a l
  | error ending l => exact hbad ending l

theorem Ends.and {action : Action c α} (h : Ends action k ok bad) (h' : Ends action k ok' bad') :
    Ends action k (fun a l => ok a l ∧ ok' a l) fun ending l => bad ending l ∧ bad' ending l := by
  unfold Ends at h h' ⊢
  cases hr : action k with
  | ok a l =>
    rw [hr] at h h'
    exact ⟨h, h'⟩
  | error ending l =>
    rw [hr] at h h'
    exact ⟨h, h'⟩

theorem Ends.bind {action : Action c β} {next : β → Action c α} (h : Ends action k mid bad)
    (hn : ∀ b l, mid b l → Ends (next b) l ok bad) : Ends (action >>= next) k ok bad :=
  (ends_bind action next).mpr (h.mono hn fun _ _ hb => hb)

/-- What every round of a loop keeps, the whole loop keeps. The invariant may tell which items were dealt with
already. -/
theorem Ends.forM_of_prefix {I : List β → Kernel c → Prop} {body : β → Action c PUnit} (items : List β)
    (h : ∀ done b rest, items = done ++ b :: rest → ∀ l, I done l → Ends (body b) l (fun _ => I (done ++ [b])) bad) :
    ∀ l, I [] l → Ends (items.forM body) l (fun _ => I items) bad := by
  have go : ∀ left done, items = done ++ left → ∀ l, I done l → Ends (left.forM body) l (fun _ => I items) bad := by
    intro left
    induction left with
    | nil =>
      intro done he l hl
      rw [he, List.append_nil]
      exact hl
    | cons b bs ih =>
      intro done he l hl
      exact Ends.bind (h done b bs he l hl) fun _ l' hl' => ih (done ++ [b]) (by simpa using he) l' hl'
  exact fun l hl => go items [] rfl l hl

theorem Ends.forM {I : Kernel c → Prop} {body : β → Action c PUnit} (items : List β)
    (h : ∀ b ∈ items, ∀ l, I l → Ends (body b) l (fun _ => I) bad) :
    ∀ l, I l → Ends (items.forM body) l (fun _ => I) bad :=
  Ends.forM_of_prefix items fun done b _ he l hl =>
    h b (he ▸ List.mem_append_right done List.mem_cons_self) l hl

theorem Ends.foldlM {I : List β → α → Kernel c → Prop} {body : α → β → Action c α} (items : List β)
    (h : ∀ done b rest, items = done ++ b :: rest → ∀ a l, I done a l → Ends (body a b) l (I (done ++ [b])) bad) :
    ∀ a l, I [] a l → Ends (items.foldlM body a) l (I items) bad := by
  have go : ∀ left done, items = done ++ left → ∀ a l, I done a l →
      Ends (left.foldlM body a) l (I items) bad := by
    intro left
    induction left with
    | nil =>
      intro done he a l hl
      rw [he, List.append_nil]
      exact hl
    | cons b bs ih =>
      intro done he a l hl
      rw [List.foldlM_cons]
      exact Ends.bind (h done b bs he a l hl) fun a' l' hl' => ih (done ++ [b]) (by simpa using he) a' l' hl'
  exact fun a l hl => go items [] rfl a l hl

theorem Ends.result {action : Action c α} (h : Ends action k ok bad) :
    Ends action k (fun a l => action k = .ok a l ∧ ok a l) bad := by
  unfold Ends at h ⊢
  cases hr : action k with
  | ok a l =>
    rw [hr] at h
    exact ⟨rfl, h⟩
  | error ending l =>
    rw [hr] at h
    exact h

theorem ends_of_eq_ok {action : Action c α} {a : α} {l : Kernel c} (hr : action k = .ok a l) (h : ok a l) :
    Ends action k ok bad := by
  unfold Ends
  rw [hr]
  exact h

theorem Ends.of_result {action : Action c α} {a : α} {l : Kernel c} (h : Ends action k ok bad)
    (hr : action k = .ok a l) : ok a l := by
  unfold Ends at h
  rw [hr] at h
  exact h

theorem Ends.exists_ok {action : Action c α} (h : Ends action k ok fun _ _ => False) :
    ∃ a l, action k = .ok a l ∧ ok a l := by
  unfold Ends at h
  cases hr : action k with
  | ok a l =>
    rw [hr] at h
    exact ⟨a, l, rfl, h⟩
  | error ending l =>
    rw [hr] at h
    exact h.elim

theorem Ends.eq_ok {action : Action c α} {a : α} {l : Kernel c}
    (h : Ends action k (fun b m => b = a ∧ m = l) fun _ _ => False) : action k = .ok a l := by
  obtain ⟨b, m, result, rfl, rfl⟩ := h.exists_ok
  exact result

theorem Ends.eq_error {action : Action c α} {ending : Ending} {l : Kernel c}
    (h : Ends action k (fun _ _ => False) fun e m => e = ending ∧ m = l) : action k = .error ending l := by
  unfold Ends at h
  cases hr : action k with
  | ok a m =>
    rw [hr] at h
    exact h.elim
  | error e m =>
    rw [hr] at h
    obtain ⟨rfl, rfl⟩ := h
    rfl

end Ends

/-! ## Pairs of actions -/

section Pairs
variable {c' : Config} {α' β' : Type} {k : Kernel c} {l : Kernel c'}

/-- Either both actions yield values and states that are related, or both end the run in the same way. The two actions
may be of different systems. -/
def Pairs (x : Action c α) (k : Kernel c) (y : Action c' α') (l : Kernel c')
    (related : α → Kernel c → α' → Kernel c' → Prop) : Prop :=
  match x k, y l with
  | .ok a k', .ok b l' => related a k' b l'
  | .error ending _, .error ending' _ => ending' = ending
  | _, _ => False

namespace Pairs
variable {x x' : Action c α} {y y' : Action c' α'} {R : α → Kernel c → α' → Kernel c' → Prop}

theorem bind {f : α → Action c β} {g : α' → Action c' β'} {S : β → Kernel c → β' → Kernel c' → Prop}
    (h : Pairs x k y l R) (hf : ∀ a k' b l', R a k' b l' → Pairs (f a) k' (g b) l' S) :
    Pairs (x >>= f) k (y >>= g) l S := by
  have hx : (x >>= f) k = EStateM.bind x f k := rfl
  have hy : (y >>= g) l = EStateM.bind y g l := rfl
  unfold Pairs at h ⊢
  rw [hx, hy, EStateM.bind, EStateM.bind]
  cases hk : x k with
  | ok a k' =>
    cases hl : y l with
    | ok b l' =>
      rw [hk, hl] at h
      exact hf a k' b l' h
    | error ending l' => simp [hk, hl] at h
  | error ending k' =>
    cases hl : y l with
    | ok b l' => simp [hk, hl] at h
    | error ending' l' =>
      rw [hk, hl] at h
      exact h

theorem get {f : Kernel c → Action c α} {g : Kernel c' → Action c' α'} (h : Pairs (f k) k (g l) l R) :
    Pairs (MonadStateOf.get >>= f) k (MonadStateOf.get >>= g) l R := h

theorem ite {p q : Prop} [Decidable p] [Decidable q] (same : q ↔ p) (hx : p → Pairs x k y l R)
    (hy : ¬ p → Pairs x' k y' l R) : Pairs (if p then x else x') k (if q then y else y') l R := by
  by_cases hp : p
  · rw [if_pos hp, if_pos (same.mpr hp)]
    exact hx hp
  · rw [if_neg hp, if_neg (mt same.mp hp)]
    exact hy hp

theorem mono {S : α → Kernel c → α' → Kernel c' → Prop} (h : Pairs x k y l R)
    (hS : ∀ a k' b l', R a k' b l' → S a k' b l') :
    Pairs x k y l S := by
  unfold Pairs at h ⊢
  cases hx : x k <;> cases hy : y l <;> simp only [hx, hy] at h ⊢
  · exact hS _ _ _ _ h
  · exact h

/-- What is known of each of the actions, is known of the pair. -/
theorem and {ok : α → Kernel c → Prop} {ok' : α' → Kernel c' → Prop} {bad : Ending → Kernel c → Prop}
    {bad' : Ending → Kernel c' → Prop} (h : Pairs x k y l R) (hx : Ends x k ok bad) (hy : Ends y l ok' bad') :
    Pairs x k y l fun a k' b l' => R a k' b l' ∧ ok a k' ∧ ok' b l' := by
  unfold Ends at hx hy
  unfold Pairs at h ⊢
  cases ha : x k <;> cases hb : y l <;> simp only [ha, hb] at h hx hy ⊢
  · exact ⟨h, hx, hy⟩
  · exact h

theorem and_left {ok : α → Kernel c → Prop} {bad : Ending → Kernel c → Prop} (h : Pairs x k y l R)
    (hx : Ends x k ok bad) :
    Pairs x k y l fun a k' b l' => R a k' b l' ∧ ok a k' := by
  have any : Ends y l (fun _ _ => True) fun _ _ => True := ends_of_forall (fun _ _ => trivial) fun _ _ => trivial
  exact (h.and hx any).mono fun _ _ _ _ hl => ⟨hl.1, hl.2.1⟩

theorem of_total {ok : α → Kernel c → Prop} {ok' : α' → Kernel c' → Prop} (h : Ends x k ok fun _ _ => False)
    (h' : Ends y l ok' fun _ _ => False) : Pairs x k y l fun a k' b l' => ok a k' ∧ ok' b l' := by
  unfold Ends at h h'
  unfold Pairs
  cases hx : x k <;> cases hy : y l <;> simp only [hx, hy] at h h' ⊢
  exact ⟨h, h'⟩

theorem of_fails {ending : Ending} (h : Ends x k (fun _ _ => False) fun e _ => e = ending)
    (h' : Ends y l (fun _ _ => False) fun e _ => e = ending) : Pairs x k y l R := by
  unfold Ends at h h'
  unfold Pairs
  cases hx : x k <;> cases hy : y l <;> simp only [hx, hy] at h h' ⊢
  rw [h, h']

end Pairs

end Pairs

/-! ## Looking up objects -/

section Lookup
variable {k : Kernel c} {bad : Ending → Kernel c → Prop}

theorem ends_taskId (task : Nat) {ok : c.TaskId → Kernel c → Prop} : Ends (taskId task) k ok bad ↔
    (∀ h : task < c.tasks.size, ok ⟨task, h⟩ k) ∧ (¬ task < c.tasks.size → bad (.fatal .badId) k) := by
  rw [taskId, ends_dite]
  exact Iff.rfl

theorem ends_mutexId (mutex : Nat) {ok : c.MutexId → Kernel c → Prop} : Ends (mutexId mutex) k ok bad ↔
    (∀ h : mutex < c.mutexes.size, ok ⟨mutex, h⟩ k) ∧ (¬ mutex < c.mutexes.size → bad (.fatal .badId) k) := by
  rw [mutexId, ends_dite]
  exact Iff.rfl

theorem ends_semaphoreId (semaphore : Nat) {ok : c.SemaphoreId → Kernel c → Prop} :
    Ends (semaphoreId semaphore) k ok bad ↔ (∀ h : semaphore < c.semaphores.size, ok ⟨semaphore, h⟩ k) ∧
      (¬ semaphore < c.semaphores.size → bad (.fatal .badId) k) := by
  rw [semaphoreId, ends_dite]
  exact Iff.rfl

theorem ends_queueId (queue : Nat) {ok : c.QueueId → Kernel c → Prop} : Ends (queueId queue) k ok bad ↔
    (∀ h : queue < c.queues.size, ok ⟨queue, h⟩ k) ∧ (¬ queue < c.queues.size → bad (.fatal .badId) k) := by
  rw [queueId, ends_dite]
  exact Iff.rfl

theorem ends_eventId (event : Nat) {ok : c.EventId → Kernel c → Prop} : Ends (eventId event) k ok bad ↔
    (∀ h : event < c.events.size, ok ⟨event, h⟩ k) ∧ (¬ event < c.events.size → bad (.fatal .badId) k) := by
  rw [eventId, ends_dite]
  exact Iff.rfl

theorem ends_timerId (timer : Nat) {ok : c.TimerId → Kernel c → Prop} : Ends (timerId timer) k ok bad ↔
    (∀ h : timer < c.userTimers, ok ⟨timer, Nat.lt_of_lt_of_le h (Nat.sub_le _ _)⟩ k) ∧
      (¬ timer < c.userTimers → bad (.fatal .badId) k) := by
  rw [timerId, ends_dite]
  exact Iff.rfl

/-- Where the timer pool has room for the timeout timers, every task has one. -/
theorem ends_timeoutId (hc : c.tasks.size ≤ c.timerCount) (task : c.TaskId) {ok : c.TimerId → Kernel c → Prop} :
    Ends (timeoutId task) k ok bad ↔ ∀ h : c.userTimers + task < c.timerCount, ok ⟨c.userTimers + task, h⟩ k := by
  have ht : c.userTimers + task < c.timerCount := by
    have := task.isLt
    unfold Config.userTimers
    omega
  rw [timeoutId, ends_dite]
  exact ⟨fun h => h.1, fun h => ⟨h, fun hn => absurd ht hn⟩⟩

theorem ends_current_of_running {task : c.TaskId} (h : k.running = some task) {ok : c.TaskId → Kernel c → Prop} :
    Ends current k ok bad ↔ ok task k := by
  rw [current, ends_bind, ends_get, h]
  exact Iff.rfl

end Lookup

/-! ## The interrupt mask -/

section Mask
variable {k : Kernel c} {ok : Unit → Kernel c → Prop} {bad : Ending → Kernel c → Prop}

theorem ends_mask (hc : k.processor.context ≠ .outside) (hm : k.processor.masked = false) :
    Ends mask k ok bad ↔ ok () { k with processor := { k.processor with masked := true } } := by
  simp [mask, ends_bind, ends_get, ends_set, ends_ite, hc, hm]

theorem ends_unmask (hc : k.processor.context ≠ .outside) (hm : k.processor.masked = true) :
    Ends unmask k ok bad ↔ ok () { k with processor := { k.processor with masked := false } } := by
  simp [unmask, ends_bind, ends_get, ends_set, ends_ite, hc, hm]

end Mask

end Rtos.Kernel
