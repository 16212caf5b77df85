import Rtos.Proofs.Kernel.Ownership
import Rtos.Proofs.Kernel.Perform

/-!
# What the ceiling policy excludes

* `Kernel.Outranks`: the slot of one task lies before all mutexes another one holds.
* `Kernel.Excludes`: every holder of a mutex is runnable and has its slot after that of the mutex, and of any two tasks
  one outranks the other.
* `Excludes.outranks`: then the task the policy chooses outranks all others, so that the mutexes it may lock are free
  (`Excludes.free`), and it goes on like this when it locks one (`Excludes.takeMutex`).
* `Ready.perform_lock`, `Ready.lock_done`: so the task takes a mutex at once, and never waits for one.
-/

namespace Rtos.Kernel
set_option autoImplicit false

variable {c : Config} {k l : Kernel c} {t u : c.TaskId} {x : c.MutexId}

/-- The slot of `a` lies before all mutexes that `b` holds. -/
def Outranks (k : Kernel c) (a b : c.TaskId) : Prop :=
  ∀ x : c.MutexId, k.holders[x] = some b → c.row.taskSlot[a] < c.row.mutexSlot[x]

/-- Whoever holds a mutex is runnable and has its slot after that of the mutex, and of any two tasks one outranks the
other. -/
structure Excludes (k : Kernel c) : Prop where
  runnable : ∀ (x : c.MutexId) a, k.holders[x] = some a → k.isRunnable a = true
  behind : ∀ (x : c.MutexId) a, k.holders[x] = some a → c.row.mutexSlot[x] < c.row.taskSlot[a]
  ranked : ∀ a b, a ≠ b → k.Outranks a b ∨ k.Outranks b a

/-! ## The task that is chosen -/

/-- A schedule of the ceiling policy is a row of slots, which lie where the configuration puts them. -/
theorem Scheduled.exists_slots (h : k.Scheduled) (hp : c.policy = .ceiling) : ∃ slots,
    k.schedule = .ceiling slots ∧ slots.Laid ∧ slots.taskSlot = c.row.taskSlot ∧ slots.mutexSlot = c.row.mutexSlot ∧
      slots.Tracks k.holders := by
  have fits := h.fits
  have agrees := h.agrees
  cases hs : k.schedule with
  | strict runnable =>
    rw [hs] at fits
    cases hp.symm.trans fits
  | ceiling slots =>
    rw [hs] at fits agrees
    exact ⟨slots, rfl, fits.2.1, fits.2.2.1, fits.2.2.2, agrees⟩
  | inheritance runnable priorities stale =>
    rw [hs] at fits
    cases hp.symm.trans fits

theorem Scheduled.mayLock_iff (h : k.Scheduled) (hp : c.policy = .ceiling) (x : c.MutexId) (u : c.TaskId) :
    k.mayLock x u = true ↔ c.row.mutexSlot[x] < c.row.taskSlot[u] := by
  obtain ⟨slots, hs, _, ht, hm, _⟩ := h.exists_slots hp
  rw [mayLock, hs, ← ht, ← hm]
  exact decide_eq_true_iff

theorem Excludes.outranks (h : k.Excludes) (hs : k.Scheduled) (hp : c.policy = .ceiling)
    (hd : k.decision = .ok (some u)) {a : c.TaskId} (ha : a ≠ u) : k.Outranks u a := by
  intro x hx
  have runnable := h.runnable x a hx
  have behind := h.behind x a hx
  obtain ⟨slots, hk, laid, ht, hm, tracks⟩ := hs.exists_slots hp
  rw [isRunnable, hk] at runnable
  rw [decision_ceiling hk] at hd
  have finds := (SlotTable.Tracks.next_eq_ok_iff tracks laid u).mp hd
  rcases finds.precedes tracks laid hx runnable ha with hlt | ⟨y, hy, hlt⟩
  · rwa [ht, hm] at hlt
  · -- The scan finds `u` by the mutex `y`, which then lies before the slot of `a`.
    rw [hm] at hlt
    rcases h.ranked u a (Ne.symm ha) with hua | hau
    · exact hua x hx
    · exact absurd (Nat.lt_trans (hau y hy) hlt) (Nat.lt_asymm behind)

/-- The mutexes that the chosen task may lock are free, unless it holds them already. -/
theorem Excludes.free (h : k.Excludes) (hs : k.Scheduled) (hp : c.policy = .ceiling) (hd : k.decision = .ok (some u))
    (hm : k.mayLock x u = true) : k.holders[x] = none ∨ k.holders[x] = some u := by
  cases hx : k.holders[x] with
  | none => exact .inl rfl
  | some a =>
    by_cases ha : a = u
    · exact .inr (congrArg some ha)
    · exact absurd (h.outranks hs hp hd ha x hx) (Nat.lt_asymm ((hs.mayLock_iff hp x u).mp hm))

/-! ## What keeps the exclusion -/

theorem Excludes.of_narrows (h : k.Excludes) (hn : Narrows k l) : l.Excludes where
  runnable x a hx := hn.runnable a (h.runnable x a (hn.holders x a hx))
  behind x a hx := h.behind x a (hn.holders x a hx)
  ranked a b hab := (h.ranked a b hab).imp (fun ho x hx => ho x (hn.holders x b hx))
    fun ho x hx => ho x (hn.holders x a hx)

theorem holders_takeMutex {y : c.MutexId} {a : c.TaskId} (hy : (k.takeMutex x u).holders[y] = some a) :
    (y = x ∧ a = u) ∨ k.holders[y] = some a := by
  by_cases hne : y = x
  · subst hne
    have hself : (k.takeMutex y u).holders[y] = some u := Table.getElem_set_self ..
    exact .inl ⟨rfl, Option.some.inj (hy.symm.trans hself)⟩
  · exact .inr ((Table.getElem_set_of_ne k.holders (some u) hne).symm.trans hy)

/-- The chosen task may lock a mutex: it still outranks all others, which hold what they held. -/
theorem Excludes.takeMutex (h : k.Excludes) (hs : k.Scheduled) (hp : c.policy = .ceiling)
    (hd : k.decision = .ok (some u)) (hm : k.mayLock x u = true) : (k.takeMutex x u).Excludes := by
  have same : ∀ a, (k.takeMutex x u).isRunnable a = k.isRunnable a := hs.fits.isRunnable_mutexLocked x u
  have others : ∀ {a b}, b ≠ u → k.Outranks a b → (k.takeMutex x u).Outranks a b := by
    intro a b hb ho y hy
    rcases holders_takeMutex hy with ⟨_, he⟩ | hy
    · exact absurd he hb
    · exact ho y hy
  constructor
  · intro y a hy
    rw [same]
    rcases holders_takeMutex hy with ⟨_, rfl⟩ | hy
    · exact hs.isRunnable_of_decision hd
    · exact h.runnable y a hy
  · intro y a hy
    rcases holders_takeMutex hy with ⟨rfl, rfl⟩ | hy
    · exact (hs.mayLock_iff hp y a).mp hm
    · exact h.behind y a hy
  · intro a b hab
    by_cases hb : b = u
    · subst hb
      exact .inr (others hab (h.outranks hs hp hd hab))
    · by_cases ha : a = u
      · subst ha
        exact .inl (others hb (h.outranks hs hp hd hb))
      · exact (h.ranked a b hab).imp (others hb) (others ha)

/-! ## Stopping -/

/-- A task may stop, as long as it remains runnable if it holds a mutex. -/
theorem Excludes.stops {s : Suspension c} (h : k.Excludes) (hk : k.Scheduled) (hs : Stops t k s l)
    (hr : ∀ x : c.MutexId, l.holders[x] = some t → l.isRunnable t = true) : l.Excludes := by
  obtain ⟨same, others⟩ := hk.others_of_stops hs
  refine ⟨fun x a hx => ?_, fun x a hx => h.behind x a (same ▸ hx), fun a b hab => ?_⟩
  · by_cases ha : a = t
    · subst ha
      exact hr x hx
    · rw [others a ha]
      exact h.runnable x a (same ▸ hx)
  · exact (h.ranked a b hab).imp (fun ho x hx => ho x (same ▸ hx)) fun ho x hx => ho x (same ▸ hx)

/-! ## Locking -/

theorem ends_attempt_free (hr : k.running = some u) (hx : k.holders[x] = none) {ok : Bool × Buffer → Kernel c → Prop}
    {bad : Ending → Kernel c → Prop} :
    Ends (attempt (.lock x)) k ok bad ↔ ok (true, .own []) (k.takeMutex x u) := by
  simp only [attempt, tryLock, ends_bind, ends_current_of_running hr, ends_get, hx]
  exact Iff.rfl

/-- What a task is told that gets a mutex at once. -/
def granted (patience : Patience) : Value := if patience = .forever then .unit else .bool true

theorem ends_ask_free (hr : k.running = some u) (hx : k.holders[x] = none) (patience : Patience)
    {ok : Progress c → Kernel c → Prop} {bad : Ending → Kernel c → Prop} :
    Ends (ask (.lock x) patience) k ok bad ↔ ok (.done (granted patience)) (k.takeMutex x u) := by
  cases patience <;> simp only [ask, attemptOnce, pursue, ends_bind, ends_get, ends_attempt_free hr hx] <;>
    exact Iff.rfl

theorem ends_attempt_own (hr : k.running = some u) (hx : k.holders[x] = some u) {ok : Bool × Buffer → Kernel c → Prop}
    {bad : Ending → Kernel c → Prop} : Ends (attempt (.lock x)) k ok bad ↔ ok (false, .own []) k := by
  simp only [attempt, tryLock, ends_bind, ends_current_of_running hr, ends_get, hx]
  exact Iff.rfl

theorem Ready.perform_lock (h : k.Ready u) (hx : k.holders[x] = none) (hm : k.mayLock x u = true) {patience : Patience}
    (hp : Accepts patience) :
    perform (.lock x patience) k = .ok (.done (granted patience)) (k.entered.takeMutex x u) := by
  refine Ends.eq_ok (h.ends_lock x patience (fun late => late hp) (fun unknown => unknown x.isLt) ?own ?refused ?asks)
  case own =>
    rintro y hy - held
    cases (Fin.ext hy ▸ hx).symm.trans held
  case refused =>
    intro y hy _ refused
    exact refused (Fin.ext hy ▸ hm)
  case asks =>
    intro y hy _ _ _
    obtain rfl : y = x := Fin.ext hy
    exact (ends_ask_free (k := k.entered) h.running hx patience).mpr ⟨rfl, rfl⟩

/-- If the mutexes that a task may lock are free, unless it holds them already, then no call of the task waits for a
mutex. -/
theorem Ready.lock_done (h : k.Ready u) (hf : ∀ x, k.mayLock x u = true → k.holders[x] = none ∨ k.holders[x] = some u)
    (mutex : Nat) (patience : Patience) : Ends (lock mutex patience) k
      (fun p l => ∃ value, p = .done value ∧ (l = k.entered ∨
        ∃ x, k.entered.mayLock x u = true ∧ l = k.entered.takeMutex x u)) fun _ _ => True := by
  have hr : k.entered.running = some u := h.running
  refine h.ends_lock mutex patience ?late ?unknown ?own ?refused ?asks
  case late | unknown => exact fun _ => trivial
  case own | refused => exact fun _ _ _ _ => trivial
  case asks =>
    intro x _ _ stranger may
    rcases hf x may with free | own
    · exact (ends_ask_free hr free patience).mpr ⟨_, rfl, .inr ⟨x, may, rfl⟩⟩
    · have never : patience = .never := Classical.byContradiction fun willing => stranger willing own
      subst never
      refine (ends_bind _ _).mpr ((ends_attempt_own hr own).mpr ?_)
      exact ⟨_, rfl, .inl rfl⟩

end Rtos.Kernel
