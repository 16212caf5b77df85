import Mathlib.Data.List.Chain
import Rtos.Proofs.History
import Rtos.Showcase

/-!
# Mutual exclusion

The history of a mutex is an alternation of acquisitions and releases, and each release is by the task that made the
acquisition before it. What the kernel tells about the mutex is what its history tells.

* `Machine.ownerships`: the acquisitions and releases of a mutex in a run, in the order of their critical sections.
* `Ownership.holder?`: the task that holds the mutex after them.
* `Machine.Alternating`: acquisitions and releases alternate, and the last one tells the holder (`alternating_play`).
* `Machine.mutual_exclusion`: the main result.
-/

namespace Rtos
set_option autoImplicit false

variable {c : Config}

/-- What happens to the ownership of a mutex. -/
inductive Ownership (c : Config)
  | acquired (task : c.TaskId)
  | released (task : c.TaskId)
  deriving DecidableEq

namespace Ownership

/-- A release follows an acquisition by the same task, and an acquisition follows a release. -/
def Follows : Ownership c → Ownership c → Prop
  | acquired t, released u => u = t
  | released _, acquired _ => True
  | _, _ => False

/-- The task that holds the mutex afterwards. -/
def holder? (events : List (Ownership c)) : Option c.TaskId :=
  match events.getLast? with
  | some (acquired t) => some t
  | _ => none

theorem holder?_concat_acquired (events : List (Ownership c)) (t : c.TaskId) :
    holder? (events ++ [acquired t]) = some t := by
  simp [holder?]

theorem holder?_concat_released (events : List (Ownership c)) (t : c.TaskId) :
    holder? (events ++ [released t]) = none := by
  simp [holder?]

theorem getLast?_of_holder? {events : List (Ownership c)} {t : c.TaskId} (h : holder? events = some t) :
    events.getLast? = some (acquired t) := by
  unfold holder? at h
  split at h
  · next u hu =>
    cases h
    exact hu
  · cases h

theorem getLast?_of_no_holder {events : List (Ownership c)} (h : holder? events = none) (e : Ownership c)
    (he : events.getLast? = some e) : ∃ t, e = released t := by
  cases e with
  | acquired t => simp [holder?, he] at h
  | released t => exact ⟨t, rfl⟩

end Ownership

/-- What the completion of an operation means for the ownership of a mutex. -/
def Completion.ownership? (x : c.MutexId) (e : Completion c) : Option (Ownership c) :=
  if e.granted? = some (.lock x) then some (.acquired e.task)
  else if e.operation = .call (.unlock x) then some (.released e.task)
  else none

theorem ownership?_of_ne {x : c.MutexId} {e : Completion c} (hg : e.granted? ≠ some (.lock x))
    (hu : e.operation ≠ .call (.unlock x)) : e.ownership? x = none := by
  rw [Completion.ownership?, if_neg hg, if_neg hu]

theorem operation_ne_unlock {op : Operation c} {r : Request c} (h : op.request? = some r) (mutex : Nat) :
    op ≠ .call (.unlock mutex) := by
  rintro rfl
  cases h

namespace Kernel

variable {k : Kernel c} {t : c.TaskId} {x : c.MutexId}

theorem holders_grant {r : Request c} (h : r ≠ .lock x) : (r.edit.apply t k).resources.holders[x] = k.holders[x] := by
  cases r with
  | lock y => exact Table.getElem_set_of_ne k.holders (some t) fun he => h (by rw [he])
  | token s => rfl
  | put q message =>
    rw [Request.edit, resources_store]
    cases message <;> rfl
  | get q message =>
    rw [Request.edit, resources_fetch]
    cases message <;> rfl

/-! ## What the kernel tells of a mutex -/

theorem isLocked_spec (h : k.Ready t) (x : c.MutexId) :
    Ends (perform (.isLocked x)) k (fun p _ => p = .done (.bool k.holders[x].isSome)) fun _ _ => False := by
  simp only [perform, ends_bind, h.ends_enter, ends_mutexId, ends_get, ends_pure]
  exact ⟨fun _ => rfl, fun hn => hn x.isLt⟩

theorem holds_spec (h : k.Ready t) (x : c.MutexId) :
    Ends (perform (.holds x)) k (fun p _ => p = .done (.bool (k.holders[x] = some t))) fun _ _ => False := by
  have hr : k.entered.running = some t := h.running
  simp only [perform, ends_bind, h.ends_enter, ends_current_of_running hr, ends_mutexId, ends_get, ends_pure]
  exact ⟨fun _ => rfl, fun hn => hn x.isLt⟩

theorem lock_own_spec (h : k.Ready t) (hx : k.holders[x] = some t) {patience : Patience} (hp : patience ≠ .never)
    (ha : Accepts patience) : Ends (perform (.lock x patience)) k (fun _ _ => False)
      fun ending _ => ending = .fatal .mutexDeadlock := by
  have own {y : c.MutexId} (hy : y.val = x.val) (stranger : patience ≠ .never → k.holders[y] ≠ some t) : False :=
    stranger hp (Fin.ext hy ▸ hx)
  exact h.ends_lock x patience (fun late => absurd ha late) (fun unknown => absurd x.isLt unknown)
    (fun _ _ _ _ => rfl) (fun y hy stranger _ => (own hy stranger).elim) fun y hy _ stranger _ => (own hy stranger).elim

theorem unlock_foreign_spec (h : k.Ready t) (hx : k.holders[x] ≠ some t) :
    Ends (perform (.unlock x)) k (fun _ _ => False)
    fun ending _ => ending = .fatal .mutexNotOwner := by
  have hr : k.entered.running = some t := h.running
  simp only [perform, ends_bind, h.ends_enter, ends_mutexId, ends_unlock hr, ends_pure]
  exact ⟨fun _ => ⟨fun own => hx own, fun _ => trivial⟩, fun unknown => absurd x.isLt unknown⟩

end Kernel

namespace Machine
open Kernel

variable {m : Machine c} {detour : Prop} {x : c.MutexId} {a : Act}

/-! ## Alternation -/

/-- The acquisitions and releases of a mutex in a run. -/
def ownerships (x : c.MutexId) (acts : List Act) : List (Ownership c) :=
  (history c acts).filterMap (Completion.ownership? x)

theorem ownerships_concat (x : c.MutexId) (acts : List Act) (a : Act) : ownerships x (acts ++ [a]) =
    ownerships x acts ++ (((play c acts).completion? a).bind (Completion.ownership? x)).toList :=
  filterMap_history_concat _ acts a

/-- An acquisition comes first, and from then on releases and acquisitions alternate. -/
structure Alternating (events : List (Ownership c)) : Prop where
  first : ∀ e, events.head? = some e → ∃ t, e = .acquired t
  chain : events.IsChain Ownership.Follows

theorem Alternating.concat {events : List (Ownership c)} (h : Alternating events) {e : Ownership c}
    (first : events = [] → ∃ t, e = .acquired t) (next : ∀ d, events.getLast? = some d → d.Follows e) :
    Alternating (events ++ [e]) where
  first d hd := by
    cases events with
    | nil =>
      cases hd
      exact first rfl
    | cons b bs => exact h.first d hd
  chain := by
    refine h.chain.append (List.isChain_singleton e) fun d hd e' he' => ?_
    cases he'
    exact next d hd

theorem Alternating.acquire {events : List (Ownership c)} (h : Alternating events)
    (free : Ownership.holder? events = none) (t : c.TaskId) : Alternating (events ++ [.acquired t]) := by
  refine h.concat (fun _ => ⟨t, rfl⟩) fun d hd => ?_
  obtain ⟨u, rfl⟩ := Ownership.getLast?_of_no_holder free d hd
  trivial

theorem Alternating.release {events : List (Ownership c)} (h : Alternating events) {t : c.TaskId}
    (held : Ownership.holder? events = some t) : Alternating (events ++ [.released t]) := by
  have last := Ownership.getLast?_of_holder? held
  refine h.concat (fun he => ?_) fun d hd => ?_
  · rw [he] at last
    cases last
  · cases last.symm.trans hd
    rfl

/-- What an act means for the ownership of a mutex: nothing happens to it, or it is acquired, or released. -/
theorem Effect.ownership {m' : Machine c} (h : m.Effect a m') (hn : ∀ ending, m'.control ≠ .ended ending)
    (x : c.MutexId) :
    ((m.completion? a).bind (Completion.ownership? x) = none ∧ m'.kernel.holders[x] = m.kernel.holders[x]) ∨
    (∃ t, (m.completion? a).bind (Completion.ownership? x) = some (.acquired t) ∧ m.kernel.holders[x] = none ∧
      m'.kernel.holders[x] = some t) ∨
    ∃ t, (m.completion? a).bind (Completion.ownership? x) = some (.released t) ∧ m.kernel.holders[x] = some t ∧
      m'.kernel.holders[x] = none := by
  cases h with
  | ends ending control => exact absurd control (hn ending)
  | @grants t op r canFail request allowed completion resources suspensions =>
    rw [completion, Option.bind_some, (resources_eq_iff.mp resources).1]
    by_cases hr : r = .lock x
    · subst hr
      refine .inr (.inl ⟨t, ?_, allowed, Table.getElem_set_self ..⟩)
      exact if_pos (granted?_reply request canFail _)
    · refine .inl ⟨ownership?_of_ne ?_ (operation_ne_unlock request x), holders_grant hr⟩
      rw [granted?_reply request]
      exact fun he => hr (Option.some.inj he)
  | @denies t op r request denied completion resources suspensions =>
    rw [completion, Option.bind_some, (resources_eq_iff.mp resources).1]
    refine .inl ⟨ownership?_of_ne ?_ (operation_ne_unlock request x), rfl⟩
    rw [granted?_denied]
    exact nofun
  | waits deadline operation request refused completion resources suspensions =>
    rw [completion, (resources_eq_iff.mp resources).1]
    exact .inl ⟨rfl, rfl⟩
  | @unlocks t y holds completion resources suspensions =>
    rw [completion, Option.bind_some, (resources_eq_iff.mp resources).1]
    by_cases hy : y = x
    · subst hy
      exact .inr (.inr ⟨t, if_pos rfl, holds, Table.getElem_set_self ..⟩)
    · refine .inl ⟨ownership?_of_ne nofun fun he => hy ?_, Table.getElem_set_of_ne m.kernel.holders none (Ne.symm hy)⟩
      injection he with he
      injection he with he
      exact Fin.ext he
  | otherwise completion holders rings pool requests =>
    rw [holders]
    refine .inl ⟨?_, rfl⟩
    cases hc : m.completion? a with
    | none => rfl
    | some e =>
      obtain ⟨request, unlock⟩ := completion e hc
      refine ownership?_of_ne ?_ (unlock x)
      rw [Completion.granted?, request, ite_self]
      exact nofun

/-- In every run, acquisitions and releases of a mutex alternate. Until the run is over, they tell the holder. -/
theorem alternating_play (acts : List Act) (x : c.MutexId) : Alternating (ownerships x acts) ∧
    ((∀ ending, (play c acts).control ≠ .ended ending) →
      Ownership.holder? (ownerships x acts) = (play c acts).kernel.holders[x]) := by
  induction acts using play_induction with
  | boot =>
    refine ⟨⟨nofun, List.isChain_nil⟩, ?_⟩
    refine run_of_ends (P := fun m => (∀ ending, m.control ≠ .ended ending) → none = m.kernel.holders[x])
      (boot_spec (Unstarted.initial c) rfl) (fun _ l hl _ => ?_) fun ending l _ hn => absurd rfl (hn ending)
    have free : l.holders[x] = none := by
      rw [hl.2.1]
      exact Table.getElem_replicate ..
    exact free.symm
  | act acts a ih =>
    obtain ⟨alternating, holder⟩ := ih
    obtain ⟨orderly, timers⟩ := orderly_play (c := c) acts
    rw [ownerships_concat]
    -- The act that ends the run completes no operation, and adds nothing to the history.
    by_cases he : ∃ ending, ((play c acts).act a).control = .ended ending
    · obtain ⟨ending, he⟩ := he
      rw [completion?_eq_none he nofun]
      refine ⟨by simpa using alternating, fun hn => absurd he (hn ending)⟩
    have hn : ∀ ending, ((play c acts).act a).control ≠ .ended ending := fun ending hc => he ⟨ending, hc⟩
    have holder := holder (not_ended_of_act hn)
    rcases (orderly.effect timers a).ownership hn x with ⟨none, same⟩ | ⟨t, acquired, free, held⟩ | ⟨t, released,
      held, free⟩
    · rw [none, same]
      simpa using ⟨alternating, fun _ => holder⟩
    · rw [acquired, held]
      exact ⟨alternating.acquire (holder.trans free) t, fun _ => Ownership.holder?_concat_acquired _ t⟩
    · rw [released, free]
      exact ⟨alternating.release (holder.trans held), fun _ => Ownership.holder?_concat_released _ t⟩

/-- Whatever the tasks do and whenever the interrupts come: acquisitions and releases of a mutex alternate, beginning
with an acquisition, and each release is by the task that made the acquisition before it. Whenever a program is at work,
it is told that the mutex is locked just if the last of them is an acquisition, and that it holds the mutex just if it
made that acquisition itself; in that case it cannot wait for the mutex, and otherwise it cannot unlock it, without
ending the run. -/
theorem mutual_exclusion (c : Config) (acts : List Act) (x : c.MutexId) : Alternating (ownerships x acts) ∧
    ∀ reply u, (play c acts).control = .application reply → (play c acts).kernel.running = some u →
      (play c (acts ++ [.move (.call (.isLocked x))])).control =
        .leaving (some (.bool (Ownership.holder? (ownerships x acts)).isSome)) ∧
      (play c (acts ++ [.move (.call (.holds x))])).control =
        .leaving (some (.bool (Ownership.holder? (ownerships x acts) = some u))) ∧
      (Ownership.holder? (ownerships x acts) = some u → ∀ patience, patience ≠ .never → Accepts patience →
        (play c (acts ++ [.move (.call (.lock x patience))])).control = .ended (.fatal .mutexDeadlock)) ∧
      (Ownership.holder? (ownerships x acts) ≠ some u →
        (play c (acts ++ [.move (.call (.unlock x))])).control = .ended (.fatal .mutexNotOwner)) := by
  obtain ⟨alternating, holder⟩ := alternating_play acts x
  refine ⟨alternating, fun reply u hc hr => ?_⟩
  obtain ⟨orderly, _⟩ := orderly_play (c := c) acts
  unfold Orderly at orderly
  rw [hc] at orderly
  obtain ⟨t, _, ready, _⟩ := orderly
  obtain rfl : u = t := Option.some.inj (hr.symm.trans ready.running)
  rw [holder fun ending he => by cases hc.symm.trans he]
  simp only [play_concat, act_call hc]
  refine ⟨?_, ?_, fun hx patience hp ha => ?_, fun hx => ?_⟩
  · refine run_of_ends (P := fun m => m.control = _) (isLocked_spec ready x) (fun p l hp => ?_) fun _ _ => False.elim
    rw [hp]
    rfl
  · refine run_of_ends (P := fun m => m.control = _) (holds_spec ready x) (fun p l hp => ?_) fun _ _ => False.elim
    rw [hp]
    rfl
  · exact run_of_ends (P := fun m => m.control = _) (lock_own_spec ready hx hp ha) (fun _ _ => False.elim)
      fun _ _ he => congrArg Control.ended he
  · exact run_of_ends (P := fun m => m.control = _) (unlock_foreign_spec ready hx) (fun _ _ => False.elim)
      fun _ _ he => congrArg Control.ended he

/-- The least urgent task locks a mutex and unblocks the most urgent one, which then waits for it until it is
unlocked. -/
def lockInTurn : List Act :=
  [.step, .step, .step, .step, .move (.call .block), .step, .step, .step, .step, .move (.call (.lock 1 .forever)),
    .step, .move (.call (.unblock 0)), .step, .step, .step, .step, .step, .move (.call (.lock 1 .forever)), .step,
    .step, .step, .step, .move (.call (.unlock 1)), .step, .step, .step, .step, .step]

theorem mutual_exclusion_lockInTurn :
    ownerships (c := (Showcase.full .strict).scenario.config) ⟨1, by decide⟩ lockInTurn =
        [.acquired ⟨2, by decide⟩, .released ⟨2, by decide⟩, .acquired ⟨0, by decide⟩] ∧
      (play (Showcase.full .strict).scenario.config (lockInTurn ++ [.move (.call (.holds 1))])).control =
        .leaving (some (.bool true)) ∧
      (play (Showcase.full .strict).scenario.config (lockInTurn ++ [.move (.call (.lock 1 .forever))])).control =
        .ended (.fatal .mutexDeadlock) := by
  have events : ownerships (c := (Showcase.full .strict).scenario.config) ⟨1, by decide⟩ lockInTurn =
      [.acquired ⟨2, by decide⟩, .released ⟨2, by decide⟩, .acquired ⟨0, by decide⟩] := by decide +kernel
  obtain ⟨_, told⟩ := mutual_exclusion (Showcase.full .strict).scenario.config lockInTurn ⟨1, by decide⟩
  obtain ⟨_, holds, deadlock, _⟩ := told (some .unit) ⟨0, by decide⟩ (by decide +kernel) (by decide +kernel)
  rw [events] at holds deadlock
  exact ⟨events, holds, deadlock rfl .forever nofun nofun⟩

end Machine

end Rtos
