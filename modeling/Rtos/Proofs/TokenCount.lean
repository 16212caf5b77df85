import Rtos.Proofs.History
import Rtos.Proofs.Kernel.Acceptance
import Rtos.Showcase

/-!
# Tokens

No token of a semaphore is lost, and none is taken twice.

* `Machine.posted`, `Machine.taken`: the number of tokens that were added to a semaphore and taken from it in a run.
* `Orderly.supply`: what an act does to the semaphores, with one case for each operation that is about them.
* `Machine.Counted`, `Machine.counted_play`: the main result.
-/

namespace Rtos
set_option autoImplicit false

variable {c : Config}

/-! ## Semaphores -/

namespace Kernel

variable {k : Kernel c} {t : c.TaskId}

theorem semaphore_setValue_self (k : Kernel c) (s : c.SemaphoreId) (value : UInt32) :
    (k.setValue s value).semaphores[s] = { k.semaphores[s] with value := value } := Table.getElem_set_self ..

theorem semaphore_setValue_ne (k : Kernel c) {s s' : c.SemaphoreId} (value : UInt32) (h : s' ≠ s) :
    (k.setValue s value).semaphores[s'] = k.semaphores[s'] := Table.getElem_set_of_ne k.semaphores _ h

theorem semaphore_setMax_self (k : Kernel c) (s : c.SemaphoreId) (max : UInt32) :
    (k.setMax s max).semaphores[s] = { k.semaphores[s] with max := some max } := Table.getElem_set_self ..

theorem semaphore_setMax_ne (k : Kernel c) {s s' : c.SemaphoreId} (max : UInt32) (h : s' ≠ s) :
    (k.setMax s max).semaphores[s'] = k.semaphores[s'] := Table.getElem_set_of_ne k.semaphores _ h

/-- The value does not exceed the maximum, if there is one. -/
def SemaphoreState.Bounded (s : SemaphoreState) : Prop := ∀ max, s.max = some max → s.value ≤ max

theorem toNat_add_one {value : UInt32} (h : value ≠ 0xffffffff) : (value + 1).toNat = value.toNat + 1 := by
  have small : value.toNat ≠ 2 ^ 32 - 1 := fun he => h (UInt32.toNat_inj.mp he)
  have := value.toNat_lt
  rw [UInt32.toNat_add, UInt32.toNat_one]
  omega

theorem toNat_sub_one {value : UInt32} (h : value ≠ 0) : (value - 1).toNat + 1 = value.toNat := by
  have positive : value.toNat ≠ 0 := fun he => h (UInt32.toNat_inj.mp he)
  have := value.toNat_lt
  rw [UInt32.toNat_sub, UInt32.toNat_one]
  omega

namespace SemaphoreState

variable {s : SemaphoreState} {value : UInt32}

/-- A token that is added counts, and leaves the value within the maximum. -/
theorem posted?_eq_some (h : posted? s = some value) :
    value.toNat = s.value.toNat + 1 ∧ Bounded { s with value := value } := by
  obtain ⟨room, h⟩ := Option.ite_none_left_eq_some.mp h
  split at h
  · next max hm =>
    obtain ⟨fits, h⟩ := Option.ite_none_right_eq_some.mp h
    cases h
    refine ⟨toNat_add_one room, fun max' hm' => ?_⟩
    cases hm.symm.trans hm'
    exact fits
  · next hm =>
    cases h
    refine ⟨toNat_add_one room, fun max' hm' => ?_⟩
    cases hm.symm.trans hm'

/-- There is no room for another token just if the value is the maximum, or the largest number of 32 bits. -/
theorem posted?_eq_none_iff (h : Bounded s) : posted? s = none ↔ s.max = some s.value ∨ s.value = 0xffffffff := by
  unfold posted?
  by_cases full : s.value = 0xffffffff
  · simp [full]
  rw [if_neg full]
  cases hm : s.max with
  | none => simp [full]
  | some max =>
    have bounded := UInt32.le_iff_toNat_le.mp (h max hm)
    have next := toNat_add_one full
    have reached : ¬ s.value + 1 ≤ max ↔ max = s.value := by
      rw [UInt32.le_iff_toNat_le, ← UInt32.toNat_inj]
      omega
    simp [full, reached]

theorem Bounded.sub_one (h : Bounded s) (some : s.value ≠ 0) : Bounded { s with value := s.value - 1 } := by
  intro max hm
  have bounded := UInt32.le_iff_toNat_le.mp (h max hm)
  have less := toNat_sub_one some
  exact UInt32.le_iff_toNat_le.mpr (by dsimp only; omega)

end SemaphoreState

/-! ## Calls about semaphores -/

theorem post_tokens (h : k.Ready t) (semaphore : Nat) : Ends (perform (.post semaphore)) k
    (fun p l => p = .done .unit ∧ ∃ s : c.SemaphoreId, s.val = semaphore ∧ ∃ value,
      SemaphoreState.posted? k.semaphores[s] = some value ∧ l.semaphores = (k.setValue s value).semaphores)
    fun ending _ => ∀ s : c.SemaphoreId, s.val = semaphore →
      ending = .fatal .semaphoreMaxExceeded ∧ SemaphoreState.posted? k.semaphores[s] = none := by
  simp only [perform, post, ends_bind, h.ends_enter, ends_semaphoreId, ends_get]
  refine ⟨fun hs => ?_, fun hn s he => absurd s.isLt (he ▸ hn)⟩
  split
  · next full =>
    rintro s rfl
    exact ⟨rfl, full⟩
  · next value room =>
    simp only [ends_bind, ends_modify, ends_ite, ends_pure]
    refine ⟨fun _ => ⟨trivial, ⟨semaphore, hs⟩, rfl, value, room, ?_⟩,
      fun _ => ⟨trivial, ⟨semaphore, hs⟩, rfl, value, room, rfl⟩⟩
    exact (resources_eq_iff.mp (resources_wakeWaiters _ _)).2.1

theorem initMax_tokens (h : k.Ready t) (semaphore : Nat) (max : UInt32) : Ends (perform (.initMax semaphore max)) k
    (fun p l => p = .done .unit ∧ ∃ s : c.SemaphoreId, s.val = semaphore ∧ k.semaphores[s].max = none ∧ max ≠ 0 ∧
      k.semaphores[s].value ≤ max ∧ l.semaphores = (k.setMax s max).semaphores)
    fun ending _ => ∀ s : c.SemaphoreId, s.val = semaphore →
      (ending = .fatal .semaphoreMaxAlreadyInit ∧ k.semaphores[s].max ≠ none) ∨
        (ending = .fatal .semaphoreMaxInvalid ∧ k.semaphores[s].max = none ∧
          (max = 0 ∨ max < k.semaphores[s].value)) := by
  simp only [perform, ends_bind, h.ends_enter, ends_semaphoreId, ends_initMax, ends_pure]
  refine ⟨fun hs => ⟨fun set => ?_, fun unset => ⟨fun invalid => ?_, fun valid => ?_⟩⟩,
    fun hn s he => absurd s.isLt (he ▸ hn)⟩
  · rintro s rfl
    exact .inl ⟨trivial, set⟩
  · rintro s rfl
    exact .inr ⟨trivial, unset, invalid⟩
  · exact ⟨trivial, ⟨semaphore, hs⟩, rfl, unset, valid.1, valid.2, rfl⟩

theorem tokens_told (h : k.Ready t) (s : c.SemaphoreId) : Ends (perform (.tokens s)) k
    (fun p _ => p = .done (.number k.semaphores[s].value.toNat)) fun _ _ => False := by
  simp only [perform, ends_bind, h.ends_enter, ends_semaphoreId, ends_get, ends_pure]
  exact ⟨fun _ => rfl, fun hn => hn s.isLt⟩

/-- A call for a token is answered, if the kernel accepts its arguments. -/
theorem wait_raises (ht : c.tasks.size ≤ c.timerCount) (h : k.Ready t) {call : Call} {s : c.SemaphoreId}
    {patience : Patience} (hr : call.request? c = some (.token s, patience)) (accepts : Accepts patience) :
    Ends (perform call) k (fun _ _ => True) fun _ _ => False := by
  cases call with
  | wait semaphore patience' =>
    obtain ⟨hs, he⟩ := Option.dite_none_right_eq_some.mp hr
    cases he
    simp only [perform, ends_bind, ends_expectPatience, h.ends_enter, ends_semaphoreId]
    refine ⟨fun _ => ⟨fun _ => ?_, fun hn => hn hs⟩, fun hn => hn accepts⟩
    have rejects : Rejects [] (ask (.token ⟨semaphore, hs⟩) patience) k.entered :=
      ask_rejects (k := k.entered) (r := .token ⟨semaphore, hs⟩) ht h.running
        patience (by rintro _ _ ⟨⟩) (by rintro ⟨_, ⟨⟩⟩)
    refine Ends.mono rejects (fun _ _ hl => hl) fun _ _ hl => ?_
    obtain ⟨_, none, _⟩ := hl.error
    cases none
  | lock mutex patience' | put queue message patience' | get queue message patience' =>
    obtain ⟨_, he⟩ := Option.dite_none_right_eq_some.mp hr
    cases he
  | _ => cases hr

/-- Of the requests, only that for a token changes a semaphore. -/
theorem semaphores_grant (k : Kernel c) (t : c.TaskId) {r : Request c} (h : ∀ s, r ≠ .token s) :
    (r.edit.apply t k).semaphores = k.semaphores := by
  cases r with
  | lock x => rfl
  | token s => exact absurd rfl (h s)
  | put q message =>
    rw [← resources_semaphores, Request.edit, resources_store]
    cases message <;> rfl
  | get q message =>
    rw [← resources_semaphores, Request.edit, resources_fetch]
    cases message <;> rfl

end Kernel

namespace Machine
open Kernel

variable {m m' : Machine c} {detour : Prop} {t : c.TaskId} {a : Act} {s : c.SemaphoreId}

/-! ## One act -/

/-- The operation that came to its end is about a semaphore. -/
def Concerns (e : Completion c) : Prop :=
  (∃ s, e.granted? = some (.token s)) ∨ (∃ semaphore, e.operation = .call (.post semaphore)) ∨
    ∃ semaphore max, e.operation = .call (.initMax semaphore max)

/-- What an act does to the semaphores, and which operation it brings to its end. -/
inductive Supply (m : Machine c) (a : Act) (m' : Machine c) : Prop
  | ends (ending : Ending) (control : m'.control = .ended ending)
  | takes (e : Completion c) (s : c.SemaphoreId) (completion : m.completion? a = some e)
      (granted : e.granted? = some (.token s))
    (left : m.kernel.semaphores[s].value ≠ 0)
    (semaphores : m'.kernel.semaphores = (m.kernel.setValue s (m.kernel.semaphores[s].value - 1)).semaphores)
  | adds (t : c.TaskId) (s : c.SemaphoreId) (value : UInt32)
      (completion : m.completion? a = some ⟨t, .call (.post s), .unit⟩)
    (room : SemaphoreState.posted? m.kernel.semaphores[s] = some value)
    (semaphores : m'.kernel.semaphores = (m.kernel.setValue s value).semaphores)
  | limits (t : c.TaskId) (s : c.SemaphoreId) (max : UInt32)
    (completion : m.completion? a = some ⟨t, .call (.initMax s max), .unit⟩) (unset : m.kernel.semaphores[s].max = none)
    (fits : m.kernel.semaphores[s].value ≤ max)
    (semaphores : m'.kernel.semaphores = (m.kernel.setMax s max).semaphores)
  | keeps (completion : ∀ e, m.completion? a = some e → ¬ Concerns e)
      (semaphores : m'.kernel.semaphores = m.kernel.semaphores)

theorem not_concerns {e : Completion c} (hr : ∀ s, e.granted? ≠ some (.token s))
    (ho : ∀ call, e.operation = .call call → (∀ semaphore, call ≠ .post semaphore) ∧ ∀ semaphore max,
      call ≠ .initMax semaphore max) :
    ¬ Concerns e := by
  rintro (⟨s, hs⟩ | ⟨semaphore, he⟩ | ⟨semaphore, max, he⟩)
  · exact hr s hs
  · exact (ho _ he).1 semaphore rfl
  · exact (ho _ he).2 semaphore max rfl

theorem granted?_eq_none {e : Completion c} (h : e.operation.request? = none) : e.granted? = none := by
  rw [Completion.granted?, h, ite_self]

/-- A call that makes a request is not about a semaphore in another way. -/
theorem call_of_request {op : Operation c} {r : Request c} (hr : op.request? = some r) {call : Call}
    (he : op = .call call) :
    (∀ semaphore, call ≠ .post semaphore) ∧ ∀ semaphore max, call ≠ .initMax semaphore max := by
  subst he
  constructor
  · rintro semaphore rfl
    cases hr
  · rintro semaphore max rfl
    cases hr

/-- What a call comes to that is about a semaphore, but makes no request. -/
theorem Orderly.supplies (h : m.Orderly detour) {call : Call} {ok : Kernel c → Prop} {bad : Ending → Kernel c → Prop}
    (hp : m.kernel.Ready t → Ends (perform call) m.kernel (fun p l => p = .done .unit ∧ ok l) bad)
    (ho : m.operation? a = some (t, .call call)) :
    (∃ ending, (m.act a).control = .ended ending ∧ bad ending (m.act a).kernel) ∨
      (m.completion? a = some ⟨t, .call call, .unit⟩ ∧ ok (m.act a).kernel) := by
  have completes : (m.act a).control = .leaving (some .unit) → m.completion? a = some ⟨t, .call call, .unit⟩ :=
    fun control => completion?_eq_some.mpr ⟨ho, control⟩
  obtain ⟨running, ⟨call', reply, rfl, he, hc⟩ | ⟨_, _, he, _⟩⟩ := operation?_cases ho
  swap
  · cases he
  cases he
  obtain ⟨_, ready⟩ := h.program hc running
  have outcome : (∃ ending, (m.act (.move (.call call))).control = .ended ending ∧
      bad ending (m.act (.move (.call call))).kernel) ∨
      ((m.act (.move (.call call))).control = .leaving (some .unit) ∧ ok (m.act (.move (.call call))).kernel) := by
    rw [act_call hc]
    refine run_of_ends (P := fun m' => (∃ ending, m'.control = .ended ending ∧ bad ending m'.kernel) ∨
      (m'.control = .leaving (some .unit) ∧ ok m'.kernel)) (hp ready) (fun p l hl => ?_)
        fun ending l hl => .inl ⟨ending, rfl, hl⟩
    obtain ⟨rfl, hl⟩ := hl
    exact .inr ⟨rfl, hl⟩
  exact outcome.imp_right (And.imp_left completes)

theorem Attempts.supply {op : Operation c} {r : Request c} (h : m.Attempts t r (m.act a))
    (ho : m.operation? a = some (t, op)) (hr : op.request? = some r) : m.Supply a (m.act a) := by
  have made : ∀ e, m.completion? a = some e → e.operation = op := fun e he => by
    cases ho.symm.trans (completion?_eq_some.mp he).1
    rfl
  have quiet : (∀ e, m.completion? a = some e → ∀ s, e.granted? ≠ some (.token s)) →
      ∀ e, m.completion? a = some e → ¬ Concerns e := fun hn e he =>
    not_concerns (hn e he) fun call hc => call_of_request hr ((made e he).symm.trans hc)
  cases h with
  | granted canFail allowed control resources suspensions =>
    have completion : m.completion? a = some ⟨t, op, reply r canFail true (m.kernel.received r)⟩ :=
      completion?_eq_some.mpr ⟨ho, control⟩
    have granted := granted?_reply (t := t) hr canFail (m.kernel.received r)
    have semaphores := (resources_eq_iff.mp resources).2.1
    by_cases token : ∃ s, r = .token s
    · obtain ⟨s, rfl⟩ := token
      exact .takes _ s completion granted allowed semaphores
    · have other : ∀ s, r ≠ .token s := fun s he => token ⟨s, he⟩
      refine .keeps (quiet fun e he s hs => ?_) (semaphores.trans (semaphores_grant m.kernel t other))
      cases completion.symm.trans he
      exact other s (Option.some.inj (granted.symm.trans hs))
  | denied denied control resources suspensions =>
    have completion : m.completion? a = some ⟨t, op, reply r true false r.buffer⟩ :=
      completion?_eq_some.mpr ⟨ho, control⟩
    refine .keeps (quiet fun e he s hs => ?_) (resources_eq_iff.mp resources).2.1
    cases completion.symm.trans he
    cases granted?_denied.symm.trans hs
  | waits deadline refused control resources suspensions =>
    refine .keeps (fun e he => ?_) (resources_eq_iff.mp resources).2.1
    cases (completion?_eq_none control nofun).symm.trans he
  | fails ending control => exact .ends ending control

/-- A call of a program that makes no request posts to a semaphore, gives it a maximum, or leaves all of them alone. -/
theorem Orderly.supply_call (h : m.Orderly detour)
    (ht : (∀ ending, m.control ≠ .ended ending) → c.tasks.size ≤ c.timerCount) {call : Call}
    (ho : m.operation? a = some (t, .call call)) (hr : call.request? c = none) : m.Supply a (m.act a) := by
  have only : ∀ u op, m.operation? a = some (u, op) → op = .call call := fun u op he => by
    cases ho.symm.trans he
    rfl
  have quiet : (∀ semaphore, call ≠ .post semaphore) → (∀ semaphore max, call ≠ .initMax semaphore max) →
      ∀ e, m.completion? a = some e → ¬ Concerns e := by
    intro hp hi e he
    have made := only _ _ (completion?_eq_some.mp he).1
    have request : e.operation.request? = none := by
      rw [made]
      exact Option.map_eq_none_iff.mpr hr
    refine not_concerns (fun s hs => ?_) fun call' hc' => ?_
    · cases (granted?_eq_none request).symm.trans hs
    · obtain rfl := Operation.call.inj (made.symm.trans hc')
      exact ⟨hp, hi⟩
  by_cases ha : call.asks = true
  · obtain ⟨ending, control⟩ := h.ended_of_no_request ht ho ha hr
    exact .ends ending control
  by_cases hg : call.gives = true
  · cases call with
    | unlock mutex =>
      rcases h.unlocks ho with ⟨ending, control⟩ | ⟨x, _, _, _, resources, _⟩
      · exact .ends ending control
      · exact .keeps (quiet nofun nofun) (resources_eq_iff.mp resources).2.1
    | post semaphore =>
      rcases h.supplies (fun ready => post_tokens ready semaphore) ho with ⟨ending, control, _⟩ | ⟨completion, s, rfl,
        value, room, hs⟩
      · exact .ends ending control
      · exact .adds t s value completion room hs
    | initMax semaphore max =>
      rcases h.supplies (fun ready => initMax_tokens ready semaphore max) ho with
        ⟨ending, control, _⟩ | ⟨completion, s, rfl, unset, _, fits, hs⟩
      · exact .ends ending control
      · exact .limits t s max completion unset fits hs
    | _ => cases hg
  · rw [Bool.not_eq_true] at ha hg
    rcases h.untouched ht a (fun u call' he => by cases only u _ he; exact ⟨ha, hg⟩)
      (fun u r d he => nomatch only u _ he) with
      ⟨ending, control⟩ | untouched
    · exact .ends ending control
    · refine .keeps (quiet ?_ ?_) (resources_eq_iff.mp untouched.resources).2.1
      · rintro semaphore rfl
        cases hg
      · rintro semaphore max rfl
        cases hg

theorem Orderly.supply (h : m.Orderly detour) (ht : (∀ ending, m.control ≠ .ended ending) → c.tasks.size ≤ c.timerCount)
    (a : Act) : m.Supply a (m.act a) := by
  -- What is neither a call nor an attempt is not about semaphores at all.
  have other : (∀ u op, m.operation? a = some (u, op) → ∃ wait, op = .wait wait ∧ ∀ r d, wait ≠ .request r d) →
      m.Supply a (m.act a) := by
    intro hw
    have calls : ∀ u call, m.operation? a ≠ some (u, .call call) := fun u call he => by
      obtain ⟨_, hwait, _⟩ := hw u _ he
      cases hwait
    have rounds : ∀ u r d, m.operation? a ≠ some (u, .wait (.request r d)) := fun u r d he => by
      obtain ⟨_, hwait, hn⟩ := hw u _ he
      cases hwait
      exact hn r d rfl
    rcases h.untouched ht a (fun u call he => absurd he (calls u call)) rounds with ⟨ending, control⟩ | untouched
    · exact .ends ending control
    · refine .keeps (fun e he => ?_) (resources_eq_iff.mp untouched.resources).2.1
      obtain ⟨wait, made, hn⟩ := hw _ _ (completion?_eq_some.mp he).1
      refine not_concerns (fun s hs => ?_) fun call hc => ?_
      · have request : e.operation.request? = none := by
          rw [made]
          cases wait with
          | request r d => exact absurd rfl (hn r d)
          | _ => rfl
        cases (granted?_eq_none request).symm.trans hs
      · cases made.symm.trans hc
  cases ho : m.operation? a with
  | none => exact other (by simp [ho])
  | some made =>
    obtain ⟨t, op⟩ := made
    cases hr : op.request? with
    | some r => exact (h.attempts ht ho hr).supply ho hr
    | none =>
      cases op with
      | call call => exact h.supply_call ht ho (Option.map_eq_none_iff.mp hr)
      | wait wait =>
        refine other fun u op he => ?_
        cases ho.symm.trans he
        refine ⟨wait, rfl, ?_⟩
        rintro r d rfl
        cases hr

/-! ## Each semaphore -/

/-- What an operation does to a semaphore that it is about. -/
inductive Part
  | take
  | add
  | limit (max : UInt32)
  deriving DecidableEq

/-- The part an operation plays for a semaphore. -/
def part? (s : c.SemaphoreId) (e : Completion c) : Option Part :=
  if e.granted? = some (.token s) then some .take
  else
    match e.operation with
    | .call (.post semaphore) => if semaphore = s then some .add else none
    | .call (.initMax semaphore max) => if semaphore = s then some (.limit max) else none
    | _ => none

/-- The semaphore is first as `x` says, and then as `y` says. -/
def Plays (x y : SemaphoreState) : Option Part → Prop
  | none => y = x
  | some .take => x.value ≠ 0 ∧ y = { x with value := x.value - 1 }
  | some .add => ∃ value, SemaphoreState.posted? x = some value ∧ y = { x with value := value }
  | some (.limit max) => x.max = none ∧ x.value ≤ max ∧ y = { x with max := some max }

theorem part?_take {e : Completion c} (h : e.granted? = some (.token s)) : part? s e = some .take := if_pos h

theorem part?_take_of_ne {e : Completion c} {s' : c.SemaphoreId} (h : e.granted? = some (.token s')) (hs : s ≠ s') :
    part? s e = none := by
  have other : e.granted? ≠ some (.token s) := fun he => hs (by cases h.symm.trans he; rfl)
  have request : ∃ r, e.operation.request? = some r := by
    rw [Completion.granted?] at h
    exact ⟨_, (Option.ite_none_right_eq_some.mp h).2⟩
  obtain ⟨r, hr⟩ := request
  rw [part?, if_neg other]
  split
  · next semaphore he =>
    exact absurd rfl ((call_of_request hr he).1 semaphore)
  · next semaphore max he =>
    exact absurd rfl ((call_of_request hr he).2 semaphore max)
  · rfl

theorem part?_call {call : Call} (h : call.request? c = none) (value : Value) :
    part? s ⟨t, .call call, value⟩ = match call with
      | .post semaphore => if semaphore = s then some .add else none
      | .initMax semaphore max => if semaphore = s then some (.limit max) else none
      | _ => none := by
  have quiet : (⟨t, .call call, value⟩ : Completion c).granted? ≠ some (.token s) := by
    have request : (Operation.call (c := c) call).request? = none := Option.map_eq_none_iff.mpr h
    rw [granted?_eq_none request]
    exact nofun
  rw [part?, if_neg quiet]
  cases call <;> rfl

theorem part?_eq_none {e : Completion c} (h : ¬ Concerns e) (s : c.SemaphoreId) : part? s e = none := by
  rw [part?, if_neg fun he => h (.inl ⟨s, he⟩)]
  split
  · next semaphore he => exact absurd (.inr (.inl ⟨semaphore, he⟩)) h
  · next semaphore max he => exact absurd (.inr (.inr ⟨semaphore, max, he⟩)) h
  · rfl

/-- Seen from a semaphore: it changes as the operation that comes to its end says, and not at all if there is none. -/
theorem Supply.plays (h : m.Supply a m') (hn : ∀ ending, m'.control ≠ .ended ending) (s : c.SemaphoreId) :
    Plays m.kernel.semaphores[s] m'.kernel.semaphores[s] ((m.completion? a).bind (part? s)) := by
  cases h with
  | ends ending control => exact absurd control (hn ending)
  | takes e s' completion granted left semaphores =>
    rw [completion, semaphores, Option.bind_some]
    by_cases hs : s = s'
    · subst hs
      rw [part?_take granted, semaphore_setValue_self]
      exact ⟨left, rfl⟩
    · rw [part?_take_of_ne granted hs, semaphore_setValue_ne _ _ hs]
      rfl
  | adds t s' value completion room semaphores =>
    rw [completion, semaphores, Option.bind_some, part?_call rfl]
    by_cases hs : s = s'
    · subst hs
      rw [semaphore_setValue_self]
      simp only [if_true]
      exact ⟨value, room, rfl⟩
    · rw [semaphore_setValue_ne _ _ hs]
      simp only [Fin.val_inj, Ne.symm hs, if_false]
      rfl
  | limits t s' max completion unset fits semaphores =>
    rw [completion, semaphores, Option.bind_some, part?_call rfl]
    by_cases hs : s = s'
    · subst hs
      rw [semaphore_setMax_self]
      simp only [if_true]
      exact ⟨unset, fits, rfl⟩
    · rw [semaphore_setMax_ne _ _ hs]
      simp only [Fin.val_inj, Ne.symm hs, if_false]
      rfl
  | keeps completion semaphores =>
    have silent : (m.completion? a).bind (part? s) = none := by
      cases he : m.completion? a with
      | none => rfl
      | some e => exact part?_eq_none (completion e he) s
    rw [silent, semaphores]
    rfl

/-! ## Runs -/

/-- The operations on a semaphore that come to an end in a run. -/
def parts (s : c.SemaphoreId) (acts : List Act) : List Part := (history c acts).filterMap (part? s)

/-- The number of tokens taken from a semaphore in a run. -/
def taken (s : c.SemaphoreId) (acts : List Act) : Nat := (parts s acts).count .take

/-- The number of tokens added to a semaphore in a run. -/
def posted (s : c.SemaphoreId) (acts : List Act) : Nat := (parts s acts).count .add

def Part.limit? : Part → Option UInt32
  | .limit max => some max
  | _ => none

/-- The maxima given to a semaphore: the one it is configured with, and those it is given in a run. -/
def limits (s : c.SemaphoreId) (acts : List Act) : List UInt32 :=
  (c.semaphoreAttr s).max.toList ++ (parts s acts).filterMap Part.limit?

theorem parts_concat (s : c.SemaphoreId) (acts : List Act) (a : Act) :
    parts s (acts ++ [a]) = parts s acts ++ (((play c acts).completion? a).bind (part? s)).toList :=
  filterMap_history_concat (part? s) acts a

/-- How a semaphore stands after a number of tokens were added and taken, and after it was given the maxima. -/
structure Stands (s : SemaphoreState) (initial : UInt32) (posted taken : Nat) (limits : List UInt32) : Prop where
  balance : s.value.toNat + taken = initial.toNat + posted
  limits : s.max.toList = limits
  bounded : Kernel.SemaphoreState.Bounded s

theorem Plays.stands {x y : SemaphoreState} {part : Option Part} (h : Plays x y part) {initial : UInt32}
    {parts : List Part} {given : List UInt32}
    (hx : Stands x initial (parts.count .add) (parts.count .take) (given ++ parts.filterMap Part.limit?)) :
    Stands y initial ((parts ++ part.toList).count .add) ((parts ++ part.toList).count .take)
      (given ++ (parts ++ part.toList).filterMap Part.limit?) := by
  obtain ⟨balance, limits, bounded⟩ := hx
  rw [List.count_append, List.count_append, List.filterMap_append, ← List.append_assoc, ← limits]
  cases part with
  | none =>
    obtain rfl : y = x := h
    exact ⟨balance, (List.append_nil _).symm, bounded⟩
  | some part =>
    cases part with
    | take =>
      obtain ⟨left, rfl⟩ := h
      have less := toNat_sub_one left
      refine ⟨?_, (List.append_nil _).symm, bounded.sub_one left⟩
      simp only [Option.toList_some, List.count_singleton]
      simp
      omega
    | add =>
      obtain ⟨value, room, rfl⟩ := h
      obtain ⟨more, bounded⟩ := SemaphoreState.posted?_eq_some room
      refine ⟨?_, (List.append_nil _).symm, bounded⟩
      simp only [Option.toList_some, List.count_singleton]
      simp
      omega
    | limit max =>
      obtain ⟨unset, fits, rfl⟩ := h
      refine ⟨balance, ?_, fun max' hm => ?_⟩
      · rw [unset]
        rfl
      · cases hm
        exact fits

theorem stands_boot (hn : ∀ ending, (boot c).control ≠ .ended ending) (s : c.SemaphoreId) :
    Stands (boot c).kernel.semaphores[s] (c.semaphoreAttr s).initial 0 0 (c.semaphoreAttr s).max.toList := by
  refine run_of_alive (P := fun m => Stands m.kernel.semaphores[s] _ _ _ _) (boot_accepts rfl rfl) hn fun _ l hl => ?_
  obtain ⟨accepted, booting, _⟩ := hl
  have start : l.semaphores[s] = ⟨(c.semaphoreAttr s).initial, (c.semaphoreAttr s).max⟩ :=
    (congrArg (·[s]) booting.semaphores).trans (Table.getElem_ofFn _ s)
  change Stands l.semaphores[s] _ _ _ _
  rw [start]
  refine ⟨rfl, rfl, fun max hm => ?_⟩
  have fits := accepted.semaphores s
  rw [semaphoreFits, show (c.semaphoreAttr s).max = some max from hm] at fits
  exact of_decide_eq_true (Bool.and_eq_true_iff.mp fits).2

theorem stands_play (acts : List Act) (hn : ∀ ending, (play c acts).control ≠ .ended ending) (s : c.SemaphoreId) :
    Stands (play c acts).kernel.semaphores[s] (c.semaphoreAttr s).initial (posted s acts) (taken s acts)
    (limits s acts) := by
  induction acts using play_induction with
  | boot =>
    have start := stands_boot hn s
    rwa [← List.append_nil (c.semaphoreAttr s).max.toList] at start
  | act acts a ih =>
    obtain ⟨orderly, timers⟩ := orderly_play (c := c) acts
    have plays := (orderly.supply timers a).plays hn s
    rw [posted, taken, limits, parts_concat]
    exact plays.stands (ih (not_ended_of_act hn))

theorem limits_append (s : c.SemaphoreId) (acts acts' : List Act) : limits s acts <+: limits s (acts ++ acts') := by
  rw [limits, limits, parts, parts, history, history, completions_append, List.filterMap_append, List.filterMap_append,
    ← List.append_assoc]
  exact List.prefix_append _ _

/-- Once a semaphore has a maximum, it keeps it. -/
theorem max_play {acts : List Act} (hn : ∀ ending, (play c acts).control ≠ .ended ending) {max : UInt32}
    (h : (play c acts).kernel.semaphores[s].max = some max) {acts' : List Act}
    (hn' : ∀ ending, (play c (acts ++ acts')).control ≠ .ended ending) :
    (play c (acts ++ acts')).kernel.semaphores[s].max = some max := by
  obtain ⟨rest, hr⟩ := limits_append s acts acts'
  rw [← (stands_play acts hn s).limits, ← (stands_play (acts ++ acts') hn' s).limits, h] at hr
  cases hm : (play c (acts ++ acts')).kernel.semaphores[s].max with
  | none =>
    rw [hm] at hr
    cases hr
  | some max' =>
    rw [hm] at hr
    cases hr
    rfl

/-! ## The result -/

/-- An attempt to take a token does not end the run, if the kernel accepts the arguments. -/
theorem Orderly.takes (h : m.Orderly detour) (ht : (∀ ending, m.control ≠ .ended ending) → c.tasks.size ≤ c.timerCount)
    {op : Operation c} (ho : m.operation? a = some (t, op)) (hr : op.request? = some (.token s)) (sound : op.Sound)
    (ending : Ending) : (m.act a).control ≠ .ended ending := by
  obtain ⟨running, ⟨call, reply, rfl, rfl, hc⟩ | ⟨wait, rfl, rfl, hc, hs⟩⟩ := operation?_cases ho
  · have ht := ht fun ending he => by cases hc.symm.trans he
    obtain ⟨executes, ready⟩ := h.program hc running
    obtain ⟨⟨r, patience⟩, hr', rfl⟩ := Option.map_eq_some_iff.mp hr
    have fails : Ends (perform call) m.kernel (fun _ _ => True) fun _ _ => False :=
      wait_raises ht ready hr' (sound _ patience hr').1
    rw [act_call hc]
    refine run_of_ends (P := fun m' => m'.control ≠ .ended ending)
      ((asks_spec ht ready (call.asks_of_request hr')).and fails) (fun p l hl => ?_) fun _ _ hf => hf.2.elim
    obtain ⟨r', patience', hr'', _, _, asked⟩ := hl.1
    cases hr'.symm.trans hr''
    exact not_ended_of_answered (asked.answered.congr rfl) ending
  · have ht := ht fun ending he => by cases hc.symm.trans he
    have resumes := h.resumes hc running
    rw [act_wait hc (resumes.between.thread.trans running) hs]
    cases wait with
    | request r deadline =>
      obtain rfl : r = .token s := Option.some.inj hr
      refine run_of_ends (P := fun m' => m'.control ≠ .ended ending)
        (pursueOn_spec ht running (r := .token s) (resumes.stranger hs) deadline) (fun p l hl => ?_)
        fun ending l hl => ?_
      · obtain ⟨k, disarmed, pursued⟩ := hl
        have same : ((Edit.endWait (Request.token s).object).apply t k).resources = m.kernel.resources :=
          (resources_noteWaiters _ _).trans disarmed.resources
        exact not_ended_of_answered (pursued.answered.congr same) ending
      · obtain ⟨k, _, _, _, start, n, overlaps⟩ := hl
        cases overlaps
    | block => cases hr
    | sleep => cases hr
    | signals set => cases hr

/-- What is known of a semaphore after a number of tokens were added and taken, and after it was given the maxima. -/
structure Counted (m : Machine c) (s : c.SemaphoreId) (posted taken : Nat) (limits : List UInt32) : Prop where
  stands : Stands m.kernel.semaphores[s] (c.semaphoreAttr s).initial posted taken limits
  /-- A task that asks is told how many tokens there are. -/
  told : ∀ reply, m.control = .application reply → (m.act (.move (.call (.tokens s)))).control =
    .leaving (some (.number ((c.semaphoreAttr s).initial.toNat + posted - taken)))
  /-- An attempt to take a token succeeds just if there is one, and takes exactly one; if it fails, it takes none. -/
  wait : ∀ a t op, m.operation? a = some (t, op) → op.request? = some (.token s) → op.Sound →
    (m.Granted a t op (.token s) ∧ (c.semaphoreAttr s).initial.toNat + posted - taken ≠ 0 ∧
        (m.act a).kernel.semaphores[s].value.toNat + 1 = m.kernel.semaphores[s].value.toNat) ∨
      (m.Refused a t op (.token s) ∧ (c.semaphoreAttr s).initial.toNat + posted - taken = 0 ∧
        (m.act a).kernel.semaphores[s] = m.kernel.semaphores[s])
  /-- A token cannot be added just if the value is the maximum, or the largest number of 32 bits. -/
  post : ∀ a t, m.operation? a = some (t, .call (.post s)) →
    ((m.act a).control = .ended (.fatal .semaphoreMaxExceeded) ∧
        (m.kernel.semaphores[s].max = some m.kernel.semaphores[s].value ∨ m.kernel.semaphores[s].value = 0xffffffff)) ∨
      (m.completion? a = some ⟨t, .call (.post s), .unit⟩ ∧
        ¬ (m.kernel.semaphores[s].max = some m.kernel.semaphores[s].value ∨ m.kernel.semaphores[s].value = 0xffffffff) ∧
        (m.act a).kernel.semaphores[s].value.toNat = m.kernel.semaphores[s].value.toNat + 1)
  /-- A maximum can be given just if there is none yet, and if it is positive and not below the value. -/
  initMax : ∀ a t max, m.operation? a = some (t, .call (.initMax s max)) →
    (m.completion? a = some ⟨t, .call (.initMax s max), .unit⟩ ∧ limits = [] ∧ 0 < max ∧
      m.kernel.semaphores[s].value ≤ max ∧
        (m.act a).kernel.semaphores[s].max = some max) ∨
      ((∃ ending, (m.act a).control = .ended ending) ∧
        ¬ (limits = [] ∧ 0 < max ∧ m.kernel.semaphores[s].value ≤ max))
  /-- Nothing else changes the semaphore. -/
  others : ∀ a, (∀ ending, (m.act a).control ≠ .ended ending) →
    (∀ e, m.completion? a = some e → part? s e = none) → (m.act a).kernel.semaphores[s] = m.kernel.semaphores[s]

theorem Orderly.told (h : m.Orderly detour) {reply : Option Value} (hc : m.control = .application reply)
    (s : c.SemaphoreId) :
    (m.act (.move (.call (.tokens s)))).control = .leaving (some (.number m.kernel.semaphores[s].value.toNat)) := by
  obtain ⟨t, _, ready, _⟩ := h.application hc
  rw [act_call hc]
  refine run_of_ends (P := fun m' => m'.control = _) (tokens_told ready s) (fun p l hp => ?_) fun _ _ => False.elim
  rw [hp]
  rfl

theorem Orderly.waited (h : m.Orderly detour) (ht : (∀ ending, m.control ≠ .ended ending) → c.tasks.size ≤ c.timerCount)
    {op : Operation c} (ho : m.operation? a = some (t, op)) (hr : op.request? = some (.token s)) (sound : op.Sound) :
    (m.Granted a t op (.token s) ∧ m.kernel.semaphores[s].value ≠ 0 ∧
        (m.act a).kernel.semaphores[s].value.toNat + 1 = m.kernel.semaphores[s].value.toNat) ∨
      (m.Refused a t op (.token s) ∧ m.kernel.semaphores[s].value = 0 ∧
        (m.act a).kernel.semaphores[s] = m.kernel.semaphores[s]) := by
  have hn := h.takes ht ho hr sound
  have attempts := h.attempts ht ho hr
  have plays := (attempts.supply ho hr).plays hn s
  have empty : m.kernel.Denies t (.token s) → m.kernel.semaphores[s].value = 0 := fun denied =>
    denied.refuses fun _ hx => nomatch hx
  obtain ⟨refused, granted⟩ := attempts_iff attempts ho hr hn (fun allowed => allowed) empty
  by_cases left : m.kernel.semaphores[s].value = 0
  · refine .inr ⟨refused.mpr left, left, ?_⟩
    -- Without a token, the operation cannot have taken one.
    have silent : (m.completion? a).bind (part? s) = none := by
      cases he : m.completion? a with
      | none => rfl
      | some e =>
        have made := (completion?_eq_some.mp he).1
        cases ho.symm.trans made
        have quiet : e.granted? ≠ some (.token s) := fun hg => granted.mp ⟨e.value, he, hg⟩ left
        rw [Option.bind_some, part?, if_neg quiet]
        split
        · next semaphore hc => exact absurd rfl ((call_of_request hr hc).1 semaphore)
        · next semaphore max hc => exact absurd rfl ((call_of_request hr hc).2 semaphore max)
        · rfl
    rwa [silent] at plays
  · refine .inl ⟨granted.mpr left, left, ?_⟩
    obtain ⟨value, completion, took⟩ := granted.mpr left
    rw [completion, Option.bind_some, part?_take took] at plays
    obtain ⟨_, hs⟩ := plays
    rw [hs]
    exact toNat_sub_one left

theorem Orderly.posted (h : m.Orderly detour) (bounded : SemaphoreState.Bounded m.kernel.semaphores[s])
    (ho : m.operation? a = some (t, .call (.post s))) :
    ((m.act a).control = .ended (.fatal .semaphoreMaxExceeded) ∧
        (m.kernel.semaphores[s].max = some m.kernel.semaphores[s].value ∨ m.kernel.semaphores[s].value = 0xffffffff)) ∨
      (m.completion? a = some ⟨t, .call (.post s), .unit⟩ ∧
        ¬ (m.kernel.semaphores[s].max = some m.kernel.semaphores[s].value ∨ m.kernel.semaphores[s].value = 0xffffffff) ∧
        (m.act a).kernel.semaphores[s].value.toNat = m.kernel.semaphores[s].value.toNat + 1) := by
  rw [← SemaphoreState.posted?_eq_none_iff bounded]
  rcases h.supplies (fun ready => post_tokens ready s) ho with ⟨ending, control, failed⟩ | ⟨completion, s', hs, value,
    room, after⟩
  · obtain ⟨rfl, full⟩ := failed s rfl
    exact .inl ⟨control, full⟩
  · obtain rfl : s' = s := Fin.ext hs
    refine .inr ⟨completion, by rw [room]; exact nofun, ?_⟩
    rw [after, semaphore_setValue_self]
    exact (SemaphoreState.posted?_eq_some room).1

theorem Orderly.limited (h : m.Orderly detour) {max : UInt32} (ho : m.operation? a = some (t, .call (.initMax s max))) :
    (m.completion? a = some ⟨t, .call (.initMax s max), .unit⟩ ∧
        (m.kernel.semaphores[s].max = none ∧ 0 < max ∧ m.kernel.semaphores[s].value ≤ max) ∧
        (m.act a).kernel.semaphores[s].max = some max) ∨
      ((∃ ending, (m.act a).control = .ended ending) ∧
        ¬ (m.kernel.semaphores[s].max = none ∧ 0 < max ∧ m.kernel.semaphores[s].value ≤ max)) := by
  rcases h.supplies (fun ready => initMax_tokens ready s max) ho with ⟨ending, control, failed⟩ | ⟨completion, s', hs,
    unset, positive, fits, after⟩
  · refine .inr ⟨⟨ending, control⟩, fun ⟨unset, positive, fits⟩ => ?_⟩
    rcases failed s rfl with ⟨_, set⟩ | ⟨_, _, zero | beyond⟩
    · exact set unset
    · exact (UInt32.pos_iff_ne_zero.mp positive) zero
    · exact UInt32.not_lt.mpr fits beyond
  · obtain rfl : s' = s := Fin.ext hs
    refine .inl ⟨completion, ⟨unset, UInt32.pos_iff_ne_zero.mpr positive, fits⟩, ?_⟩
    rw [after, semaphore_setMax_self]

/-- Whatever the tasks do and whenever the interrupts come: until the run is over every semaphore holds the tokens it
was configured with and those that were added, without those that were taken, and it keeps within its maximum once it
has one. -/
theorem counted_play (acts : List Act) (hn : ∀ ending, (play c acts).control ≠ .ended ending) (s : c.SemaphoreId) :
    (play c acts).Counted s (posted s acts) (taken s acts) (limits s acts) ∧
      ∀ max, (play c acts).kernel.semaphores[s].max = some max → ∀ acts',
        (∀ ending, (play c (acts ++ acts')).control ≠ .ended ending) →
          (play c (acts ++ acts')).kernel.semaphores[s].max = some max := by
  obtain ⟨orderly, timers⟩ := orderly_play (c := c) acts
  have stands := stands_play acts hn s
  have count : (c.semaphoreAttr s).initial.toNat + posted s acts - taken s acts =
      (play c acts).kernel.semaphores[s].value.toNat := by
    have := stands.balance
    omega
  have limits : limits s acts = [] ↔ (play c acts).kernel.semaphores[s].max = none := by
    rw [← stands.limits, Option.toList_eq_nil_iff]
  refine ⟨⟨stands, fun reply hc => ?_, fun a t op ho hr sound => ?_, fun a t ho => orderly.posted stands.bounded ho,
    fun a t max ho => ?_, fun a hna silent => ?_⟩, fun max hm acts' hn' => max_play hn hm hn'⟩
  · rw [count]
    exact orderly.told hc s
  · rw [count]
    have zero : (play c acts).kernel.semaphores[s].value.toNat = 0 ↔ (play c acts).kernel.semaphores[s].value = 0 :=
      UInt32.toNat_inj (b := 0)
    simp only [ne_eq, zero]
    exact orderly.waited timers ho hr sound
  · rw [limits]
    rcases orderly.limited ho with ⟨completion, ⟨unset, positive, fits⟩, after⟩ | failed
    · exact .inl ⟨completion, unset, positive, fits, after⟩
    · exact .inr failed
  · have plays := (orderly.supply timers a).plays hna s
    have quiet : ((play c acts).completion? a).bind (part? s) = none := Option.bind_eq_none_iff.mpr silent
    rwa [quiet] at plays

/-- The most urgent task adds two tokens, takes one, and gives the semaphore a maximum. -/
def postAndWait : List Act :=
  [.step, .step, .step, .step, .move (.call (.post 0)), .step, .move (.call (.post 0)), .step,
    .move (.call (.wait 0 .forever)), .step, .move (.call (.initMax 0 2)), .step]

theorem counted_postAndWait :
    posted (c := (Showcase.full .strict).scenario.config) ⟨0, by decide⟩ postAndWait = 2 ∧
      taken (c := (Showcase.full .strict).scenario.config) ⟨0, by decide⟩ postAndWait = 1 ∧
      (play (Showcase.full .strict).scenario.config postAndWait).kernel.semaphores[(⟨0, by decide⟩ :
        (Showcase.full .strict).scenario.config.SemaphoreId)].max.toList = [2] ∧
      (play (Showcase.full .strict).scenario.config (postAndWait ++ [.move (.call (.tokens 0))])).control =
        .leaving (some (.number 1)) := by
  have adds : posted (c := (Showcase.full .strict).scenario.config) ⟨0, by decide⟩ postAndWait = 2 := by decide +kernel
  have takes : taken (c := (Showcase.full .strict).scenario.config) ⟨0, by decide⟩ postAndWait = 1 := by decide +kernel
  have gives : limits (c := (Showcase.full .strict).scenario.config) ⟨0, by decide⟩ postAndWait = [2] := by
    decide +kernel
  have here : (play (Showcase.full .strict).scenario.config postAndWait).control = .application (some .unit) := by
    decide +kernel
  obtain ⟨counted, _⟩ := counted_play (c := (Showcase.full .strict).scenario.config) postAndWait
    (fun ending he => by cases here.symm.trans he) ⟨0, by decide⟩
  rw [adds, takes, gives] at counted
  refine ⟨adds, takes, counted.stands.limits, ?_⟩
  rw [play_concat]
  exact counted.told _ here

end Machine

end Rtos
