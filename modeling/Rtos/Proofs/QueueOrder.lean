import Rtos.Proofs.History
import Rtos.Showcase

/-!
# First in, first out

A queue delivers the messages that were stored in it, in the same order, as long as the application leaves the buffer
pool of the kernel alone.

* `Machine.stored`, `Machine.delivered`: the messages stored in a queue and delivered from it in a run, in the order of
  the critical sections.
* `Effect.exchange`: what an act does to the contents of a queue.
* `Machine.InOrder`, `Machine.inOrder_play`: the main result.
-/

namespace Rtos
set_option autoImplicit false

variable {c : Config}

/-- The message of the call, if it has one, is in memory of the caller. -/
def Call.outside : Call → Bool
  | .put _ (.pooled _ _) _ | .get _ (.pooled _ _) _ => false
  | _ => true

def Act.outside : Act → Bool
  | .move (.call call) => call.outside
  | _ => true

/-- The message of a request is in memory of the caller, and has the size of the messages of the queue. -/
def Request.Outside (r : Request c) : Prop :=
  ∀ q, r.object = .queue q → ∃ bytes, r.buffer = .own bytes ∧ bytes.length = Kernel.elementSize q

/-- The message that an operation stored in a queue. -/
def Completion.stored? (q : c.QueueId) (e : Completion c) : Option (List UInt8) :=
  match e.granted? with
  | some (.put q' (.own bytes)) => if q' = q then some bytes else none
  | _ => none

/-- The message that an operation got from a queue. -/
def Completion.delivered? (q : c.QueueId) (e : Completion c) : Option (List UInt8) :=
  match e.granted?, e.value with
  | some (.get q' _), .message _ (.own bytes) => if q' = q then some bytes else none
  | _, _ => none

theorem Call.own_of_outside {call : Call} {r : Request c} {patience : Patience} (h : call.outside = true)
    (hr : call.request? c = some (r, patience)) {q : c.QueueId} (hq : r.object = .queue q) :
    ∃ bytes, r.buffer = .own bytes := by
  cases call with
  | put queue message patience | get queue message patience =>
    obtain ⟨_, he⟩ := Option.dite_none_right_eq_some.mp hr
    cases he
    cases message with
    | own bytes => exact ⟨bytes, rfl⟩
    | pooled start length => cases h
  | lock mutex patience | wait semaphore patience =>
    obtain ⟨_, he⟩ := Option.dite_none_right_eq_some.mp hr
    cases he
    cases hq
  | _ => cases hr

/-- An operation that is not granted a request to a queue neither stores a message in it nor gets one from it. -/
theorem exchanged?_eq_none {q : c.QueueId} {e : Completion c} (h : ∀ r, e.granted? = some r → r.object ≠ .queue q) :
    e.stored? q = none ∧ e.delivered? q = none := by
  unfold Completion.stored? Completion.delivered?
  cases hr : e.granted? with
  | none => exact ⟨rfl, rfl⟩
  | some r =>
    have other := h r hr
    cases r with
    | put q' message =>
      have hne : q' ≠ q := fun he => other (he ▸ rfl)
      cases message with
      | own bytes => exact ⟨if_neg hne, rfl⟩
      | pooled start length => exact ⟨rfl, rfl⟩
    | get q' message =>
      have hne : q' ≠ q := fun he => other (he ▸ rfl)
      refine ⟨rfl, ?_⟩
      split
      · next h₁ h₂ =>
        cases h₁
        exact if_neg hne
      · rfl
    | lock x => exact ⟨rfl, rfl⟩
    | token s => exact ⟨rfl, rfl⟩

namespace Machine
open Kernel

variable {m m' : Machine c} {detour : Prop} {t : c.TaskId} {a : Act} {q : c.QueueId}

/-- The messages stored in a queue in a run. -/
def stored (q : c.QueueId) (acts : List Act) : List (List UInt8) := (history c acts).filterMap (Completion.stored? q)

/-- The messages delivered from a queue in a run. -/
def delivered (q : c.QueueId) (acts : List Act) : List (List UInt8) :=
  (history c acts).filterMap (Completion.delivered? q)

/-! ## One act -/

/-- The rings are in order, and whoever waits for a queue has its message in memory of its own. -/
structure Exchanging (m : Machine c) : Prop where
  fit : m.kernel.RingsFit
  outside : ∀ (u : c.TaskId) (r : Request c) (d : Option Ticks), m.suspensions[u] = .waiting (.request r d) → r.Outside

/-- What an act does to the queues: each keeps its rings in order, delivers what it delivers from the front and appends
what it stores at the end. -/
structure Exchanges (m : Machine c) (a : Act) (m' : Machine c) : Prop where
  fit : m'.kernel.RingsFit
  order : ∀ q, ((m.completion? a).bind (Completion.delivered? q)).toList ++ m'.kernel.contents q =
    m.kernel.contents q ++ ((m.completion? a).bind (Completion.stored? q)).toList

theorem exchanges_of_same (fit : m.kernel.RingsFit) (rings : m'.kernel.rings = m.kernel.rings)
    (pool : m'.kernel.pool = m.kernel.pool)
    (h : ∀ e, m.completion? a = some e → ∀ r, e.granted? = some r → ∀ q, r.object ≠ .queue q) : m.Exchanges a m' where
  fit := fit.congr rings pool
  order q := by
    rw [contents_congr rings pool]
    cases he : m.completion? a with
    | none => simp
    | some e =>
      obtain ⟨stored, delivered⟩ := exchanged?_eq_none fun r hr => h e he r hr q
      simp [stored, delivered]

theorem exchanges_of_put (fit : m.kernel.RingsFit) {bytes : List UInt8} (size : bytes.length = elementSize q)
    (room : m.kernel.rings[q].count ≠ capacity q)
    (resources : m'.kernel.resources = (m.kernel.appended q bytes).resources) {e : Completion c}
    (completion : m.completion? a = some e) (granted : e.granted? = some (.put q (.own bytes))) :
    m.Exchanges a m' := by
  obtain ⟨_, _, rings, pool⟩ := resources_eq_iff.mp resources
  refine ⟨(fit.appended room).congr rings pool, fun q' => ?_⟩
  have delivered : e.delivered? q' = none := by rw [Completion.delivered?, granted]
  rw [completion, Option.bind_some, Option.bind_some, delivered, contents_congr rings pool, Completion.stored?, granted]
  by_cases hq : q' = q
  · subst hq
    simpa using fit.contents_appended room size
  · simpa [Ne.symm hq] using fit.contents_appended_ne size hq

theorem exchanges_of_get (fit : m.kernel.RingsFit) {message : Buffer} (some : m.kernel.rings[q].count ≠ 0)
    (resources : m'.kernel.resources = (m.kernel.popped q).resources) {e : Completion c}
    (completion : m.completion? a = .some e) (granted : e.granted? = .some (.get q message)) {b : Bool}
    (value : e.value = .message b (.own (m.kernel.messageAt q m.kernel.rings[q].head))) : m.Exchanges a m' := by
  obtain ⟨_, _, rings, pool⟩ := resources_eq_iff.mp resources
  refine ⟨(fit.popped q).congr rings pool, fun q' => ?_⟩
  have stored : e.stored? q' = none := by rw [Completion.stored?, granted]
  rw [completion, Option.bind_some, Option.bind_some, stored, contents_congr rings pool, Completion.delivered?, granted,
    value]
  by_cases hq : q' = q
  · subst hq
    simpa using (fit.contents_popped some).symm
  · simpa [Ne.symm hq] using m.kernel.contents_popped_ne hq

theorem Effect.exchange (h : m.Effect a m') (hn : ∀ ending, m'.control ≠ .ended ending) (fit : m.kernel.RingsFit)
    (outside : ∀ t op r, m.operation? a = some (t, op) → op.request? = some r → r.Outside) : m.Exchanges a m' := by
  cases h with
  | ends ending control => exact absurd control (hn ending)
  | @grants t op r canFail request allowed completion resources suspensions =>
    have granted := granted?_reply (t := t) request canFail (m.kernel.received r)
    have outside := outside t op r (completion?_eq_some.mp completion).1 request
    -- A message outside of the pool is just its bytes, so storing it cannot change it.
    cases r with
    | put q message =>
      obtain ⟨bytes, own, size⟩ := outside q rfl
      obtain rfl : message = .own bytes := own
      exact exchanges_of_put fit size allowed.1 (resources.trans (resources_store ..)) completion granted
    | get q message =>
      obtain ⟨bytes, own, size⟩ := outside q rfl
      obtain rfl : message = .own bytes := own
      refine exchanges_of_get (b := true) fit allowed.1 (resources.trans (resources_fetch ..)) completion granted ?_
      rw [messageAt, ← size]
      rfl
    | lock x | token s =>
      refine exchanges_of_same fit (resources_eq_iff.mp resources).2.2.1 (resources_eq_iff.mp resources).2.2.2
        fun e he r hr q hq => ?_
      cases completion.symm.trans he
      cases granted.symm.trans hr
      cases hq
  | denies request denied completion resources suspensions =>
    obtain ⟨_, _, rings, pool⟩ := resources_eq_iff.mp resources
    refine exchanges_of_same fit rings pool fun e he r hr => ?_
    cases completion.symm.trans he
    cases granted?_denied.symm.trans hr
  | waits deadline operation request refused completion resources suspensions =>
    obtain ⟨_, _, rings, pool⟩ := resources_eq_iff.mp resources
    refine exchanges_of_same fit rings pool fun e he => ?_
    cases completion.symm.trans he
  | unlocks holds completion resources suspensions =>
    obtain ⟨_, _, rings, pool⟩ := resources_eq_iff.mp resources
    refine exchanges_of_same fit rings pool fun e he r hr => ?_
    cases completion.symm.trans he
    cases hr
  | otherwise completion holders rings pool requests =>
    refine exchanges_of_same fit rings pool fun e he r hr => ?_
    unfold Completion.granted? at hr
    rw [(completion e he).1, ite_self] at hr
    cases hr

/-- Whoever comes to wait for a queue has its message in memory of its own. -/
theorem Effect.outside (h : m.Effect a m') (hn : ∀ ending, m'.control ≠ .ended ending) (hm : m.Exchanging)
    (outside : ∀ t op r, m.operation? a = some (t, op) → op.request? = some r → r.Outside) (u : c.TaskId)
    (r : Request c) (d : Option Ticks) (hs : m'.suspensions[u] = .waiting (.request r d)) : r.Outside := by
  cases h with
  | ends ending control => exact absurd control (hn ending)
  | grants canFail request allowed completion resources suspensions => exact hm.outside u r d (suspensions ▸ hs)
  | denies request denied completion resources suspensions => exact hm.outside u r d (suspensions ▸ hs)
  | @waits t op r' deadline operation request refused completion resources suspensions =>
    rw [suspensions] at hs
    by_cases hu : u = t
    · subst hu
      rw [Table.getElem_set_self] at hs
      cases hs
      exact outside u op r operation request
    · rw [Table.getElem_set_of_ne m.suspensions _ hu] at hs
      exact hm.outside u r d hs
  | unlocks holds completion resources suspensions => exact hm.outside u r d (suspensions ▸ hs)
  | otherwise completion holders rings pool requests => exact hm.outside u r d (requests u r d hs)

/-- The message of every attempt is in memory of the caller, and has the right size. -/
theorem Exchanging.operation (hm : m.Exchanging) (ha : a.outside = true) {op : Operation c} {r : Request c}
    (ho : m.operation? a = some (t, op)) (hr : op.request? = some r) (sound : op.Sound) : r.Outside := by
  obtain ⟨_, ⟨call, reply, rfl, rfl, _⟩ | ⟨wait, rfl, rfl, _, hs⟩⟩ := operation?_cases ho
  · obtain ⟨⟨r', patience⟩, hr', he⟩ := Option.map_eq_some_iff.mp hr
    obtain rfl : r' = r := he
    intro q hq
    obtain ⟨bytes, own⟩ := Call.own_of_outside ha hr' hq
    refine ⟨bytes, own, ?_⟩
    rw [← (sound r' patience hr').2 q hq, own]
    rfl
  · cases wait with
    | request r' d =>
      obtain rfl : r' = r := Option.some.inj hr
      exact hm.outside t r' d hs
    | block => cases hr
    | sleep => cases hr
    | signals set => cases hr

theorem Exchanging.act (hm : m.Exchanging) (h : m.Orderly detour)
    (ht : (∀ ending, m.control ≠ .ended ending) → c.tasks.size ≤ c.timerCount) (ha : a.outside = true)
    (hn : ∀ ending, (m.act a).control ≠ .ended ending) : (m.act a).Exchanging ∧ m.Exchanges a (m.act a) := by
  have outside : ∀ t op r, m.operation? a = some (t, op) → op.request? = some r → r.Outside := by
    intro t op r ho hr
    rcases h.sound ht ho with ⟨ending, he⟩ | sound
    · exact absurd he (hn ending)
    · exact hm.operation ha ho hr sound
  have effect := h.effect ht a
  have exchanges := effect.exchange hn hm.fit outside
  exact ⟨⟨exchanges.fit, effect.outside hn hm outside⟩, exchanges⟩

/-! ## Runs -/

/-- What was delivered from a queue, and what it still holds, is what was stored in it. -/
theorem exchanging_play (acts : List Act) (outside : ∀ a ∈ acts, a.outside = true)
    (hn : ∀ ending, (play c acts).control ≠ .ended ending) : (play c acts).Exchanging ∧
      ∀ q, delivered q acts ++ (play c acts).kernel.contents q = stored q acts := by
  induction acts using play_induction with
  | boot =>
    revert hn
    refine run_of_ends (P := fun m => (∀ ending, m.control ≠ .ended ending) → m.Exchanging ∧
      ∀ q, delivered q [] ++ m.kernel.contents q = stored q []) (boot_ringsFit rfl rfl) (fun _ l hl _ => ?_)
      fun ending l _ hn => absurd rfl (hn ending)
    refine ⟨⟨hl.1, fun u r d hs => ?_⟩, hl.2⟩
    have entry : (initial c).suspensions[u] = .entry := Table.getElem_replicate ..
    cases entry.symm.trans hs
  | act acts a ih =>
    obtain ⟨hm, order⟩ := ih (fun b hb => outside b (List.mem_append_left _ hb)) (not_ended_of_act hn)
    obtain ⟨orderly, timers⟩ := orderly_play (c := c) acts
    obtain ⟨hm', exchanges⟩ := hm.act orderly timers (outside a (List.mem_append_right _ List.mem_cons_self)) hn
    refine ⟨hm', fun q => ?_⟩
    calc delivered q (acts ++ [a]) ++ ((play c acts).act a).kernel.contents q
      _ = delivered q acts ++ ((((play c acts).completion? a).bind (Completion.delivered? q)).toList ++
            ((play c acts).act a).kernel.contents q) := by
          rw [delivered, filterMap_history_concat, ← delivered, List.append_assoc]
      _ = delivered q acts ++ (play c acts).kernel.contents q ++
            (((play c acts).completion? a).bind (Completion.stored? q)).toList := by
          rw [exchanges.order q, List.append_assoc]
      _ = stored q (acts ++ [a]) := by
          rw [order q, stored, stored, filterMap_history_concat]

/-- Also when the run is over, nothing was delivered but what was stored before, in the same order. -/
theorem delivered_prefix_stored (acts : List Act) (outside : ∀ a ∈ acts, a.outside = true) (q : c.QueueId) :
    delivered q acts <+: stored q acts := by
  induction acts using play_induction (c := c) with
  | boot => exact List.nil_prefix
  | act acts a ih =>
    by_cases he : ∃ ending, ((play c acts).act a).control = .ended ending
    · obtain ⟨ending, he⟩ := he
      rw [delivered, stored, filterMap_history_concat, filterMap_history_concat, completion?_eq_none he nofun]
      simpa [delivered, stored] using ih fun b hb => outside b (List.mem_append_left _ hb)
    · rw [← play_concat] at he
      exact ⟨_, (exchanging_play (acts ++ [a]) outside fun ending hc => he ⟨ending, hc⟩).2 q⟩

/-! ## The result -/

theorem messages_spec {k : Kernel c} (h : k.Ready t) (q : c.QueueId) : Ends (perform (.messages q)) k
    (fun p _ => p = .done (.number k.rings[q].count)) fun _ _ => False := by
  simp only [perform, ends_bind, h.ends_enter, ends_queueId, ends_get, ends_pure]
  exact ⟨fun _ => rfl, fun hn => hn q.isLt⟩

/-- How a queue stands after the given messages were stored in it and delivered from it. -/
structure InOrder (m : Machine c) (q : c.QueueId) (stored delivered : List (List UInt8)) : Prop where
  order : delivered ++ m.kernel.contents q = stored
  fits : stored.length - delivered.length ≤ capacity q
  /-- A task that asks is told the number of messages that were stored and not delivered. -/
  told : ∀ reply u, m.control = .application reply → m.kernel.running = some u →
    (m.act (.move (.call (.messages q)))).control = .leaving (some (.number (stored.length - delivered.length)))
  /-- An attempt to put a message fails just if the queue is full. -/
  put : ∀ a t op message, a.outside = true → m.operation? a = some (t, op) → op.request? = some (.put q message) →
    op.Sound → (m.Refused a t op (.put q message) ↔ stored.length - delivered.length = capacity q) ∧
      (m.Granted a t op (.put q message) ↔ ¬ stored.length - delivered.length = capacity q)
  /-- An attempt to get a message fails just if the queue is empty. -/
  get : ∀ a t op message, a.outside = true → m.operation? a = some (t, op) → op.request? = some (.get q message) →
    op.Sound → (m.Refused a t op (.get q message) ↔ stored.length - delivered.length = 0) ∧
      (m.Granted a t op (.get q message) ↔ ¬ stored.length - delivered.length = 0)
  /-- Nothing but a granted request to the queue itself changes its contents. -/
  others : ∀ a, a.outside = true → (∀ ending, (m.act a).control ≠ .ended ending) →
    (∀ e r, m.completion? a = some e → e.granted? = some r → r.object ≠ .queue q) →
      (m.act a).kernel.contents q = m.kernel.contents q

theorem inOrder_of_not_ended {acts : List Act} (outside : ∀ a ∈ acts, a.outside = true)
    (hn : ∀ ending, (play c acts).control ≠ .ended ending) (q : c.QueueId) :
    (play c acts).InOrder q (stored q acts) (delivered q acts) := by
  obtain ⟨hm, order⟩ := exchanging_play acts outside hn
  obtain ⟨orderly, timers⟩ := orderly_play (c := c) acts
  have count : (stored q acts).length - (delivered q acts).length = (play c acts).kernel.rings[q].count := by
    rw [← order q, List.length_append, Nat.add_sub_cancel_left, length_contents]
  have attempts : ∀ {full : Prop} {a t op r}, r.object = .queue q → a.outside = true →
      (play c acts).operation? a = some (t, op) → op.request? = some r → op.Sound →
      (r.edit.Allowed t (play c acts).kernel → ¬ full) → ((play c acts).kernel.Denies t r → full) →
      ((play c acts).Refused a t op r ↔ full) ∧ ((play c acts).Granted a t op r ↔ ¬ full) := by
    intro full a t op r hq ha ho hr sound allowed denied
    obtain ⟨bytes, own, _⟩ := hm.operation ha ho hr sound q hq
    exact attempts_iff (orderly.attempts timers ho hr) ho hr (orderly.exchanges timers ho hr hq own sound)
      allowed denied
  refine ⟨order q, ?_, fun reply u hc hr => ?_, fun a t op message ha ho hr sound => ?_,
    fun a t op message ha ho hr sound => ?_,
    fun a ha hna silent => ?_⟩
  · rw [count]
    exact hm.fit.count q
  · rw [count, act_call hc]
    obtain ⟨t, _, ready, _⟩ := orderly.application hc
    refine run_of_ends (P := fun m => m.control = _) (messages_spec ready q) (fun p l hp => ?_) fun _ _ => False.elim
    rw [hp]
    rfl
  · rw [count]
    refine attempts rfl ha ho hr sound (fun allowed => allowed.1) fun denied => ?_
    exact denied.refuses fun _ hx => nomatch hx
  · rw [count]
    refine attempts rfl ha ho hr sound (fun allowed => allowed.1) fun denied => ?_
    exact denied.refuses fun _ hx => nomatch hx
  · have exchange := (hm.act orderly timers ha hna).2.order q
    cases he : (play c acts).completion? a with
    | none =>
      rw [he] at exchange
      simpa using exchange
    | some e =>
      obtain ⟨stored, delivered⟩ := exchanged?_eq_none fun r hr => silent e r he hr
      rw [he, Option.bind_some, Option.bind_some, stored, delivered] at exchange
      simpa using exchange

/-- Whatever the tasks do and whenever the interrupts come, as long as all messages are in memory of the callers: every
queue delivers what was stored in it, in the same order, and until the run is over it holds the rest. -/
theorem inOrder_play (c : Config) (acts : List Act) (outside : ∀ a ∈ acts, a.outside = true) (q : c.QueueId) :
    delivered q acts <+: stored q acts ∧ ((∀ ending, (play c acts).control ≠ .ended ending) →
      (play c acts).InOrder q (stored q acts) (delivered q acts)) :=
  ⟨delivered_prefix_stored acts outside q, fun hn => inOrder_of_not_ended outside hn q⟩

/-- The most urgent task puts two messages and blocks. The least urgent one gets the first of them. -/
def putThenGet : List Act :=
  [.step, .step, .step, .step, .move (.call (.put 0 (.own [1, 2]) .forever)), .step,
    .move (.call (.put 0 (.own [3, 4]) .never)), .step, .move (.call .block), .step, .step, .step, .step,
    .move (.call (.get 0 (.own [0, 0]) (.upTo 5))), .step]

theorem inOrder_putThenGet :
    stored (c := (Showcase.full .strict).scenario.config) ⟨0, by decide⟩ putThenGet = [[1, 2], [3, 4]] ∧
      delivered (c := (Showcase.full .strict).scenario.config) ⟨0, by decide⟩ putThenGet = [[1, 2]] ∧
      (play (Showcase.full .strict).scenario.config putThenGet).kernel.contents ⟨0, by decide⟩ = [[3, 4]] ∧
      (play (Showcase.full .strict).scenario.config (putThenGet ++ [.move (.call (.messages 0))])).control =
        .leaving (some (.number 1)) := by
  have puts : stored (c := (Showcase.full .strict).scenario.config) ⟨0, by decide⟩ putThenGet = [[1, 2], [3, 4]] := by
    decide +kernel
  have gets : delivered (c := (Showcase.full .strict).scenario.config) ⟨0, by decide⟩ putThenGet = [[1, 2]] := by
    decide +kernel
  have here : (play (Showcase.full .strict).scenario.config putThenGet).control =
      .application (some (.message true (.own [1, 2]))) := by decide +kernel
  obtain ⟨_, inOrder⟩ := inOrder_play (Showcase.full .strict).scenario.config putThenGet (by decide) ⟨0, by decide⟩
  have inOrder := inOrder fun ending he => by cases here.symm.trans he
  rw [puts, gets] at inOrder
  refine ⟨puts, gets, List.append_cancel_left inOrder.order, ?_⟩
  rw [play_concat]
  exact inOrder.told _ ⟨2, by decide⟩ here (by decide +kernel)

end Machine

end Rtos
