import Mathlib.Data.List.Induction
import Mathlib.Data.List.Infix
import Rtos.Proofs.TimedOperation
import Rtos.Proofs.Urgency
import Rtos.Showcase

/-!
# Deadlines

Whatever happens while a task is suspended in a timed operation, the operation keeps its one deadline.

* `deadline_exact`: the arithmetic of deadlines on a counter that wraps around.
* `Machine.Concluded`: how a timed operation was concluded: by one act, before and after which its task did nothing.
* `Machine.Stage`: how far a timed operation has got, which every act keeps.
* `Machine.KeepsDeadline`, `Machine.deadline_kept`: the main result.
-/

namespace Rtos
set_option autoImplicit false

variable {c : Config}

/-! ## The arithmetic of deadlines -/

/-- However the tick counter wraps around between the start of a wait, its deadline and now: until half the range of the
counter after the deadline, what is left of the timeout is told exactly, and the timeout timer keeps its expiry when it
is set anew for the rest. -/
theorem deadline_exact (start timeout : Ticks) (valid : timeout ≤ maxTimeout) (elapsed : Nat)
    (near : elapsed ≤ timeout.toNat + 2 ^ 31) :
    (elapsed < timeout.toNat → remaining? (start + .ofNat elapsed) (start + timeout) =
      some (.ofNat (timeout.toNat - elapsed)) ∧
      ∀ (k : Kernel c) (t : c.TaskId) (timer : c.TimerId), k.now = start + .ofNat elapsed →
        timer.val = c.userTimers + t →
        ∃ l, Kernel.armTimeout t (.ofNat (timeout.toNat - elapsed)) k = .ok () l ∧
          l.timers[timer] = { k.timers[timer] with reload := 0, expiry := start + timeout, enabled := true }) ∧
      (timeout.toNat ≤ elapsed → remaining? (start + .ofNat elapsed) (start + timeout) = none) := by
  -- Without the wrap-around, the wait lasts from `start` to `start + timeout`, and now is `start + elapsed`.
  have now : start + .ofNat elapsed = .ofNat (start.toNat + elapsed) := by rw [UInt32.ofNat_add, UInt32.ofNat_toNat]
  have deadline : start + timeout = .ofNat (start.toNat + timeout.toNat) := by
    rw [← ofNat_add_toNat, UInt32.ofNat_toNat]
  have within := UInt32.le_iff_toNat_le.mp valid
  refine ⟨fun ahead => ?_, fun past => ?_⟩
  · have left : remaining? (start + .ofNat elapsed) (start + timeout) = some (.ofNat (timeout.toNat - elapsed)) := by
      rw [now, deadline, remaining?_of_lt (by omega) (by omega), Nat.add_sub_add_left]
    refine ⟨left, fun k t timer hn own => ⟨_, k.armTimeout_eq own _, ?_⟩⟩
    rw [← add_of_remaining? left, ← hn]
    exact Table.getElem_set_self ..
  · rw [now, deadline]
    exact remaining?_of_le (by omega) (by omega)

/-- The counter wraps around between the start of the longest wait and now, and is about to do so again half its range
after the deadline. -/
theorem deadline_exact_wrapped : remaining? 0x00000013 0x7fffffef = some 0x7fffffdc ∧
    (∃ l, Kernel.armTimeout ⟨0, by decide⟩ 0x7fffffdc
        { Kernel.initial (Showcase.full .strict).scenario.config with now := 0x00000013 } = .ok () l ∧
      l.timers[(⟨2, by decide⟩ : (Showcase.full .strict).scenario.config.TimerId)].expiry = 0x7fffffef) ∧
    remaining? 0xffffffef 0x7fffffef = none := by
  obtain ⟨left, armed⟩ :=
    (deadline_exact (c := (Showcase.full .strict).scenario.config) 0xfffffff0 maxTimeout (by decide) 35
    (by decide)).1 (by decide)
  obtain ⟨l, hl, timer⟩ := armed { Kernel.initial (Showcase.full .strict).scenario.config with now := 0x00000013 }
    ⟨0, by decide⟩ ⟨2, by decide⟩ rfl (by decide)
  have expired :=
    (deadline_exact (c := (Showcase.full .strict).scenario.config) 0xfffffff0 maxTimeout (by decide) 0xffffffff
    (by decide)).2 (by decide)
  exact ⟨left, ⟨l, hl, congrArg TimerState.expiry timer⟩, expired⟩

namespace Machine
open Kernel

variable {m : Machine c} {t : c.TaskId} {a : Act} {deadline : Nat} {wait : Wait c} {before ops : List Act} {call : Call}
  {e : Completion c}

/-! ## How an operation is concluded -/

/-- While the task owns the processor, no operation comes to its end, and the shared objects stay as they are. -/
def Steady (m : Machine c) (t : c.TaskId) : List Act → Prop
  | [] => True
  | a :: acts =>
    (m.kernel.running = some t → m.completion? a = none ∧ (m.act a).kernel.resources = m.kernel.resources) ∧
      (m.act a).Steady t acts

theorem Steady.concat {acts : List Act} (h : m.Steady t acts) (quiet : (acts.foldl act m).kernel.running = some t →
      (acts.foldl act m).completion? a = none ∧
        ((acts.foldl act m).act a).kernel.resources = (acts.foldl act m).kernel.resources) :
    m.Steady t (acts ++ [a]) := by
  induction acts generalizing m with
  | nil => exact ⟨quiet, trivial⟩
  | cons b acts ih => exact ⟨h.1, ih h.2 quiet⟩

/-- The operation was concluded by one act. Before and after it, the task did nothing of note. -/
inductive Concluded (before : List Act) (call : Call) (deadline : Nat) (e : Completion c) : List Act → Prop
  | intro (first : List Act) (a : Act) (rest : List Act)
      (completion : (play c (before ++ first)).completion? a = some e)
    (request : e.operation.request? = (Operation.call (c := c) call).request?)
    (verdict : Verdict (deadline ≤ clock c (before ++ first)) e (play c (before ++ first)).kernel
      ((play c (before ++ first)).act a).kernel)
    (waiting : (play c before).Steady e.task first)
    (returning : ((play c (before ++ first)).act a).Steady e.task rest) :
    Concluded before call deadline e (first ++ a :: rest)

theorem Concluded.concat (h : Concluded before call deadline e ops)
    (quiet : (play c (before ++ ops)).kernel.running = some e.task → (play c (before ++ ops)).completion? a = none ∧
      ((play c (before ++ ops)).act a).kernel.resources = (play c (before ++ ops)).kernel.resources) :
    Concluded before call deadline e (ops ++ [a]) := by
  cases h with
  | intro first b rest completion request verdict waiting returning =>
    have here : rest.foldl act ((play c (before ++ first)).act b) = play c (before ++ (first ++ b :: rest)) := by
      rw [← List.append_assoc, play_append (before ++ first)]
      rfl
    rw [← here] at quiet
    rw [List.append_assoc, List.cons_append]
    exact .intro first b (rest ++ [a]) completion request verdict waiting (returning.concat quiet)

/-! ## How far an operation has got -/

/-- The task whose program makes the next move, if it is the turn of a program. -/
def program? (m : Machine c) : Option c.TaskId :=
  match m.control with
  | .application _ => m.kernel.running
  | _ => none

theorem program?_eq_some :
    m.program? = some t ↔ ∃ reply, m.control = .application reply ∧ m.kernel.running = some t := by
  unfold program?
  split
  · next reply hc => exact ⟨fun hr => ⟨reply, hc, hr⟩, fun ⟨_, _, hr⟩ => hr⟩
  · next hn => exact ⟨nofun, fun ⟨reply, hc, _⟩ => absurd hc (hn reply)⟩

theorem absent_of_inactive (inactive : m.active ≠ some t) : m.program? ≠ some t := by
  intro here
  obtain ⟨reply, hc, running⟩ := program?_eq_some.mp here
  exact inactive (by simp only [active, hc, running])

theorem Answered.absent {value : Value} (h : m.Answered t value) : m.program? ≠ some t := by
  rcases h.place with ⟨hc, _⟩ | ⟨inactive, _⟩
  · unfold program?
    rw [hc]
    exact nofun
  · exact absent_of_inactive inactive

/-- No task is more urgent, whoever holds what. -/
def MostUrgent (t : c.TaskId) : Prop := t.val = 0 ∧ c.policy ≠ .ceiling

theorem Imminent.no_tick (imminent : m.Imminent t) {detour : Prop} (h : m.Orderly detour)
    (ht : c.tasks.size ≤ c.timerCount) (hw : m.kernel.Wired) (hn : ∀ ending, (m.act a).control ≠ .ended ending)
    (ho : ∀ op, m.operation? a ≠ some (t, op)) :
    m.ticks a = 0 := by
  obtain ⟨id, own⟩ := exists_timeoutTimer ht t
  have passed := (h.passed ht hw hn own).2 fun op operation => absurd operation (ho op)
  exact ticks_of_eq (passed.now_of_no_tick imminent.1)

theorem MostUrgent.imminent (first : MostUrgent t) {detour : Prop} (h : m.Orderly detour)
    (ht : c.tasks.size ≤ c.timerCount) (hi : m.kernel.isRunnable t = true → m.Imminent t)
    (hn : ∀ ending, (m.act a).control ≠ .ended ending) (absent : (m.act a).program? ≠ some t)
    (hr : (m.act a).kernel.isRunnable t = true) : (m.act a).Imminent t :=
  ((h.transition (fun _ => ht) a).imminent h first.2 first.1 hi hn hr).resolve_right fun back =>
    absent (program?_eq_some.mpr back)

/-- How far a timed operation has got. If its task is the most urgent one, nothing comes between it and the
processor. -/
inductive Stage (before : List Act) (call : Call) (t : c.TaskId) (wait : Wait c) (deadline : Nat)
    (ops : List Act) : Prop
  | underway (underway : (play c (before ++ ops)).Underway (clock c (before ++ ops)) t wait deadline)
    (steady : (play c before).Steady t ops)
    (prompt : MostUrgent t → clock c (before ++ ops) ≤ deadline ∧
      ((play c (before ++ ops)).kernel.isRunnable t = true → (play c (before ++ ops)).Imminent t))
  | answered (e : Completion c) (task : e.task = t) (answered : (play c (before ++ ops)).Answered t e.value)
    (concluded : Concluded before call deadline e ops)
    (prompt : MostUrgent t → (e.granted? = none → clock c (before ++ ops) = deadline) ∧
      (play c (before ++ ops)).Imminent t)
  | returned (e : Completion c) (task : e.task = t)
      (control : (play c (before ++ ops)).control = .application (some e.value))
    (running : (play c (before ++ ops)).kernel.running = some t) (off : (play c (before ++ ops)).kernel.Off t)
    (concluded : Concluded before call deadline e ops)
    (prompt : MostUrgent t → e.granted? = none → clock c (before ++ ops) = deadline)

theorem play_ops_concat : play c (before ++ (ops ++ [a])) = (play c (before ++ ops)).act a := by
  rw [← List.append_assoc, play_concat]

theorem clock_ops_concat :
    clock c (before ++ (ops ++ [a])) = clock c (before ++ ops) + (play c (before ++ ops)).ticks a := by
  rw [← List.append_assoc, clock_concat]

/-- A step of the operation leads on, or concludes it. -/
theorem stage_of_continues {op : Operation c} (ho : (play c (before ++ ops)).operation? a = some (t, op))
    (request : op.request? = (Operation.call (c := c) call).request?)
    (continues : (play c (before ++ ops)).Continues ((play c (before ++ ops)).act a) (clock c (before ++ ops)) t op
      wait deadline)
    (still : (play c (before ++ ops)).ticks a = 0) (steady : (play c before).Steady t ops)
    (early : MostUrgent t → clock c (before ++ ops) ≤ deadline)
    (imminent : MostUrgent t → ((play c (before ++ ops)).act a).kernel.isRunnable t = true →
      ((play c (before ++ ops)).act a).Imminent t) : Stage before call t wait deadline (ops ++ [a]) := by
  cases continues with
  | waits underway control resources =>
    refine .underway ?_ (steady.concat fun _ => ?_) fun first => ?_
    · rw [clock_ops_concat, play_ops_concat, still]
      exact underway
    · rw [← play_append]
      exact ⟨completion?_eq_none control nofun, resources⟩
    · rw [clock_ops_concat, play_ops_concat, still]
      exact ⟨early first, imminent first⟩
  | ends value control running off verdict =>
    have answered : ((play c (before ++ ops)).act a).Answered t value := ⟨off, .inl ⟨control, running⟩⟩
    refine .answered ⟨t, op, value⟩ rfl ?_ ?_ fun first => ?_
    · rw [play_ops_concat]
      exact answered
    · exact .intro ops a [] (completion?_eq_some.mpr ⟨ho, control⟩) request verdict steady trivial
    · have runnable : ((play c (before ++ ops)).act a).kernel.isRunnable t = true := by
        rw [← play_ops_concat] at control answered ⊢
        exact answered.runnable (orderly_play (c := c) _).1 fun ending he => by cases control.symm.trans he
      rw [clock_ops_concat, play_ops_concat, still]
      exact ⟨fun denied => Nat.le_antisymm (early first) (verdict.denied denied).1, imminent first runnable⟩

section
variable (ht : c.tasks.size ≤ c.timerCount) (timely : (play c (before ++ ops)).Timely (clock c (before ++ ops)) t)
  (hn : ∀ ending, ((play c (before ++ ops)).act a).control ≠ .ended ending)
include ht timely hn

/-- An act that is no operation of the task leaves its operation underway. -/
theorem stage_of_underway (underway : (play c (before ++ ops)).Underway (clock c (before ++ ops)) t wait deadline)
    (steady : (play c before).Steady t ops)
    (prompt : MostUrgent t → clock c (before ++ ops) ≤ deadline ∧
      ((play c (before ++ ops)).kernel.isRunnable t = true → (play c (before ++ ops)).Imminent t))
    (ho : ∀ op, (play c (before ++ ops)).operation? a ≠ some (t, op)) :
    Stage before call t wait deadline (ops ++ [a]) := by
  have orderly := (orderly_play (c := c) (before ++ ops)).1
  have next := underway.act orderly ht timely hn ho
  refine .underway ?_ (steady.concat fun running => ?_) fun first => ?_
  · rw [clock_ops_concat, play_ops_concat]
    exact next
  · rw [← play_append] at running ⊢
    exact quiet_of_no_operation orderly ht hn ho running
  · obtain ⟨early, soon⟩ := prompt first
    rw [clock_ops_concat, play_ops_concat]
    refine ⟨?_, first.imminent orderly ht soon hn (absent_of_inactive next.inactive)⟩
    rcases underway.timer with ⟨_, ahead, _⟩ | ⟨expired, _⟩
    · have := ticks_le_one (m := play c (before ++ ops)) (a := a)
      omega
    · rw [(soon expired.runnable).no_tick orderly ht timely.wired hn ho]
      exact early

theorem stage_of_answered (task : e.task = t) (answered : (play c (before ++ ops)).Answered t e.value)
    (concluded : Concluded before call deadline e ops)
    (prompt : MostUrgent t → (e.granted? = none → clock c (before ++ ops) = deadline) ∧
      (play c (before ++ ops)).Imminent t) :
    Stage before call t wait deadline (ops ++ [a]) := by
  have orderly := (orderly_play (c := c) (before ++ ops)).1
  have ho := answered.no_operation (a := a)
  have grown := concluded.concat (a := a) fun running => quiet_of_no_operation orderly ht hn ho (task ▸ running)
  have late : MostUrgent t → e.granted? = none → clock c (before ++ (ops ++ [a])) = deadline := by
    intro first denied
    obtain ⟨now, imminent⟩ := prompt first
    rw [clock_ops_concat, imminent.no_tick orderly ht timely.wired hn ho]
    exact now denied
  rcases answered.act orderly ht timely.wired hn with arriving | ⟨control, running, off⟩
  · refine .answered e task (play_ops_concat ▸ arriving) grown fun first => ⟨late first, ?_⟩
    have runnable : ((play c (before ++ ops)).act a).kernel.isRunnable t = true := by
      rw [← play_ops_concat] at arriving hn ⊢
      exact arriving.runnable (orderly_play (c := c) _).1 hn
    rw [play_ops_concat]
    exact first.imminent orderly ht (fun _ => (prompt first).2) hn arriving.absent runnable
  · exact .returned e task (play_ops_concat ▸ control) (play_ops_concat ▸ running) (play_ops_concat ▸ off) grown late

end

theorem Stage.act (stage : Stage before call t wait deadline ops) (full : c.timers.size + c.tasks.size ≤ c.timerEntries)
    (ends : wait.EndsAt (.ofNat deadline))
    (request : (Operation.wait wait).request? = (Operation.call (c := c) call).request?)
    (working : (play c (before ++ ops)).program? ≠ some t)
    (punctual : (play c (before ++ ops)).operation? .step = some (t, .wait wait) →
      clock c (before ++ ops) < deadline + 2 ^ 31)
    (hn : ∀ ending, ((play c (before ++ ops)).act a).control ≠ .ended ending) :
    Stage before call t wait deadline (ops ++ [a]) := by
  obtain ⟨orderly, timers⟩ := orderly_play (c := c) (before ++ ops)
  have alive := not_ended_of_act hn
  have timers := timers alive
  have timely := timely_play full (before ++ ops) t alive
  cases stage with
  | returned e task control running => exact absurd (program?_eq_some.mpr ⟨_, control, running⟩) working
  | answered e task answered concluded prompt => exact stage_of_answered timers timely hn task answered concluded prompt
  | underway underway steady prompt =>
    by_cases ho : ∃ op, (play c (before ++ ops)).operation? a = some (t, op)
    · obtain ⟨op, operation⟩ := ho
      obtain ⟨running, ⟨_, _, _, _, hc⟩ | ⟨wait', rfl, rfl, hc, hs⟩⟩ := operation?_cases operation
      · exact absurd (by simp only [active, hc, running]) underway.inactive
      -- The suspended task got the processor: it makes the next round of its wait, or ends it.
      obtain rfl : wait = wait' := Suspension.waiting.inj (underway.suspended.symm.trans hs)
      have continues := continues_wait orderly timers timely.now underway ends operation (punctual operation) hn
      have now := orderly.now_of_operation timers operation hn
      refine stage_of_continues operation request continues (ticks_of_eq now) steady (fun first => (prompt first).1)
        fun first => first.imminent orderly timers (prompt first).2 hn ?_
      cases continues with
      | waits underway => exact absent_of_inactive underway.inactive
      | ends value control running off => exact Answered.absent ⟨off, .inl ⟨control, running⟩⟩
    · exact stage_of_underway timers timely hn underway steady prompt fun op operation => ho ⟨op, operation⟩

/-! ## The main result -/

/-- How a timed operation stands that was begun by the first act of `ops`. -/
structure KeepsDeadline (before : List Act) (call : Call) (t : c.TaskId) (deadline : Nat) (ops : List Act) : Prop where
  now : (play c (before ++ ops)).kernel.now = .ofNat (clock c (before ++ ops))
  /-- While the task is suspended and not runnable, its timeout timer is set to fire at the deadline, which lies
  ahead. -/
  waits : (play c (before ++ ops)).kernel.isRunnable t = false → clock c (before ++ ops) < deadline ∧
    (∃ wait : Wait c, (play c (before ++ ops)).suspensions[t] = .waiting wait ∧ wait.EndsAt (.ofNat deadline) ∧
      (Operation.wait wait).request? = (Operation.call (c := c) call).request?) ∧
    ∃ timer : c.TimerId, timer.val = c.userTimers + t ∧ (play c (before ++ ops)).kernel.timers[timer].enabled = true ∧
      (play c (before ++ ops)).kernel.timers[timer].expiry = .ofNat deadline
  /-- When the operation has returned, its timer is off and its wait is off the record. The most urgent task is back at
  the very deadline if it slept or was refused. -/
  returns : (play c (before ++ ops)).program? = some t → (play c (before ++ ops)).kernel.tasks[t].wait = none ∧
    (∃ timer : c.TimerId, timer.val = c.userTimers + t ∧
      (play c (before ++ ops)).kernel.timers[timer].enabled = false) ∧
    ∃ e : Completion c, e.task = t ∧ (play c (before ++ ops)).control = .application (some e.value) ∧
      Concluded before call deadline e ops ∧ (MostUrgent t → e.granted? = none → clock c (before ++ ops) = deadline)

theorem Stage.keeps (stage : Stage before call t wait deadline ops)
    (now : (play c (before ++ ops)).kernel.now = .ofNat (clock c (before ++ ops)))
    (ends : wait.EndsAt (.ofNat deadline))
    (request : (Operation.wait wait).request? = (Operation.call (c := c) call).request?)
    (hn : ∀ ending, (play c (before ++ ops)).control ≠ .ended ending) : KeepsDeadline before call t deadline ops := by
  obtain ⟨orderly, timers⟩ := orderly_play (c := c) (before ++ ops)
  obtain ⟨id, own⟩ := exists_timeoutTimer (timers hn) t
  cases stage with
  | underway underway steady prompt =>
    refine ⟨now, fun blocked => ?_, fun back => ?_⟩
    · rcases underway.timer with ⟨on, ahead, _⟩ | ⟨expired, _⟩
      · exact ⟨ahead, ⟨wait, underway.suspended, ends, request⟩, id, own, on.timer id own⟩
      · cases blocked.symm.trans expired.runnable
    · exact absurd back (absent_of_inactive underway.inactive)
  | answered e task answered concluded prompt =>
    refine ⟨now, fun blocked => ?_, fun back => ?_⟩
    · cases blocked.symm.trans (answered.runnable orderly hn)
    · exact absurd back answered.absent
  | returned e task control running off concluded prompt =>
    have waits := orderly.waits hn
    have active : (play c (before ++ ops)).active = some t := by simp only [active, control, running]
    refine ⟨now, fun blocked => ?_, fun _ => ⟨?_, ⟨id, own, off id own⟩, e, task, control, concluded, prompt⟩⟩
    · cases blocked.symm.trans (waits.active_runnable t active)
    · exact (orderly.program control running).1.idle

/-- A timed operation keeps one deadline, however often its task is woken, outrun by others and suspended again, as long
as the task gets the processor no later than half the range of the tick counter after the deadline. While the task is
suspended and not runnable, its timeout timer is set to fire at the deadline. The operation is concluded by one act: the
request is granted, or the deadline has passed and a request is refused once more. The task changes no shared object
otherwise. In the end the timer is off, and the task is on no record of waits. If no task is more urgent, an operation
that is not granted returns at the very deadline. -/
theorem deadline_kept (c : Config) (full : c.timers.size + c.tasks.size ≤ c.timerEntries) (before during : List Act)
    (t : c.TaskId) (call : Call) (timeout : Ticks) (timed : call.timeout? = some timeout)
    (program : (play c before).program? = some t)
    (working : ∀ part, part <+: during → part ≠ during →
      (play c (before ++ .move (.call call) :: part)).program? ≠ some t)
    (punctual : ∀ part wait, part <+: during → part ≠ during →
      (play c (before ++ .move (.call call) :: part)).operation? .step = some (t, .wait wait) →
        clock c (before ++ .move (.call call) :: part) < clock c before + timeout.toNat + 2 ^ 31)
    (hn : ∀ ending, (play c (before ++ .move (.call call) :: during)).control ≠ .ended ending) :
    KeepsDeadline before call t (clock c before + timeout.toNat) (.move (.call call) :: during) := by
  obtain ⟨reply, control, running⟩ := program?_eq_some.mp program
  have alive : ∀ part, part <+: during → ∀ ending, (play c (before ++ .move (.call call) :: part)).control ≠
      .ended ending := by
    rintro part ⟨rest, rfl⟩
    refine not_ended_of_append rest ?_
    rwa [List.append_assoc, List.cons_append]
  obtain ⟨orderly, timers⟩ := orderly_play (c := c) before
  have started := not_ended_of_append _ hn
  have timers := timers started
  have begun : ∀ ending, ((play c before).act (.move (.call call))).control ≠ .ended ending := by
    rw [← play_concat]
    exact alive [] List.nil_prefix
  have timely := timely_play full before t started
  obtain ⟨wait, ends, request, continues⟩ := continues_call orderly timers timely control running timed begun
  -- The induction is over what has happened since the call: the deadline is fixed by the call, and the stage is kept.
  have stage : ∀ part, part <+: during →
      Stage before call t wait (clock c before + timeout.toNat) (.move (.call call) :: part) := by
    intro part
    induction part using List.reverseRecOn with
    | nil =>
      intro _
      have operation := operation?_call control running call
      have now := orderly.now_of_operation timers operation begun
      rw [← List.nil_append [Act.move (.call call)]]
      refine stage_of_continues ?_ rfl ?_ ?_ trivial ?_ ?_ <;> rw [List.append_nil]
      · exact operation
      · exact continues
      · exact ticks_of_eq now
      · exact fun _ => Nat.le_add_right _ _
      · exact fun _ =>
          orderly.imminent_call timers control running (fun task he => by rw [he] at timed; cases timed) begun
    | append_singleton part a ih =>
      intro longer
      have shorter : part <+: during := (List.prefix_append part [a]).trans longer
      have proper : part ≠ during := by
        rintro rfl
        exact absurd longer.length_le (by simp)
      have next := alive (part ++ [a]) longer
      rw [← List.cons_append, play_ops_concat] at next
      exact (ih shorter).act full ends request (working part shorter proper) (punctual part wait shorter proper) next
  exact (stage during (List.prefix_refl during)).keeps (timely_play full _ t hn).now ends request hn

/-- The least urgent task locks a mutex and unblocks the most urgent one. -/
def lockAndUnblock : List Act :=
  [.step, .step, .step, .step, .move (.call .block), .step, .step, .step, .step, .move (.call (.lock 1 .forever)),
    .step, .move (.call (.unblock 0)), .step, .step, .step, .step, .step]

/-- The most urgent task waits for the mutex, is unblocked once in vain after a tick, and is refused at the next
tick. -/
def tickAndRefuse : List Act :=
  [.step, .step, .step, .step, .move .beginInterrupt, .move .tick, .move .endInterrupt, .step, .step, .step, .step,
    .step, .move (.call (.unblock 0)), .step, .step, .step, .step, .step, .step, .step, .step, .move .beginInterrupt,
    .move .tick, .move .endInterrupt, .step, .step, .step, .step, .step]

theorem deadline_kept_tickAndRefuse :
    (play (Showcase.full .strict).scenario.config (lockAndUnblock ++ .move (.call (.lock 1 (.upTo 2))) ::
      tickAndRefuse)).control =
        .application (some (.bool false)) ∧
      clock (Showcase.full .strict).scenario.config
        (lockAndUnblock ++ .move (.call (.lock 1 (.upTo 2))) :: tickAndRefuse) = 2 ∧
      KeepsDeadline (c := (Showcase.full .strict).scenario.config) lockAndUnblock (.lock 1 (.upTo 2)) ⟨0, by decide⟩ 2
        (.move (.call (.lock 1 (.upTo 2))) :: tickAndRefuse) := by
  have refused : (play (Showcase.full .strict).scenario.config
      (lockAndUnblock ++ .move (.call (.lock 1 (.upTo 2))) :: tickAndRefuse)).control =
        .application (some (.bool false)) := by
    decide +kernel
  have working : ∀ part ∈ tickAndRefuse.inits, part ≠ tickAndRefuse → (play (Showcase.full .strict).scenario.config
      (lockAndUnblock ++ .move (.call (.lock 1 (.upTo 2))) :: part)).program? ≠ some ⟨0, by decide⟩ := by
    decide +kernel
  have punctual : ∀ part ∈ tickAndRefuse.inits, clock (Showcase.full .strict).scenario.config
      (lockAndUnblock ++ .move (.call (.lock 1 (.upTo 2))) :: part) < 2 + 2 ^ 31 := by
    decide +kernel
  have deadline : clock (Showcase.full .strict).scenario.config lockAndUnblock + (2 : Ticks).toNat = 2 := by
    decide +kernel
  have kept := deadline_kept (Showcase.full .strict).scenario.config (by decide) lockAndUnblock tickAndRefuse
    ⟨0, by decide⟩
    (.lock 1 (.upTo 2)) 2 rfl (by decide +kernel) (fun part hp => working part ((List.mem_inits part _).mpr hp))
    (fun part _ hp _ _ => by rw [deadline]; exact punctual part ((List.mem_inits part _).mpr hp))
    fun ending he => by cases refused.symm.trans he
  rw [deadline] at kept
  exact ⟨refused, by decide +kernel, kept⟩

end Machine

end Rtos
