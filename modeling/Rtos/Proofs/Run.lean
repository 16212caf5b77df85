import Rtos.Simulation

/-!
# Runs

A run is a sequence of steps of the kernel and moves of the application, in any order: programs may do anything when it
is their turn, and interrupt handlers may begin at any time the application could be interrupted.

* `Machine.play`: the machine after a run from the start of the configuration.
* `Since`: something was so at a point of a run, and nothing has put an end to it since.
* `Simulation.exists_play`: whatever scripts the tasks follow, the machine of a simulation is that of a run.
-/

namespace Rtos
set_option autoImplicit false

variable {c : Config}

namespace Machine

/-- The machine after a run. -/
def play (c : Config) (acts : List Act) : Machine c := acts.foldl act (boot c)

theorem play_append (acts acts' : List Act) :
    play c (acts ++ acts') = acts'.foldl act (play c acts) := List.foldl_append

theorem play_concat (acts : List Act) (a : Act) : play c (acts ++ [a]) = (play c acts).act a := by
  rw [play, List.foldl_append]
  rfl

/-- What holds at the start and is kept by every act holds after every run. -/
theorem play_induction {P : List Act → Machine c → Prop} (boot : P [] (boot c))
    (act : ∀ acts a, P acts (play c acts) → P (acts ++ [a]) ((play c acts).act a)) (acts : List Act) :
    P acts (play c acts) := by
  -- A run grows at its end, so the induction is on the reversed list.
  generalize hr : acts.reverse = rev
  induction rev generalizing acts with
  | nil =>
    rw [List.reverse_eq_nil_iff.mp hr]
    exact boot
  | cons a rev ih =>
    have ha : acts = rev.reverse ++ [a] := by
      rw [← List.reverse_cons, ← hr, List.reverse_reverse]
    rw [ha, play_concat]
    exact act _ a (ih rev.reverse (List.reverse_reverse rev))

end Machine

/-! ## What is so since a point of a run -/

/-- At some point of the run it became so, and no act since has put an end to it. -/
def Since (starts : List Act → Prop) (stops : List Act → Act → Prop) (acts : List Act) : Prop :=
  ∃ before after, acts = before ++ after ∧ starts before ∧ ∀ part a, part ++ [a] <+: after → ¬ stops (before ++ part) a

theorem since_self {starts : List Act → Prop} {stops : List Act → Act → Prop} {acts : List Act} (h : starts acts) :
    Since starts stops acts := by
  refine ⟨acts, [], (List.append_nil acts).symm, h, fun part a hp => ?_⟩
  exact absurd (List.prefix_nil.mp hp) (List.append_ne_nil_of_right_ne_nil part (List.cons_ne_nil a []))

theorem since_nil_iff {starts : List Act → Prop} {stops : List Act → Act → Prop} :
    Since starts stops [] ↔ starts [] := by
  refine ⟨fun ⟨before, after, he, start, _⟩ => ?_, since_self⟩
  rwa [(List.append_eq_nil_iff.mp he.symm).1] at start

theorem since_concat_iff {starts : List Act → Prop} {stops : List Act → Act → Prop} {acts : List Act} {a : Act} :
    Since starts stops (acts ++ [a]) ↔ (Since starts stops acts ∧ ¬ stops acts a) ∨ starts (acts ++ [a]) := by
  constructor
  · rintro ⟨before, after, he, start, kept⟩
    rcases List.eq_nil_or_concat after with rfl | ⟨after, last, rfl⟩
    · rw [List.append_nil] at he
      exact .inr (he ▸ start)
    · rw [List.concat_eq_append] at he kept
      rw [← List.append_assoc] at he
      obtain ⟨rfl, same⟩ := List.append_inj' he rfl
      obtain rfl := List.singleton_inj.mp same
      refine .inl ⟨⟨before, after, rfl, start, fun part b hp => kept part b (hp.trans (List.prefix_append ..))⟩, ?_⟩
      exact kept after a (List.prefix_refl _)
  · rintro (⟨⟨before, after, rfl, start, kept⟩, last⟩ | start)
    · refine ⟨before, after ++ [a], List.append_assoc .., start, fun part b hp => ?_⟩
      rcases List.prefix_concat_iff.mp hp with he | hp
      · obtain ⟨rfl, same⟩ := List.append_inj' he rfl
        obtain rfl := List.singleton_inj.mp same
        exact last
      · exact kept part b hp
    · exact since_self start

/-! ## Simulations -/

namespace Simulation

/-- From one simulation to another, the machine makes a part of a run. -/
def Plays (s s' : Simulation c) : Prop := ∃ acts : List Act, s'.machine = acts.foldl Machine.act s.machine

theorem Plays.refl {s s' : Simulation c} (h : s'.machine = s.machine) : Plays s s' := ⟨[], h⟩

theorem Plays.move (s : Simulation c) (move : Move) : Plays s (s.move move) := ⟨[.move move], rfl⟩

theorem Plays.trans {s s' s'' : Simulation c} (h : Plays s s') (h' : Plays s' s'') : Plays s s'' := by
  obtain ⟨acts, ha⟩ := h
  obtain ⟨acts', ha'⟩ := h'
  exact ⟨acts ++ acts', by rw [ha', ha, List.foldl_append]⟩

theorem plays_performOp (s : Simulation c) (task : c.TaskId) (op : Op) : Plays s (s.performOp task op) := by
  cases op with
  | call call => exact Plays.move s _
  | tick => exact ((Plays.move s _).trans (Plays.move _ _)).trans (Plays.move _ _)
  | interrupt body => exact Plays.trans (Plays.refl rfl) (Plays.move _ _)
  | loop count body => exact Plays.refl rfl
  | halt => exact Plays.move s _
  | abort error => exact Plays.move s _
  | panic message => exact Plays.move s _

theorem plays_performHandled (s : Simulation c) (op : Op) : Plays s (s.performHandled op) := by
  cases op with
  | call call => exact Plays.move s _
  | tick => exact Plays.move s _
  | interrupt body => exact Plays.move s _
  | loop count body => exact Plays.refl rfl
  | halt => exact Plays.move s _
  | abort error => exact Plays.move s _
  | panic message => exact Plays.move s _

theorem plays_beginOp (s : Simulation c) (task : c.TaskId) (op : Op) (rest : List Op) :
    Plays s (s.beginOp task op rest) := by
  unfold beginOp
  dsimp only
  split
  · exact Plays.trans (Plays.refl rfl) (Plays.move _ _)
  · exact Plays.trans (Plays.refl rfl) (plays_performOp _ task op)

theorem plays_beginHandled (s : Simulation c) (task : c.TaskId) (op : Op) (rest : List Op) :
    Plays s (s.beginHandled task op rest) := by
  have recorded : ∀ (s' : Simulation c) ordinal, Plays s' (s'.recordHandled task ordinal op) := by
    intro s' ordinal
    refine Plays.refl ?_
    unfold recordHandled
    split <;> rfl
  unfold beginHandled
  dsimp only
  split
  · exact Plays.trans (Plays.refl rfl) (Plays.move _ _)
  · refine Plays.trans ?_ ((plays_performHandled _ op).trans (recorded _ _))
    exact Plays.refl rfl

theorem plays_step (s : Simulation c) : Plays s s.step := by
  unfold step
  split
  · next reply task _ _ =>
    unfold advance
    dsimp only
    split
    · exact Plays.refl rfl
    · split
      · exact Plays.refl rfl
      · split
        · exact Plays.move s _
        · exact plays_beginOp s task _ _
  · next task _ _ =>
    unfold advanceHandler
    dsimp only
    split
    · exact Plays.refl rfl
    · split
      · exact Plays.move s _
      · exact plays_beginHandled s task _ _
  · exact ⟨[.step], rfl⟩

theorem plays_runFor (steps : Nat) (s : Simulation c) : Plays s (runFor steps s) := by
  induction steps generalizing s with
  | zero => exact Plays.refl rfl
  | succ steps ih =>
    unfold runFor
    split
    · exact Plays.refl rfl
    · exact (plays_step s).trans (ih s.step)

/-- Whatever scripts the tasks follow and however long they do, the machine is that of a run. -/
theorem exists_play (scripts : Table (List Op) c.tasks.size) (watched : Bool) (steps : Nat) :
    ∃ acts, (runFor steps (boot c scripts watched)).machine = Machine.play c acts :=
  plays_runFor steps (boot c scripts watched)

end Simulation

end Rtos
