import Mathlib.Data.List.Induction

/-!
# Labelled transition systems with computed steps

A step is a partial function of the state and a label, so one schedule is a
list of labels and can be evaluated. Reachability is relative to an admission
condition on the state before a step and its label: a result about every run
whose steps all meet a condition is a result about `Reachable admits`.
-/

namespace Ill.Base

universe u v

/-- A labelled transition system. A label that is not enabled has no successor. -/
structure TransitionSystem (State : Type u) (Label : Type v) where
  initial : State → Prop
  step : State → Label → Option State

namespace TransitionSystem

variable {State : Type u} {Label : Type v} (system : TransitionSystem State Label)

/-- The states reached by runs whose every step is admitted in the state it is
taken from. -/
inductive Reachable (admits : State → Label → Prop) : State → Prop where
  | initial {state} (valid : system.initial state) : Reachable admits state
  | step {state label next} (prior : Reachable admits state) (admitted : admits state label)
      (transition : system.step state label = some next) : Reachable admits next

/-- The states reached by any run. -/
abbrev Reaches : State → Prop :=
  system.Reachable fun _ _ => True

/-- Take the labels in order, if every one is enabled when its turn comes. -/
def run (state : State) : List Label → Option State
  | [] => some state
  | label :: rest =>
    match system.step state label with
    | some next => run next rest
    | none => none

variable {system}

/-- A property of the initial states that every admitted step from a reachable
state preserves holds of every reachable state. -/
theorem Reachable.invariant {admits : State → Label → Prop} {property : State → Prop}
    (start : ∀ state, system.initial state → property state)
    (preserved : ∀ state label next, system.Reachable admits state → property state →
      admits state label → system.step state label = some next → property next)
    {state : State} (reached : system.Reachable admits state) : property state := by
  induction reached with
  | initial valid => exact start _ valid
  | step prior admitted transition ih => exact preserved _ _ _ prior ih admitted transition

/-- A schedule that runs from an initial state ends in a reachable state. -/
theorem reaches_of_run {labels : List Label} {state final : State}
    (reached : system.Reaches state) (ran : system.run state labels = some final) :
    system.Reaches final := by
  induction labels generalizing state with
  | nil =>
    simp only [run, Option.some.injEq] at ran
    exact ran ▸ reached
  | cons label rest ih =>
    simp only [run] at ran
    split at ran
    · next next transition => exact ih (.step reached trivial transition) ran
    · simp at ran

theorem run_concat (state : State) (labels : List Label) (label : Label) :
    system.run state (labels ++ [label]) =
      (system.run state labels).bind fun reached => system.step reached label := by
  induction labels generalizing state with
  | nil =>
    simp only [List.nil_append, run, Option.bind_some]
    cases system.step state label <;> rfl
  | cons first rest ih =>
    simp only [List.cons_append, run]
    cases system.step state first with
    | none => rfl
    | some next => exact ih next

/-- A property of the labels taken and the state reached, kept by every step, holds
at the end of a schedule. -/
theorem run_history {start : State} (property : List Label → State → Prop) (begins : property [] start)
    (preserved : ∀ labels state label next, system.run start labels = some state →
      property labels state → system.step state label = some next →
      property (labels ++ [label]) next)
    {labels : List Label} {final : State} (ran : system.run start labels = some final) :
    property labels final := by
  induction labels using List.reverseRecOn generalizing final with
  | nil =>
    obtain rfl : start = final := Option.some.inj ran
    exact begins
  | append_singleton labels label ih =>
    rw [run_concat] at ran
    obtain ⟨state, earlier, stepped⟩ := Option.bind_eq_some_iff.mp ran
    exact preserved labels state label final earlier (ih earlier) stepped

/-- Take the labels in order, if every one is enabled and allowed when its turn comes. -/
def runWhere (system : TransitionSystem State Label) (allowed : State → Label → Bool)
    (state : State) : List Label → Option State
  | [] => some state
  | label :: rest =>
    if allowed state label then
      match system.step state label with
      | some next => system.runWhere allowed next rest
      | none => none
    else none

/-- A schedule that runs with every step allowed ends in a state reachable by such steps. -/
theorem reachable_of_runWhere {allowed : State → Label → Bool} {labels : List Label}
    {state final : State} (reached : system.Reachable (fun s label => allowed s label) state)
    (ran : system.runWhere allowed state labels = some final) :
    system.Reachable (fun s label => allowed s label) final := by
  induction labels generalizing state with
  | nil =>
    simp only [runWhere, Option.some.injEq] at ran
    exact ran ▸ reached
  | cons label rest ih =>
    simp only [runWhere] at ran
    split at ran
    · next permitted =>
      split at ran
      · next next transition => exact ih (.step reached permitted transition) ran
      · simp at ran
    · simp at ran

/-- A view under which every step is a step of another system takes reachable
states to reachable states. -/
theorem Reachable.project {Seen : Type u} {Name : Type v} {other : TransitionSystem Seen Name}
    {admits : State → Label → Prop} (view : State → Seen)
    (start : ∀ state, system.initial state → other.initial (view state))
    (simulates : ∀ state label next, system.step state label = some next →
      ∃ name, other.step (view state) name = some (view next))
    {state : State} (reached : system.Reachable admits state) : other.Reaches (view state) := by
  induction reached with
  | initial valid => exact .initial (start _ valid)
  | step _ _ transition ih =>
    obtain ⟨name, seen⟩ := simulates _ _ _ transition
    exact .step ih trivial seen

end TransitionSystem

end Ill.Base
