import Mathlib.Logic.Relation

namespace Sweater
namespace Interleaving

universe u v

/-!
# Reachable states of an interleaved program

A concurrent component is presented by its possible initial states and by one
relation holding between the states before and after a single atomic step of
some thread.  Nothing here fixes a scheduler: every enabled step of every
thread may come next, and a thread may be delayed for ever.

Assumptions on a run ("no counter reaches the range of its type") are imposed
state by state through `System.within`.  They therefore restrict the runs that
are considered and never the transitions of the component itself.
-/

/-- A transition system without labels. -/
structure System (State : Type u) where
  initial : State -> Prop
  step : State -> State -> Prop

namespace System

variable {State : Type u} {system : System State}

/-- States of finite runs, each run extended at its end by one step. -/
inductive Reachable (system : System State) : State -> Prop
  | initial {state : State} : system.initial state -> Reachable system state
  | step {before after : State} :
      Reachable system before -> system.step before after -> Reachable system after

/-- The runs whose states all satisfy `inside`. -/
def within (system : System State) (inside : State -> Prop) : System State where
  initial := fun state => system.initial state ∧ inside state
  step := fun before after => system.step before after ∧ inside after

/-- The runs whose steps all satisfy `admitted`. -/
def stepsWhere (system : System State) (admitted : State -> State -> Prop) : System State where
  initial := system.initial
  step := fun before after => system.step before after ∧ admitted before after

/-- The runs of the system, with an observer who starts from a blank note and
brings it up to date after every step. -/
def recording {Note : Type v} (system : System State) (update : State -> State -> Note -> Note)
    (blank : Note) : System (State × Note) where
  initial := fun watched => system.initial watched.1 ∧ watched.2 = blank
  step := fun before after =>
    system.step before.1 after.1 ∧ after.2 = update before.1 after.1 before.2

/-- A later state of the same run. -/
def Continues (system : System State) : State -> State -> Prop :=
  Relation.ReflTransGen system.step

/-- The invariant rule.  The induction hypothesis may use reachability of the
earlier state, so that invariants can be established one after another. -/
theorem Reachable.invariant {holds : State -> Prop}
    (start : forall state, system.initial state -> holds state)
    (preserved : forall before after, system.Reachable before -> holds before ->
      system.step before after -> holds after)
    {state : State} (reachable : system.Reachable state) : holds state := by
  induction reachable with
  | initial first => exact start _ first
  | step earlier move inductionHypothesis =>
      exact preserved _ _ earlier inductionHypothesis move

theorem Reachable.inside {inside : State -> Prop} {state : State}
    (reachable : (system.within inside).Reachable state) : inside state := by
  cases reachable with
  | initial first => exact first.2
  | step _ move => exact move.2

/-- Leaving states out of consideration does not create new ones. -/
theorem Reachable.of_within {inside : State -> Prop} {state : State}
    (reachable : (system.within inside).Reachable state) : system.Reachable state := by
  induction reachable with
  | initial first => exact .initial first.1
  | step _ move inductionHypothesis => exact .step inductionHypothesis move.1

theorem Reachable.of_stepsWhere {admitted : State -> State -> Prop} {state : State}
    (reachable : (system.stepsWhere admitted).Reachable state) : system.Reachable state := by
  induction reachable with
  | initial first => exact .initial first
  | step _ move inductionHypothesis => exact .step inductionHypothesis move.1

/-- The observer does not interfere. -/
theorem Reachable.of_recording {Note : Type v} {update : State -> State -> Note -> Note} {blank : Note}
    {watched : State × Note} (reachable : (system.recording update blank).Reachable watched) :
    system.Reachable watched.1 := by
  induction reachable with
  | initial first => exact .initial first.1
  | step _ move inductionHypothesis => exact .step inductionHypothesis move.1

/-- The observer follows every step. -/
theorem Reachable.observed {Note : Type v} {update : State -> State -> Note -> Note} {blank : Note}
    {watched : State × Note} {after : State}
    (reachable : (system.recording update blank).Reachable watched)
    (move : system.step watched.1 after) :
    (system.recording update blank).Reachable (after, update watched.1 after watched.2) :=
  .step reachable ⟨move, rfl⟩

/-- The simulation rule.  A view under which every step of a run is a step of
another system carries runs to runs. -/
theorem Reachable.simulates {Abstract : Type v} {abstract : System Abstract}
    (view : State -> Abstract)
    (start : forall state, system.initial state -> abstract.initial (view state))
    (matched : forall before after, system.Reachable before -> system.step before after ->
      abstract.step (view before) (view after))
    {state : State} (reachable : system.Reachable state) : abstract.Reachable (view state) := by
  induction reachable with
  | initial first => exact .initial (start _ first)
  | step earlier move inductionHypothesis =>
      exact .step inductionHypothesis (matched _ _ earlier move)

/-- The simulation rule when a step stands for any number of abstract ones. -/
theorem Reachable.simulates_by_runs {Abstract : Type v} {abstract : System Abstract}
    (view : State -> Abstract)
    (start : forall state, system.initial state -> abstract.initial (view state))
    (matched : forall before after, system.Reachable before -> system.step before after ->
      Relation.ReflTransGen abstract.step (view before) (view after))
    {state : State} (reachable : system.Reachable state) : abstract.Reachable (view state) := by
  induction reachable with
  | initial first => exact .initial (start _ first)
  | @step before after earlier move inductionHypothesis =>
      have run := matched before after earlier move
      generalize view after = result at run ⊢
      induction run with
      | refl => exact inductionHypothesis
      | tail _ next reached => exact .step reached next

theorem Reachable.continues {before after : State} (reachable : system.Reachable before)
    (later : system.Continues before after) : system.Reachable after := by
  induction later with
  | refl => exact reachable
  | tail _ move inductionHypothesis => exact .step inductionHypothesis move

/-- The invariant rule for the rest of a run that has already begun. -/
theorem Continues.invariant {holds : State -> Prop} {before after : State}
    (later : system.Continues before after) (reachable : system.Reachable before)
    (start : holds before)
    (preserved : forall middle next, system.Reachable middle -> holds middle ->
      system.step middle next -> holds next) : holds after := by
  induction later with
  | refl => exact start
  | tail earlier move inductionHypothesis =>
      exact preserved _ _ (reachable.continues earlier) inductionHypothesis move

end System

end Interleaving
end Sweater
