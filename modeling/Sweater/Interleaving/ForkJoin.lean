import Sweater.Interleaving.Reachability
import Mathlib.Logic.Function.Basic

namespace Sweater
namespace Interleaving

/-!
# Fork and join

What a pool of threads is for, with the threads left out.  A call announces
tasks, each of them is executed once or refused, and the call returns when none
of its tasks is left.  Tasks that belong to no call are executed whenever
somebody gets to them.

The rules do not say who executes a task, in which order, or when.
-/

/-- What has become of a task. -/
inductive TaskStage
  | unknown
  | waiting
  | running
  | done
  | refused
  deriving DecidableEq

/-- What has become of a call. -/
inductive CallStage
  | unbegun
  | live
  | returned
  deriving DecidableEq

/-- Still to be executed, or being executed. -/
def TaskStage.Unfinished (stage : TaskStage) : Prop :=
  stage = waiting ∨ stage = running

/-- The tasks and the calls of a pool. -/
@[ext]
structure ForkJoin (Task Call : Type) where
  stage : Task -> TaskStage
  calls : Call -> CallStage

variable {Task Call : Type} [DecidableEq Task] [DecidableEq Call]

namespace ForkJoin

/-- The tasks come to a stage. -/
def assign (pool : ForkJoin Task Call) (tasks : List Task) (stage : TaskStage) : ForkJoin Task Call :=
  { pool with stage := fun task => if task ∈ tasks then stage else pool.stage task }

def setCall (pool : ForkJoin Task Call) (call : Call) (stage : CallStage) : ForkJoin Task Call :=
  { pool with calls := Function.update pool.calls call stage }

omit [DecidableEq Task] in
theorem calls_setCall (pool : ForkJoin Task Call) (call : Call) (stage : CallStage) :
    (pool.setCall call stage).calls call = stage :=
  Function.update_self _ _ _

omit [DecidableEq Call] in
theorem stage_assign_of_notMem (pool : ForkJoin Task Call) {tasks : List Task} {task : Task} (outside : task ∉ tasks)
    (stage : TaskStage) : (pool.assign tasks stage).stage task = pool.stage task :=
  if_neg outside

omit [DecidableEq Call] in
theorem stage_assign_of_mem (pool : ForkJoin Task Call) {tasks : List Task} {task : Task} (member : task ∈ tasks)
    (stage : TaskStage) : (pool.assign tasks stage).stage task = stage :=
  if_pos member

/-- The moves of a pool, where each task belongs to at most one call. -/
inductive Step (owner : Task -> Option Call) (before : ForkJoin Task Call) : ForkJoin Task Call -> Prop
  | begin (call : Call) : before.calls call = .unbegun -> Step owner before (before.setCall call .live)
  | announce (tasks : List Task) : (forall task, task ∈ tasks -> before.stage task = .unknown ∧
      forall call, owner task = some call -> before.calls call = .live) -> Step owner before (before.assign tasks .waiting)
  | start (task : Task) : before.stage task = .waiting -> Step owner before (before.assign [task] .running)
  | complete (task : Task) : before.stage task = .running -> Step owner before (before.assign [task] .done)
  | refuse (tasks : List Task) : (forall task, task ∈ tasks -> before.stage task = .waiting) ->
      Step owner before (before.assign tasks .refused)
  | join (call : Call) : before.calls call = .live ->
      (forall task, owner task = some call -> ¬ (before.stage task).Unfinished) ->
      Step owner before (before.setCall call .returned)
  | pause : Step owner before before

end ForkJoin

/-- A pool of which nothing has been asked yet. -/
def forkJoin (owner : Task -> Option Call) : System (ForkJoin Task Call) where
  initial := fun pool => pool = ⟨fun _ => .unknown, fun _ => .unbegun⟩
  step := ForkJoin.Step owner

variable {owner : Task -> Option Call} {pool before after : ForkJoin Task Call}

theorem ForkJoin.Step.unfinished (move : ForkJoin.Step owner before after) {task : Task}
    (unfinished : (after.stage task).Unfinished) : (before.stage task).Unfinished ∨
      (before.stage task = .unknown ∧ forall call, owner task = some call -> before.calls call = .live) := by
  cases move with
  | begin | join | pause => exact Or.inl unfinished
  | announce tasks fresh =>
      by_cases member : task ∈ tasks
      · exact Or.inr (fresh task member)
      · rw [stage_assign_of_notMem before member] at unfinished
        exact Or.inl unfinished
  | start other waits =>
      by_cases member : task ∈ [other]
      · rw [List.mem_singleton.mp member]
        exact Or.inl (Or.inl waits)
      · rw [stage_assign_of_notMem before member] at unfinished
        exact Or.inl unfinished
  | complete other runs =>
      by_cases member : task ∈ [other]
      · rw [stage_assign_of_mem before member] at unfinished
        rcases unfinished with never | never <;> cases never
      · rw [stage_assign_of_notMem before member] at unfinished
        exact Or.inl unfinished
  | refuse tasks waits =>
      by_cases member : task ∈ tasks
      · rw [stage_assign_of_mem before member] at unfinished
        rcases unfinished with never | never <;> cases never
      · rw [stage_assign_of_notMem before member] at unfinished
        exact Or.inl unfinished

/-- What has returned stays so. -/
theorem ForkJoin.Step.returned (move : ForkJoin.Step owner before after) {call : Call}
    (returned : before.calls call = .returned) : after.calls call = .returned := by
  cases move with
  | announce | start | complete | refuse | pause => exact returned
  | begin other unbegun =>
      have different : call ≠ other := by
        rintro rfl
        cases unbegun.symm.trans returned
      exact (Function.update_of_ne different _ _).trans returned
  | join other =>
      change Function.update before.calls other .returned call = _
      rw [Function.update_apply]
      split
      · rfl
      · exact returned

theorem ForkJoin.run_returned (run : Relation.ReflTransGen (ForkJoin.Step owner) before after) {call : Call}
    (returned : before.calls call = .returned) : after.calls call = .returned := by
  induction run with
  | refl => exact returned
  | tail _ move inductionHypothesis => exact move.returned inductionHypothesis

/-- A task that is not finished belongs to a call that has not returned. -/
theorem forkJoin_live (reachable : (forkJoin owner).Reachable pool) (task : Task) (call : Call)
    (unfinished : (pool.stage task).Unfinished) (owned : owner task = some call) : pool.calls call = .live := by
  revert task call
  apply reachable.invariant
  · rintro _ rfl task call (never | never) _ <;> cases never
  · intro before after _ live move task call unfinished owned
    have earlier : before.calls call = .live := by
      rcases move.unfinished unfinished with still | ⟨_, announced⟩
      · exact live task call still owned
      · exact announced call owned
    cases move with
    | announce | start | complete | refuse | pause => exact earlier
    | begin other unbegun =>
        have different : call ≠ other := by
          rintro rfl
          cases unbegun.symm.trans earlier
        exact (Function.update_of_ne different _ _).trans earlier
    | join other _ settled =>
        have different : call ≠ other := by
          rintro rfl
          exact settled task owned unfinished
        exact (Function.update_of_ne different _ _).trans earlier

/-! ## Calls side by side -/

section SideBySide

variable {Part : Type} [DecidableEq Part]

/-- A call that has not been made yet. -/
def ForkJoin.unbegun : ForkJoin Part Unit := ⟨fun _ => .unknown, fun _ => .unbegun⟩

/-- A call whose parts all wait. -/
def ForkJoin.announced (parts : List Part) : ForkJoin Part Unit :=
  ⟨fun part => if part ∈ parts then .waiting else .unknown, fun _ => .live⟩

/-- A call begins, and announces its parts. -/
theorem ForkJoin.run_announced (parts : List Part) :
    Relation.ReflTransGen (ForkJoin.Step fun _ => some ()) unbegun (announced parts) := by
  have begun : (unbegun.setCall () .live : ForkJoin Part Unit).calls = fun _ => .live :=
    funext fun call => calls_setCall unbegun call .live
  have same : (unbegun.setCall () .live).assign parts .waiting = announced parts := ForkJoin.ext rfl begun
  rw [← same]
  apply Relation.ReflTransGen.tail (Relation.ReflTransGen.single (.begin () rfl))
  apply Step.announce
  intro part _
  exact ⟨rfl, fun call _ => congrFun begun call⟩

variable (parts : Call -> ForkJoin Part Unit) (call : Call)

/-- Calls that have their own tasks, in one pool. -/
def ForkJoin.sideBySide (parts : Call -> ForkJoin Part Unit) : ForkJoin (Call × Part) Call :=
  ⟨fun task => (parts task.1).stage task.2, fun call => (parts call).calls ()⟩

theorem ForkJoin.sideBySide_assign (tasks : List Part) (stage : TaskStage) :
    sideBySide (Function.update parts call ((parts call).assign tasks stage)) =
      (sideBySide parts).assign (tasks.map (Prod.mk call)) stage := by
  apply ForkJoin.ext
  · funext ⟨other, part⟩
    by_cases same : other = call
    · subst same
      have member : (other, part) ∈ tasks.map (Prod.mk other) ↔ part ∈ tasks := by
        simp only [List.mem_map, Prod.mk.injEq, true_and, exists_eq_right]
      simp only [sideBySide, assign, Function.update_self, member]
    · have outside : (other, part) ∉ tasks.map (Prod.mk call) := by
        simp only [List.mem_map, Prod.mk.injEq, not_exists, not_and]
        exact fun _ _ equal => absurd equal.symm same
      rw [stage_assign_of_notMem _ outside]
      simp only [sideBySide, Function.update_of_ne same]
  · funext other
    by_cases same : other = call
    · subst same
      simp only [sideBySide, assign, Function.update_self]
    · simp only [sideBySide, assign, Function.update_of_ne same]

omit [DecidableEq Part] in
theorem ForkJoin.sideBySide_setCall (stage : CallStage) :
    sideBySide (Function.update parts call ((parts call).setCall () stage)) = (sideBySide parts).setCall call stage := by
  apply ForkJoin.ext
  · funext ⟨other, part⟩
    by_cases same : other = call
    · subst same
      simp only [sideBySide, setCall, Function.update_self]
    · simp only [sideBySide, setCall, Function.update_of_ne same]
  · funext other
    by_cases same : other = call
    · subst same
      simp only [sideBySide, setCall, Function.update_self]
    · simp only [sideBySide, setCall, Function.update_of_ne same]

/-- A move of one of them is a move of the pool. -/
theorem ForkJoin.Step.sideBySide {part : ForkJoin Part Unit} (move : ForkJoin.Step (fun _ => some ()) (parts call) part) :
    ForkJoin.Step (fun task => some task.1) (.sideBySide parts) (.sideBySide (Function.update parts call part)) := by
  cases move with
  | begin _ unbegun =>
      rw [sideBySide_setCall]
      exact .begin call unbegun
  | announce tasks fresh =>
      rw [sideBySide_assign]
      apply Step.announce
      intro task member
      rcases List.mem_map.mp member with ⟨part, inside, rfl⟩
      refine ⟨(fresh part inside).1, ?_⟩
      rintro _ ⟨⟩
      exact (fresh part inside).2 () rfl
  | start task waits =>
      rw [sideBySide_assign]
      exact .start (call, task) waits
  | complete task runs =>
      rw [sideBySide_assign]
      exact .complete (call, task) runs
  | refuse tasks waits =>
      rw [sideBySide_assign]
      apply Step.refuse
      intro task member
      rcases List.mem_map.mp member with ⟨part, inside, rfl⟩
      exact waits part inside
  | join _ live settled =>
      rw [sideBySide_setCall]
      apply Step.join call live
      rintro ⟨_, part⟩ ⟨⟩
      exact settled part rfl
  | pause =>
      rw [Function.update_eq_self]
      exact .pause

theorem ForkJoin.run_sideBySide {part : ForkJoin Part Unit}
    (run : Relation.ReflTransGen (ForkJoin.Step (fun _ => some ())) (parts call) part) :
    Relation.ReflTransGen (ForkJoin.Step (fun task => some task.1)) (.sideBySide parts)
      (.sideBySide (Function.update parts call part)) := by
  induction run with
  | refl =>
      rw [Function.update_eq_self]
  | @tail middle next _ move inductionHypothesis =>
      have same : Function.update parts call middle call = middle := Function.update_self _ _ _
      rw [← same] at move
      have step := move.sideBySide (Function.update parts call middle) call
      rw [Function.update_idem] at step
      exact inductionHypothesis.tail step

end SideBySide

end Interleaving
end Sweater
