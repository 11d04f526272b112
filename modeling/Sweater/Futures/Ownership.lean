import Sweater.Futures.State

namespace Sweater
namespace Futures

/-!
# Who holds which slot

Promises and futures are owned in the same way.  An object holds at most one
slot, no two objects of a kind hold the same one, and a slot that has not been
released by this kind of owner is held by some object.  While an object lets go
of its slot on behalf of an assignment, it still points to it.
-/

variable {Name : Type}

/-- The objects of one side, the slots that this side has released, and the
slot that the assignment under way lets go of. -/
structure Holding (pointers : Name -> Option Nat) (made : Nat) (released : Nat -> Bool)
    (current : Option (Assignment Name × Nat)) : Prop where
  distinct : forall first second slot,
    pointers first = some slot -> pointers second = some slot -> first = second
  known : forall name slot, pointers name = some slot -> slot < made
  owner : forall assignment slot, current = some (assignment, slot) -> pointers assignment.target = some slot
  dangling : forall name slot, pointers name = some slot -> released slot = true ->
    Exists fun assignment => current = some (assignment, slot)
  covered : forall slot, slot < made -> released slot = false -> Exists fun name => pointers name = some slot

section Steps

variable {pointers : Name -> Option Nat} {made : Nat} {released : Nat -> Bool}
  {current : Option (Assignment Name × Nat)} {assignment : Assignment Name} {slot : Nat}

theorem holding_empty (released : Nat -> Bool) :
    Holding (fun _ : Name => none) 0 released (none : Option (Assignment Name × Nat)) where
  distinct := by
    intro first second slot held
    cases held
  known := by
    intro name slot held
    cases held
  owner := by
    intro assignment slot under
    cases under
  dangling := by
    intro name slot held
    cases held
  covered := fun slot below => absurd below (Nat.not_lt_zero slot)

/-- An assignment begins. -/
theorem Holding.start (holding : Holding pointers made released none)
    (held : pointers assignment.target = some slot) :
    Holding pointers made released (some (assignment, slot)) where
  distinct := holding.distinct
  known := holding.known
  owner := by
    intro other place same
    cases same
    exact held
  dangling := by
    intro name place holds gone
    rcases holding.dangling name place holds gone with ⟨_, under⟩
    cases under
  covered := holding.covered

/-- The slot of the assignment under way is released, and the object still
points to it. -/
theorem Holding.let_go (holding : Holding pointers made released (some (assignment, slot))) :
    Holding pointers made (Function.update released slot true) (some (assignment, slot)) where
  distinct := holding.distinct
  known := holding.known
  owner := holding.owner
  dangling := by
    intro name place held gone
    by_cases same : place = slot
    · rw [same]
      exact ⟨assignment, rfl⟩
    · rw [Function.update_of_ne same] at gone
      exact holding.dangling name place held gone
  covered := by
    intro place below kept
    by_cases same : place = slot
    · rw [same, Function.update_self] at kept
      cases kept
    · rw [Function.update_of_ne same] at kept
      exact holding.covered place below kept

variable [DecidableEq Name]

/-- After the assignment, an object points to what it or the source pointed to
before, and the target's old slot is gone. -/
theorem perform_cases {name : Name} (held : assignment.perform pointers name = some slot) :
    (name ≠ assignment.target ∧ pointers name = some slot ∧ ¬ assignment = .move assignment.target name) ∨
      Exists fun source => assignment = .move name source ∧ name ≠ source ∧ pointers source = some slot := by
  cases assignment with
  | destroy target =>
      by_cases same : name = target
      · rw [same, Assignment.perform, Function.update_self] at held
        cases held
      · rw [Assignment.perform, Function.update_of_ne same] at held
        exact .inl ⟨same, held, fun moved => nomatch moved⟩
  | move target source =>
      by_cases emptied : name = source
      · rw [emptied, Assignment.perform, Function.update_self] at held
        cases held
      rw [Assignment.perform, Function.update_of_ne emptied] at held
      by_cases same : name = target
      · rw [same, Function.update_self] at held
        rw [same] at emptied ⊢
        exact .inr ⟨source, rfl, emptied, held⟩
      · rw [Function.update_of_ne same] at held
        refine .inl ⟨same, held, ?_⟩
        intro moved
        cases moved
        exact emptied rfl

/-- What is held before the assignment, and not by its target, is held after
it. -/
theorem perform_covers {name : Name} (held : pointers name = some slot) (other : name ≠ assignment.target) :
    Exists fun holder => assignment.perform pointers holder = some slot := by
  cases assignment with
  | destroy target => exact ⟨name, (Function.update_of_ne other _ _).trans held⟩
  | move target source =>
      change name ≠ target at other
      by_cases moved : name = source
      · refine ⟨target, ?_⟩
        rw [Assignment.perform, Function.update_of_ne (fun same => other (moved.trans same.symm)),
          Function.update_self, ← moved]
        exact held
      · refine ⟨name, ?_⟩
        rw [Assignment.perform, Function.update_of_ne moved, Function.update_of_ne other]
        exact held

/-- An assignment ends.  Its target has no slot, or one that has been released. -/
theorem Holding.perform (holding : Holding pointers made released current)
    (cleared : forall place, pointers assignment.target = some place -> released place = true)
    (under : forall other place, current = some (other, place) -> other = assignment) :
    Holding (assignment.perform pointers) made released (none : Option (Assignment Name × Nat)) where
  distinct := by
    intro first second place heldFirst heldSecond
    rcases perform_cases heldFirst with ⟨_, before, keptFirst⟩ | ⟨source, moved, _, before⟩ <;>
      rcases perform_cases heldSecond with ⟨_, beforeSecond, keptSecond⟩ | ⟨other, movedSecond, _, beforeSecond⟩
    · exact holding.distinct first second place before beforeSecond
    · have same := holding.distinct first other place before beforeSecond
      rw [movedSecond, same] at keptFirst
      exact absurd rfl keptFirst
    · have same := holding.distinct source second place before beforeSecond
      rw [moved, same] at keptSecond
      exact absurd rfl keptSecond
    · rw [moved] at movedSecond
      cases movedSecond
      rfl
  known := by
    intro name place held
    rcases perform_cases held with ⟨_, before, _⟩ | ⟨source, _, _, before⟩
    · exact holding.known name place before
    · exact holding.known source place before
  owner := by
    intro other place none
    cases none
  dangling := by
    intro name place held gone
    have target : forall holder, pointers holder = some place -> holder = assignment.target := by
      intro holder before
      rcases holding.dangling holder place before gone with ⟨other, current⟩
      have owner := holding.owner other place current
      rw [under other place current] at owner
      exact holding.distinct holder _ place before owner
    rcases perform_cases held with ⟨kept, before, _⟩ | ⟨source, moved, different, before⟩
    · exact absurd (target name before) kept
    · have same := target source before
      rw [moved] at same
      exact absurd same.symm different
  covered := by
    intro place below kept
    rcases holding.covered place below kept with ⟨name, held⟩
    by_cases same : name = assignment.target
    · have gone := cleared place (same ▸ held)
      rw [kept] at gone
      cases gone
    · exact perform_covers held same

/-- The assignment under way ends, with its slot released. -/
theorem Holding.performCurrent (holding : Holding pointers made released (some (assignment, slot)))
    (gone : released slot = true) :
    Holding (assignment.perform pointers) made released (none : Option (Assignment Name × Nat)) := by
  apply holding.perform
  · intro place held
    cases (holding.owner assignment slot rfl).symm.trans held
    exact gone
  · intro other place under
    cases under
    rfl

/-- A new slot goes to an object that holds none and is not being assigned to. -/
theorem Holding.make (holding : Holding pointers made released current) {name : Name}
    (free : pointers name = none)
    (unused : forall assignment place, current = some (assignment, place) -> ¬ assignment.mentions name) :
    Holding (Function.update pointers name (some made)) (made + 1) (Function.update released made false) current := by
  have old : forall holder place, Function.update pointers name (some made) holder = some place ->
      (holder = name ∧ place = made) ∨ (holder ≠ name ∧ pointers holder = some place ∧ place ≠ made) := by
    intro holder place held
    by_cases same : holder = name
    · rw [same, Function.update_self] at held
      cases held
      exact .inl ⟨same, rfl⟩
    · rw [Function.update_of_ne same] at held
      exact .inr ⟨same, held, Nat.ne_of_lt (holding.known holder place held)⟩
  constructor
  case distinct =>
    intro first second place heldFirst heldSecond
    rcases old first place heldFirst with ⟨new, fresh⟩ | ⟨_, before, stale⟩ <;>
      rcases old second place heldSecond with ⟨newSecond, freshSecond⟩ | ⟨_, beforeSecond, staleSecond⟩
    · exact new.trans newSecond.symm
    · exact absurd fresh staleSecond
    · exact absurd freshSecond stale
    · exact holding.distinct first second place before beforeSecond
  case known =>
    intro holder place held
    rcases old holder place held with ⟨_, fresh⟩ | ⟨_, before, _⟩
    · exact fresh ▸ Nat.lt_succ_self made
    · exact Nat.lt_succ_of_lt (holding.known holder place before)
  case owner =>
    intro assignment place under
    have different : assignment.target ≠ name := by
      intro same
      apply unused assignment place under
      cases assignment with
      | destroy target => exact same.symm
      | move target source => exact .inl same.symm
    rw [Function.update_of_ne different]
    exact holding.owner assignment place under
  case dangling =>
    intro holder place held gone
    rcases old holder place held with ⟨_, fresh⟩ | ⟨_, before, stale⟩
    · rw [fresh, Function.update_self] at gone
      cases gone
    · rw [Function.update_of_ne stale] at gone
      exact holding.dangling holder place before gone
  case covered =>
    intro place below kept
    by_cases fresh : place = made
    · exact ⟨name, fresh ▸ Function.update_self _ _ _⟩
    · rw [Function.update_of_ne fresh] at kept
      rcases holding.covered place (Nat.lt_of_le_of_ne (Nat.le_of_lt_succ below) fresh) kept with ⟨holder, held⟩
      refine ⟨holder, ?_⟩
      rw [Function.update_of_ne]
      · exact held
      · intro same
        rw [same, free] at held
        cases held

end Steps

end Futures
end Sweater
