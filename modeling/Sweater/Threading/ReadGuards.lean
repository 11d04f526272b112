import Mathlib.Algebra.BigOperators.Group.Finset.Basic
import Mathlib.Algebra.BigOperators.Group.Finset.Piecewise
import Mathlib.Algebra.Order.Group.Nat
import Mathlib.Data.List.Infix

namespace Sweater
namespace Threading

universe u v

/-!
# Read guards

The objects of `basic_ro_lock`, over any mutexes.  Move assignment destroys its
target and constructs it again from the source, in the same storage; the
destructor leaves the pointer in the storage as it is.  When source and target
are one object, the guard is constructed from what its destructor has left
there, a pointer to the mutex that has just been released.

That pointer is read after the end of the lifetime of its object, which is
undefined behaviour.  The model does what the code says, as a build does that
does not inline the destructor; an optimising compiler may let the constructor
find a null pointer instead.
-/

variable {Guard : Type u} {Mutex : Type v}

/-- The storage of the guards, and the calls that the mutexes have seen. -/
structure Guards (Guard : Type u) (Mutex : Type v) where
  /-- `p_mutex_` -/
  mutex : Guard -> Option Mutex
  /-- the objects within their lifetime -/
  live : Finset Guard
  /-- the calls of `acquire_ro` that have returned -/
  acquired : Mutex -> Nat
  released : Mutex -> Nat

namespace Guards

def empty : Guards Guard Mutex where
  mutex := fun _ => none
  live := ∅
  acquired := fun _ => 0
  released := fun _ => 0

variable [DecidableEq Guard] [DecidableEq Mutex]

def acquireRo (guards : Guards Guard Mutex) (mutex : Mutex) : Guards Guard Mutex :=
  { guards with acquired := Function.update guards.acquired mutex (guards.acquired mutex + 1) }

def releaseRo (guards : Guards Guard Mutex) (mutex : Mutex) : Guards Guard Mutex :=
  { guards with released := Function.update guards.released mutex (guards.released mutex + 1) }

/-- A constructor sets the pointer, and the lifetime of the object begins. -/
def construct (guards : Guards Guard Mutex) (guard : Guard) (mutex : Option Mutex) : Guards Guard Mutex :=
  { guards with
    mutex := Function.update guards.mutex guard mutex
    live := insert guard guards.live }

/-- `basic_ro_lock( mutex )` -/
def constructOn (guards : Guards Guard Mutex) (guard : Guard) (mutex : Mutex) : Guards Guard Mutex :=
  (guards.construct guard (some mutex)).acquireRo mutex

/-- `std::exchange( other.p_mutex_, nullptr )`, and the construction from its result. -/
def constructFrom (guards : Guards Guard Mutex) (guard other : Guard) : Guards Guard Mutex :=
  { guards with mutex := Function.update guards.mutex other none }.construct guard (guards.mutex other)

/-- The destructor: `if ( p_mutex_ ) p_mutex_->release_ro();` -/
def destroyAt (guards : Guards Guard Mutex) (guard : Guard) : Guards Guard Mutex :=
  match guards.mutex guard with
  | none => { guards with live := guards.live.erase guard }
  | some mutex => { guards with live := guards.live.erase guard }.releaseRo mutex

/-- `operator=` -/
def assignFrom (guards : Guards Guard Mutex) (guard other : Guard) : Guards Guard Mutex :=
  (guards.destroyAt guard).constructFrom guard other

end Guards

inductive GuardOperation (Guard : Type u) (Mutex : Type v)
  | default (guard : Guard)
  | constructOn (guard : Guard) (mutex : Mutex)
  /-- `acquire_ro` has thrown, and there is no guard -/
  | constructThrows (guard : Guard) (mutex : Mutex)
  | moveConstruct (guard other : Guard)
  | moveAssign (guard other : Guard)
  | destroy (guard : Guard)

namespace GuardOperation

/-- Constructors are for new objects, and everything else for live ones. -/
def Allowed (guards : Guards Guard Mutex) : GuardOperation Guard Mutex -> Prop
  | default guard => guard ∉ guards.live
  | constructOn guard _ => guard ∉ guards.live
  | constructThrows guard _ => guard ∉ guards.live
  | moveConstruct guard other => guard ∉ guards.live ∧ other ∈ guards.live
  | moveAssign guard other => guard ∈ guards.live ∧ other ∈ guards.live
  | destroy guard => guard ∈ guards.live

/-- The operation assigns a guard that owns a mutex to itself. -/
def AssignsToItself (guards : Guards Guard Mutex) : GuardOperation Guard Mutex -> Prop
  | moveAssign guard other => guard = other ∧ guards.mutex guard ≠ none
  | _ => False

variable [DecidableEq Guard] [DecidableEq Mutex]

def perform (guards : Guards Guard Mutex) : GuardOperation Guard Mutex -> Guards Guard Mutex
  | default guard => guards.construct guard none
  | constructOn guard mutex => guards.constructOn guard mutex
  | constructThrows _ _ => guards
  | moveConstruct guard other => guards.constructFrom guard other
  | moveAssign guard other => guards.assignFrom guard other
  | destroy guard => guards.destroyAt guard

end GuardOperation

namespace Guards

variable [DecidableEq Guard] [DecidableEq Mutex]

/-- The live guards that own a mutex. -/
def owners (guards : Guards Guard Mutex) (mutex : Mutex) : Nat :=
  ∑ guard ∈ guards.live, if guards.mutex guard = some mutex then 1 else 0

/-- Each mutex is held once for every guard that owns it. -/
def Exact (guards : Guards Guard Mutex) : Prop :=
  forall mutex, (guards.acquired mutex : Int) - guards.released mutex = guards.owners mutex

/-- The guards after a sequence of operations. -/
def afterAll (operations : List (GuardOperation Guard Mutex)) : Guards Guard Mutex :=
  operations.foldl GuardOperation.perform .empty

/-- Every operation is allowed where it is performed. -/
def Valid (operations : List (GuardOperation Guard Mutex)) : Prop :=
  forall earlier operation, earlier ++ [operation] <+: operations -> operation.Allowed (afterAll earlier)

section Steps

variable {guards : Guards Guard Mutex} {guard other : Guard}

theorem owners_construct (fresh : guard ∉ guards.live) (pointer : Option Mutex) (mutex : Mutex) :
    (guards.construct guard pointer).owners mutex = (if pointer = some mutex then 1 else 0) + guards.owners mutex := by
  rw [owners, construct, Finset.sum_insert fresh]
  have own : Function.update guards.mutex guard pointer guard = pointer := Function.update_self _ _ _
  have others : (∑ other ∈ guards.live, if Function.update guards.mutex guard pointer other = some mutex then 1 else 0) =
      guards.owners mutex := by
    apply Finset.sum_congr rfl
    intro other member
    rw [Function.update_of_ne (fun same : other = guard => fresh (same ▸ member))]
  change (if Function.update guards.mutex guard pointer guard = some mutex then 1 else 0) + _ = _
  rw [own]
  exact congrArg _ others

/-- The lifetime of an object ends. -/
def forget (guards : Guards Guard Mutex) (guard : Guard) : Guards Guard Mutex :=
  { guards with live := guards.live.erase guard }

theorem owners_forget (live : guard ∈ guards.live) (mutex : Mutex) :
    (if guards.mutex guard = some mutex then 1 else 0) + (guards.forget guard).owners mutex = guards.owners mutex :=
  Finset.add_sum_erase guards.live (fun other => if guards.mutex other = some mutex then 1 else 0) live

/-- The storage of a live guard is emptied. -/
theorem owners_emptied (live : other ∈ guards.live) (mutex : Mutex) :
    (if guards.mutex other = some mutex then 1 else 0) +
      ({ guards with mutex := Function.update guards.mutex other none } : Guards Guard Mutex).owners mutex =
      guards.owners mutex := by
  have emptied := Finset.add_sum_erase guards.live
    (fun each => if Function.update guards.mutex other none each = some mutex then 1 else 0) live
  have same : (∑ each ∈ guards.live.erase other,
      if Function.update guards.mutex other none each = some mutex then 1 else 0) =
      (guards.forget other).owners mutex := by
    apply Finset.sum_congr rfl
    intro each member
    rw [Function.update_of_ne (Finset.ne_of_mem_erase member)]
    rfl
  rw [same, Function.update_self, if_neg nofun, Nat.zero_add] at emptied
  rw [← owners_forget live mutex]
  exact congrArg _ emptied.symm

/-- A new guard on a mutex. -/
theorem Exact.constructOn (balanced : guards.Exact) (fresh : guard ∉ guards.live) (own : Mutex) :
    (guards.constructOn guard own).Exact := by
  intro mutex
  have before := balanced mutex
  have owned : (guards.constructOn guard own).owners mutex = _ := owners_construct fresh (some own) mutex
  rw [owned]
  change ((Function.update guards.acquired own (guards.acquired own + 1) mutex : Nat) : Int) - guards.released mutex = _
  by_cases here : own = mutex
  · subst here
    rw [Function.update_self, if_pos rfl]
    omega
  · rw [Function.update_of_ne (Ne.symm here), if_neg (fun same => here (Option.some.inj same))]
    omega

/-- A new guard that takes over what another one owns. -/
theorem Exact.constructFrom (balanced : guards.Exact) (fresh : guard ∉ guards.live) (live : other ∈ guards.live) :
    (guards.constructFrom guard other).Exact := by
  intro mutex
  have before := balanced mutex
  have emptied := owners_emptied live mutex
  have owned : (guards.constructFrom guard other).owners mutex = _ :=
    @owners_construct _ _ _ _ { guards with mutex := Function.update guards.mutex other none } _
      fresh (guards.mutex other) mutex
  rw [owned, emptied]
  exact before

/-- A destructor releases what its guard owns. -/
theorem Exact.destroyAt (balanced : guards.Exact) (live : guard ∈ guards.live) : (guards.destroyAt guard).Exact := by
  intro mutex
  have before := balanced mutex
  have erased := owners_forget live mutex
  rw [Guards.destroyAt]
  cases pointer : guards.mutex guard with
  | none =>
      rw [pointer, if_neg nofun, Nat.zero_add] at erased
      rw [← erased] at before
      exact before
  | some own =>
      rw [pointer] at erased
      change (guards.acquired mutex : Int) -
        (Function.update guards.released own (guards.released own + 1) mutex : Nat) = ((guards.forget guard).owners mutex : Int)
      by_cases here : own = mutex
      · subst here
        rw [Function.update_self]
        rw [if_pos rfl] at erased
        omega
      · rw [Function.update_of_ne (Ne.symm here)]
        rw [if_neg (fun same => here (Option.some.inj same))] at erased
        omega

theorem destroyAt_live : (guards.destroyAt guard).live = guards.live.erase guard := by
  rw [destroyAt]
  cases guards.mutex guard <;> rfl

theorem Exact.assignFrom (balanced : guards.Exact) (target : guard ∈ guards.live) (source : other ∈ guards.live)
    (different : guard ≠ other) : (guards.assignFrom guard other).Exact := by
  apply (balanced.destroyAt target).constructFrom
  · rw [destroyAt_live]
    exact Finset.notMem_erase guard guards.live
  · rw [destroyAt_live]
    exact Finset.mem_erase.mpr ⟨different.symm, source⟩

/-- An assignment to itself leaves a guard as it is, and its mutex released. -/
theorem assignFrom_self (live : guard ∈ guards.live) :
    guards.assignFrom guard guard =
      match guards.mutex guard with
      | none => guards
      | some own => guards.releaseRo own := by
  have pointers : Function.update (Function.update guards.mutex guard none) guard (guards.mutex guard) =
      guards.mutex := by
    rw [Function.update_idem]
    exact Function.update_eq_self guard guards.mutex
  have objects : insert guard (guards.live.erase guard) = guards.live := Finset.insert_erase live
  rw [assignFrom, destroyAt]
  cases pointer : guards.mutex guard with
  | none =>
      change Guards.mk (Function.update (Function.update guards.mutex guard none) guard (guards.mutex guard))
        (insert guard (guards.live.erase guard)) guards.acquired guards.released = guards
      rw [pointers, objects]
  | some own =>
      change Guards.mk (Function.update (Function.update guards.mutex guard none) guard (guards.mutex guard))
        (insert guard (guards.live.erase guard)) guards.acquired _ = guards.releaseRo own
      rw [pointers, objects]
      rfl

omit [DecidableEq Guard] in
theorem not_exact_releaseRo (balanced : guards.Exact) (own : Mutex) : ¬(guards.releaseRo own).Exact := by
  intro after
  have before := balanced own
  have now : (guards.acquired own : Int) - (Function.update guards.released own (guards.released own + 1) own : Nat) =
    guards.owners own := after own
  rw [Function.update_self] at now
  omega

end Steps

section Runs

variable {guards : Guards Guard Mutex}

/--
One allowed operation: the guards stay exact unless a guard that owns a mutex is
assigned to itself, and then they do not.
-/
theorem exact_perform_iff (balanced : guards.Exact) {operation : GuardOperation Guard Mutex}
    (allowed : operation.Allowed guards) :
    (operation.perform guards).Exact <-> ¬operation.AssignsToItself guards := by
  cases operation with
  | default guard =>
      refine iff_of_true ?_ not_false
      intro mutex
      have owned : (guards.construct guard none).owners mutex = _ := owners_construct allowed none mutex
      rw [if_neg nofun, Nat.zero_add] at owned
      change _ = ((guards.construct guard none).owners mutex : Int)
      rw [owned]
      exact balanced mutex
  | constructOn guard own => exact iff_of_true (balanced.constructOn allowed own) not_false
  | constructThrows guard own => exact iff_of_true balanced not_false
  | moveConstruct guard other => exact iff_of_true (balanced.constructFrom allowed.1 allowed.2) not_false
  | destroy guard => exact iff_of_true (balanced.destroyAt allowed) not_false
  | moveAssign guard other =>
      by_cases same : guard = other
      · subst same
        change (guards.assignFrom guard guard).Exact <-> ¬(guard = guard ∧ guards.mutex guard ≠ none)
        rw [assignFrom_self allowed.1]
        cases pointer : guards.mutex guard with
        | none => exact iff_of_true balanced (fun assigns => assigns.2 rfl)
        | some own =>
            exact iff_of_false (not_exact_releaseRo balanced own) (fun never => never ⟨rfl, nofun⟩)
      · exact iff_of_true (balanced.assignFrom allowed.1 allowed.2 same) (fun assigns => same assigns.1)

omit [DecidableEq Guard] in
theorem exact_empty : (empty : Guards Guard Mutex).Exact :=
  fun _ => rfl

theorem afterAll_append (earlier : List (GuardOperation Guard Mutex)) (operation : GuardOperation Guard Mutex) :
    afterAll (earlier ++ [operation]) = operation.perform (afterAll earlier) :=
  List.foldl_append

omit [DecidableEq Guard] in
/-- When all guards are destroyed, every acquisition has been released. -/
theorem Exact.all_released (balanced : guards.Exact) (destroyed : guards.live = ∅) (mutex : Mutex) :
    guards.acquired mutex = guards.released mutex := by
  have held := balanced mutex
  rw [owners, destroyed, Finset.sum_empty] at held
  omega

theorem exact_afterAll {operations : List (GuardOperation Guard Mutex)} (valid : Valid operations)
    (never : forall earlier operation, earlier ++ [operation] <+: operations ->
      ¬operation.AssignsToItself (afterAll earlier)) : (afterAll operations).Exact := by
  induction operations using List.reverseRecOn with
  | nil => exact exact_empty
  | append_singleton earlier operation before =>
      have before : (afterAll earlier).Exact := by
        apply before
        · exact fun first next part => valid first next (part.trans (List.prefix_append earlier [operation]))
        · exact fun first next part => never first next (part.trans (List.prefix_append earlier [operation]))
      rw [afterAll_append]
      exact (exact_perform_iff before (valid earlier operation (List.prefix_refl _))).mpr
        (never earlier operation (List.prefix_refl _))

/--
Throughout a sequence of operations each mutex is held once for every live guard
that owns it, and not at all once no guard is left, if and only if no guard that
owns a mutex is assigned to itself.
-/
theorem guards_exact_iff (operations : List (GuardOperation Guard Mutex)) (valid : Valid operations) :
    (forall earlier, earlier <+: operations ->
        (forall mutex, ((afterAll earlier).acquired mutex : Int) - (afterAll earlier).released mutex =
          (afterAll earlier).owners mutex) ∧
        ((afterAll earlier).live = ∅ ->
          forall mutex, (afterAll earlier).acquired mutex = (afterAll earlier).released mutex)) <->
      forall earlier operation, earlier ++ [operation] <+: operations ->
        ¬operation.AssignsToItself (afterAll earlier) := by
  constructor
  · intro holds earlier operation part
    have before : (afterAll earlier).Exact := (holds earlier ((List.prefix_append earlier [operation]).trans part)).1
    have after : (operation.perform (afterAll earlier)).Exact := by
      rw [← afterAll_append]
      exact (holds _ part).1
    exact (exact_perform_iff before (valid earlier operation part)).mp after
  · intro never earlier part
    have balanced : (afterAll earlier).Exact := by
      apply exact_afterAll
      · exact fun first next smaller => valid first next (smaller.trans part)
      · exact fun first next smaller => never first next (smaller.trans part)
    exact ⟨balanced, balanced.all_released⟩

omit [DecidableEq Guard] [DecidableEq Mutex] in
/-- The steps of a run of three operations. -/
theorem steps_of_three {first second third : GuardOperation Guard Mutex} {earlier : List (GuardOperation Guard Mutex)}
    {operation : GuardOperation Guard Mutex} (part : earlier ++ [operation] <+: [first, second, third]) :
    (earlier = [] ∧ operation = first) ∨ (earlier = [first] ∧ operation = second) ∨
      (earlier = [first, second] ∧ operation = third) := by
  obtain ⟨rest, whole⟩ := part
  match earlier with
  | [] => simp_all
  | [_] => simp_all
  | [_, _] => simp_all
  | _ :: _ :: _ :: _ => simp at whole

/-- A guard, another one that takes over its mutex, and the end of the latter. -/
def handedOver : List (GuardOperation Nat Nat) :=
  [.constructOn 0 7, .moveConstruct 1 0, .destroy 1]

theorem handedOver_exact : (afterAll handedOver).acquired 7 = 1 ∧
    forall mutex, ((afterAll handedOver).acquired mutex : Int) - (afterAll handedOver).released mutex =
      (afterAll handedOver).owners mutex := by
  have valid : Valid handedOver := by
    intro earlier operation part
    obtain ⟨rfl, rfl⟩ | ⟨rfl, rfl⟩ | ⟨rfl, rfl⟩ := steps_of_three part
    · exact Finset.notMem_empty 0
    · exact ⟨by decide, by decide⟩
    · change 1 ∈ (afterAll [GuardOperation.constructOn 0 7, GuardOperation.moveConstruct 1 0]).live
      decide
  have counts := (guards_exact_iff handedOver valid).mpr ?_ handedOver (List.prefix_refl _)
  · exact ⟨by decide, counts.1⟩
  · intro earlier operation part
    obtain ⟨rfl, rfl⟩ | ⟨rfl, rfl⟩ | ⟨rfl, rfl⟩ := steps_of_three part <;> exact not_false

/-- A guard assigned to itself and then destroyed. -/
def reassigned : List (GuardOperation Nat Nat) :=
  [.constructOn 0 7, .moveAssign 0 0, .destroy 0]

/-- Its mutex is released twice and was acquired once. -/
theorem reassigned_released_twice :
    Valid reassigned ∧ (afterAll reassigned).live = ∅ ∧
      (afterAll reassigned).acquired 7 = 1 ∧ (afterAll reassigned).released 7 = 2 := by
  refine ⟨?_, by decide, by decide, by decide⟩
  intro earlier operation part
  obtain ⟨rfl, rfl⟩ | ⟨rfl, rfl⟩ | ⟨rfl, rfl⟩ := steps_of_three part
  · exact Finset.notMem_empty 0
  · exact ⟨by decide, by decide⟩
  · change 0 ∈ (afterAll [GuardOperation.constructOn 0 7, GuardOperation.moveAssign 0 0]).live
    decide

end Runs

end Guards

end Threading
end Sweater
