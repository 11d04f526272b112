import Sweater.Threading.Platform
import Mathlib.Logic.Relation
import Mathlib.Data.BitVec

namespace Sweater
namespace Shop

open Threading

/-!
# The wake tree

`propagate_spread_wake` notifies the children of a worker in a binary tree over
the indices of the workers.  The index of a child is narrowed to
`hardware_concurrency_t` before it is compared with the number of workers, so
that it may start again at the front.  Up to half of the range of the type the
notifications are the tree; with more workers the root is notified too.

Every worker has the index that it was started with.  On 32-bit targets the index
passes through a field of five bits, and an assertion says that it fits.
-/

variable {bits : Nat}

/-- `left` -/
def leftChild (workerIndex : BitVec bits) : BitVec bits := BitVec.ofNat bits (2 * workerIndex.toNat + 1)

/-- `right` -/
def rightChild (workerIndex : BitVec bits) : BitVec bits := BitVec.ofNat bits (2 * workerIndex.toNat + 2)

/-- The workers that `propagate_spread_wake` notifies. -/
def propagateSpreadWake (workers workerIndex : BitVec bits) : List (BitVec bits) :=
  (if leftChild workerIndex < workers then [leftChild workerIndex] else []) ++
    (if rightChild workerIndex < workers then [rightChild workerIndex] else [])

/-- A worker of the pool notifies another one. -/
def Notifies (workers parent child : BitVec bits) : Prop :=
  parent < workers ∧ child ∈ propagateSpreadWake workers parent

/-- The notifications form a tree with worker 0 as the root. -/
structure WakeTree (workers : BitVec bits) : Prop where
  /-- nobody notifies the root -/
  root : forall parent, Not (Notifies workers parent 0)
  /-- every other worker is notified by one worker, once, and from before it -/
  parent : forall child, 0 < child -> child < workers -> Exists fun parent =>
    Notifies workers parent child ∧ parent < child ∧ (propagateSpreadWake workers parent).count child = 1 ∧
      forall other, Notifies workers other child -> other = parent
  /-- the wake of the root reaches all workers -/
  reaches : forall worker, worker < workers -> Relation.ReflTransGen (Notifies workers) 0 worker
  acyclic : forall worker, Not (Relation.TransGen (Notifies workers) worker worker)

section Children

variable {workers parent child : BitVec bits}

theorem mem_propagateSpreadWake : child ∈ propagateSpreadWake workers parent ↔
    child < workers ∧ (child = leftChild parent ∨ child = rightChild parent) := by
  rw [propagateSpreadWake, List.mem_append]
  constructor
  · intro member
    rcases member with left | right
    · split at left
      · rename_i inside
        rw [List.mem_singleton.mp left]
        exact ⟨inside, Or.inl rfl⟩
      · cases left
    · split at right
      · rename_i inside
        rw [List.mem_singleton.mp right]
        exact ⟨inside, Or.inr rfl⟩
      · cases right
  · rintro ⟨inside, rfl | rfl⟩
    · rw [if_pos inside]
      exact Or.inl (List.mem_singleton.mpr rfl)
    · rw [if_pos inside]
      exact Or.inr (List.mem_singleton.mpr rfl)

/-- In the lower half of the range the indices are those that are meant. -/
theorem toNat_children (half : 2 * workers.toNat < 2 ^ bits) (inside : parent < workers) :
    (leftChild parent).toNat = 2 * parent.toNat + 1 ∧ (rightChild parent).toNat = 2 * parent.toNat + 2 := by
  have below : parent.toNat < workers.toNat := inside
  rw [leftChild, rightChild, BitVec.toNat_ofNat, BitVec.toNat_ofNat]
  exact ⟨Nat.mod_eq_of_lt (by omega), Nat.mod_eq_of_lt (by omega)⟩

theorem notifies_iff (half : 2 * workers.toNat < 2 ^ bits) : Notifies workers parent child ↔
    parent < workers ∧ child < workers ∧
      (child.toNat = 2 * parent.toNat + 1 ∨ child.toNat = 2 * parent.toNat + 2) := by
  rw [Notifies, mem_propagateSpreadWake]
  apply and_congr_right
  intro inside
  have meant := toNat_children half inside
  apply and_congr_right
  intro _
  rw [← meant.1, ← meant.2, BitVec.toNat_inj, BitVec.toNat_inj]

theorem lt_of_notifies (half : 2 * workers.toNat < 2 ^ bits) (notifies : Notifies workers parent child) :
    parent.toNat < child.toNat := by
  rcases (notifies_iff half).mp notifies with ⟨_, _, left | right⟩
  · omega
  · omega

/-- The worker that notifies a given one. -/
theorem exists_parent (half : 2 * workers.toNat < 2 ^ bits) (positive : 0 < child.toNat) (inside : child < workers) :
    Exists fun parent => Notifies workers parent child ∧ parent.toNat = (child.toNat - 1) / 2 := by
  have below : child.toNat < workers.toNat := inside
  have number : (BitVec.ofNat bits ((child.toNat - 1) / 2)).toNat = (child.toNat - 1) / 2 := by
    rw [BitVec.toNat_ofNat]
    exact Nat.mod_eq_of_lt (by omega)
  refine ⟨BitVec.ofNat bits ((child.toNat - 1) / 2), (notifies_iff half).mpr ⟨?_, inside, ?_⟩, number⟩
  · rw [BitVec.lt_def, number]
    omega
  · rw [number]
    omega

/-- The two children of a worker differ. -/
theorem nodup_propagateSpreadWake (half : 2 * workers.toNat < 2 ^ bits) (inside : parent < workers) :
    (propagateSpreadWake workers parent).Nodup := by
  have meant := toNat_children half inside
  have different : leftChild parent ≠ rightChild parent := by
    intro same
    rw [same] at meant
    omega
  rw [propagateSpreadWake]
  split
  · split
    · exact List.nodup_cons.mpr ⟨fun member => different (List.mem_singleton.mp member), List.nodup_singleton _⟩
    · exact List.nodup_singleton _
  · split
    · exact List.nodup_singleton _
    · exact List.nodup_nil

/-- By induction on the index: the parent is nearer to the root. -/
theorem reaches_of_half (half : 2 * workers.toNat < 2 ^ bits) (index : Nat) :
    forall worker : BitVec bits, worker.toNat = index -> worker < workers ->
      Relation.ReflTransGen (Notifies workers) 0 worker := by
  induction index using Nat.strong_induction_on with
  | _ index inductionHypothesis =>
      intro worker number inside
      by_cases root : worker = 0
      · rw [root]
      · have positive : 0 < worker.toNat := by
          apply Nat.pos_of_ne_zero
          intro zero
          exact root (BitVec.eq_of_toNat_eq zero)
        rcases exists_parent half positive inside with ⟨parent, notifies, _⟩
        have less := lt_of_notifies half notifies
        exact (inductionHypothesis parent.toNat (by omega) parent rfl notifies.1).tail notifies

end Children

section Trees

variable {workers : BitVec bits}

/-- Half of the range is enough for the tree. -/
theorem wakeTree_of_half (half : 2 * workers.toNat < 2 ^ bits) : WakeTree workers := by
  constructor
  · intro parent notifies
    have less := lt_of_notifies half notifies
    exact absurd less (Nat.not_lt_zero _)
  · intro child positive inside
    have positive' : 0 < child.toNat := positive
    rcases exists_parent half positive' inside with ⟨parent, notifies, number⟩
    refine ⟨parent, notifies, lt_of_notifies half notifies, ?_, ?_⟩
    · exact List.count_eq_one_of_mem (nodup_propagateSpreadWake half notifies.1) notifies.2
    · intro other also
      have here := (notifies_iff half).mp also
      apply BitVec.eq_of_toNat_eq
      omega
  · intro worker inside
    exact reaches_of_half half worker.toNat worker rfl inside
  · intro worker cycle
    have increases : forall {first second}, Relation.TransGen (Notifies workers) first second ->
        first.toNat < second.toNat := by
      intro first second path
      induction path with
      | single notifies => exact lt_of_notifies half notifies
      | tail _ notifies inductionHypothesis => exact Nat.lt_trans inductionHypothesis (lt_of_notifies half notifies)
    exact Nat.lt_irrefl _ (increases cycle)

/-- With more workers, a child index starts again at the front. -/
theorem half_of_wakeTree (wide : 0 < bits) (some : 0 < workers) (tree : WakeTree workers) :
    2 * workers.toNat < 2 ^ bits := by
  by_contra large
  have double : 2 * 2 ^ (bits - 1) = 2 ^ bits := by
    rw [← Nat.pow_succ', Nat.succ_eq_add_one, Nat.sub_add_cancel wide]
  have positive := Nat.two_pow_pos (bits - 1)
  have number : (BitVec.ofNat bits (2 ^ (bits - 1) - 1)).toNat = 2 ^ (bits - 1) - 1 := by
    rw [BitVec.toNat_ofNat]
    exact Nat.mod_eq_of_lt (by omega)
  have wraps : rightChild (BitVec.ofNat bits (2 ^ (bits - 1) - 1)) = 0 := by
    apply BitVec.eq_of_toNat_eq
    have whole : 2 * (2 ^ (bits - 1) - 1) + 2 = 2 ^ bits := by omega
    rw [rightChild, BitVec.toNat_ofNat, number, whole, Nat.mod_self]
    rfl
  apply tree.root (BitVec.ofNat bits (2 ^ (bits - 1) - 1))
  refine ⟨?_, mem_propagateSpreadWake.mpr ⟨some, Or.inr wraps.symm⟩⟩
  rw [BitVec.lt_def, number]
  omega

end Trees

/-- The notifications form the tree as long as the number of workers is below
half of the range of its type, and for no larger one. -/
theorem wake_tree_iff (concurrency : HardwareConcurrency) {workers : BitVec concurrency.bits} (some : 0 < workers) :
    WakeTree workers ↔ 2 * workers.toNat < 2 ^ concurrency.bits := by
  have wide : 0 < concurrency.bits := by
    cases concurrency <;> decide
  exact ⟨half_of_wakeTree wide some, wakeTree_of_half⟩

theorem wake_tree_iff_four :
    (WakeTree (4 : BitVec HardwareConcurrency.uint8.bits) ↔ 2 * 4 < 2 ^ 8) ∧
      WakeTree (4 : BitVec HardwareConcurrency.uint8.bits) :=
  ⟨wake_tree_iff .uint8 (by decide), (wake_tree_iff .uint8 (by decide)).mpr (by decide)⟩

/-- Worker 127 of 128 notifies the root. -/
theorem wake_tree_fails : Not (forall workers : BitVec HardwareConcurrency.uint8.bits, 0 < workers -> WakeTree workers) := by
  intro always
  have tree := always 128 (by decide)
  exact tree.root 127 ⟨by decide, by decide⟩

end Shop
end Sweater
