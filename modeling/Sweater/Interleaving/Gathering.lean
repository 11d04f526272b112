import Sweater.Interleaving.CallStacks
import Mathlib.Algebra.BigOperators.Group.Multiset.Basic
import Mathlib.Algebra.Order.Group.Multiset
import Mathlib.Algebra.BigOperators.Group.Finset.Basic

namespace Sweater
namespace Interleaving

universe u v w x

/-!
# What the stacks of all threads hold

Each frame may hold some items.  `gather` puts the items of all frames of all
threads together, without regard to who holds them.  A step of one thread
exchanges the items of its top frame for those of the frames that it leaves,
and the rest stays.
-/

namespace Stacked

variable {Thread : Type u} {Frame : Type v} {Shared : Type w} {Item : Type x} [Fintype Thread]

def gather (items : Frame -> List Item) (state : Stacked Thread Frame Shared) : Multiset Item :=
  ∑ thread, ((state.callStack thread).flatMap items : Multiset Item)

theorem mem_gather {items : Frame -> List Item} {state : Stacked Thread Frame Shared} {item : Item} :
    item ∈ state.gather items ↔
      Exists fun thread => Exists fun frame => frame ∈ state.callStack thread ∧ item ∈ items frame := by
  rw [gather, Multiset.mem_sum]
  constructor
  · intro ⟨thread, _, member⟩
    rcases List.mem_flatMap.mp (Multiset.mem_coe.mp member) with ⟨frame, place, held⟩
    exact ⟨thread, frame, place, held⟩
  · intro ⟨thread, frame, place, held⟩
    exact ⟨thread, Finset.mem_univ thread, Multiset.mem_coe.mpr (List.mem_flatMap.mpr ⟨frame, place, held⟩)⟩

/-- A step of one thread leaves the items of all other frames. -/
theorem gather_replaceTop [DecidableEq Thread] (items : Frame -> List Item) (state : Stacked Thread Frame Shared)
    {thread : Thread} {frame : Frame} {below : List Frame} (place : state.callStack thread = frame :: below)
    (shared : Shared) (frames : List Frame) :
    Exists fun rest : Multiset Item => state.gather items = (items frame : Multiset Item) + rest ∧
      (state.replaceTop thread shared (frames ++ below)).gather items =
        (frames.flatMap items : Multiset Item) + rest := by
  refine ⟨(below.flatMap items : Multiset Item) +
    ∑ other ∈ Finset.univ.erase thread, ((state.callStack other).flatMap items : Multiset Item), ?_, ?_⟩
  · rw [gather, ← Finset.add_sum_erase _ _ (Finset.mem_univ thread), place, List.flatMap_cons, ← Multiset.coe_add,
      add_assoc]
  · rw [gather, ← Finset.add_sum_erase _ _ (Finset.mem_univ thread), callStack_replaceTop, List.flatMap_append,
      ← Multiset.coe_add, add_assoc]
    congr 2
    apply Finset.sum_congr rfl
    intro other member
    rw [callStack_replaceTop_of_ne state (Finset.ne_of_mem_erase member)]

end Stacked

end Interleaving
end Sweater
