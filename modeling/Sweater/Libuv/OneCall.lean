import Sweater.Libuv.Steps
import Mathlib.Algebra.Order.Group.Multiset

namespace Sweater
namespace Libuv

open Interleaving

/-!
# One call of `spread_impl`

The libuv shop with all calls but one left out: the node of the call, and the
program points that threads are at in it.  It does not matter which thread is
at which point, so that the points are a multiset.

Invariants of a call are proved here once and for all interleavings, and
`call_invariant` is the rule for it.  That every run of the shop is a run of
each of its calls is shown where the list of nodes is known to be sound: only a
node that is in a list may be handed to `queue_chunks`.
-/

/-- A step as a call sees it: the points that go, and those that come.  The flag
says whether the call has begun before. -/
inductive NodeChange (program : Program) : Bool -> Node -> List Point -> Node -> List Point -> Prop
  | step {node node'} (onLoop point points) :
      NodeStep program.cancelMayFail onLoop node point node' points ->
      NodeChange program true node [point] node' points
  | callEmpty : NodeChange program false .blank [] .blank [.finished .caller]
  | callSerial (iterations : BitVec 32) :
      iterations ≠ 0 ->
      NodeChange program false .blank [] (.serial iterations) [.executing .serial 0 .running]
  | callParallel (iterations : BitVec 32) :
      1 < (program.numChunks iterations).toNat ->
      NodeChange program false .blank [] (.create program iterations)
        [.publish ((program.numChunks iterations).toNat - 1) .created]
  | loadHead {node} (queuedChunks head) :
      NodeChange program true node [.publish queuedChunks .loadHead] node [.publish queuedChunks (.link head)]
  | push {node} (queuedChunks expected) :
      NodeChange program true node [.publish queuedChunks (.push expected)] { node with listed := node.listed + 1 }
        [.publish queuedChunks .send]
  | pushFails {node} (queuedChunks expected head) :
      NodeChange program true node [.publish queuedChunks (.push expected)] node [.publish queuedChunks (.link head)]
  | send {node} (queuedChunks) :
      NodeChange program true node [.publish queuedChunks .send] node [.publish queuedChunks .tail]
  | dequeue {node} (index) :
      node.request index = .queued ->
      NodeChange program true node [] (node.setRequest index .started) [.executing .pool index .running]
  | report {node} (index) :
      node.request index = .done ->
      NodeChange program true node [] (node.setRequest index .reported) [.release .callback]
  | drain {node} :
      0 < node.listed ->
      NodeChange program true node []
        { node with
          listed := node.listed - 1
          handed := node.handed + 1 }
        [.queue node.count 0]

structure Call where
  begun : Bool
  node : Node
  points : Multiset Point

inductive CallStep (program : Program) : Call -> Call -> Prop
  /-- the step is none of the call's -/
  | other (call : Call) : CallStep program call call
  | change {begun node node'} (gone come : List Point) (rest : Multiset Point) :
      NodeChange program begun node gone node' come ->
      CallStep program ⟨begun, node, (gone : Multiset Point) + rest⟩ ⟨true, node', (come : Multiset Point) + rest⟩

def callSystem (program : Program) : System Call where
  initial := fun call => call = ⟨false, .blank, 0⟩
  step := CallStep program

section Calls

variable {program : Program} {call : Call}

/-- Before it begins, a call has no points. -/
theorem blank_of_unbegun (reachable : (callSystem program).Reachable call) (unbegun : call.begun = false) :
    call.node = .blank ∧ call.points = 0 := by
  revert unbegun
  apply reachable.invariant
  · rintro _ rfl _
    exact ⟨rfl, rfl⟩
  · rintro before after _ earlier (_ | ⟨gone, come, rest, _⟩)
    · exact earlier
    · exact nofun

/-- The invariant rule for a call.  The points that a change does not mention
are the same before and after it; there are none when the call begins. -/
theorem call_invariant {holds : Node -> Multiset Point -> Prop} (start : holds .blank 0)
    (changes : forall begun node node' (gone come : List Point) (rest : Multiset Point),
      (callSystem program).Reachable ⟨begun, node, (gone : Multiset Point) + rest⟩ ->
      (begun = false -> rest = 0) -> NodeChange program begun node gone node' come ->
      holds node ((gone : Multiset Point) + rest) -> holds node' ((come : Multiset Point) + rest))
    (reachable : (callSystem program).Reachable call) : holds call.node call.points := by
  apply reachable.invariant
  · rintro _ rfl
    exact start
  · rintro before after reached earlier (_ | ⟨gone, come, rest, change⟩)
    · exact earlier
    · refine changes _ _ _ gone come rest reached ?_ change earlier
      intro unbegun
      have none := (blank_of_unbegun reached unbegun).2
      exact (add_eq_zero.mp none).2

end Calls

/-! ## Counting points -/

/-- How many points have a property. -/
def tally (property : Point -> Bool) (points : Multiset Point) : Nat :=
  points.countP (fun point => property point = true)

section Tally

variable {property other : Point -> Bool} {points rest : Multiset Point} {point : Point}

@[simp] theorem tally_zero (property : Point -> Bool) : tally property 0 = 0 := Multiset.countP_zero _

@[simp] theorem tally_add (property : Point -> Bool) (list : List Point) (rest : Multiset Point) :
    tally property ((list : Multiset Point) + rest) = list.countP property + tally property rest := by
  rw [tally, Multiset.countP_add, Multiset.coe_countP]
  congr 2
  funext point
  exact Bool.decide_coe (property point)

theorem tally_pos_iff : 0 < tally property points ↔ Exists fun point => point ∈ points ∧ property point = true :=
  Multiset.countP_pos

theorem tally_eq_zero_iff : tally property points = 0 ↔ forall point, point ∈ points -> property point = false := by
  rw [tally, Multiset.countP_eq_zero]
  simp only [Bool.not_eq_true]

theorem tally_le_tally (fewer : forall point, property point = true -> other point = true) :
    tally property points ≤ tally other points := by
  rw [tally, tally, Multiset.countP_eq_card_filter, Multiset.countP_eq_card_filter]
  exact Multiset.card_le_card (Multiset.monotone_filter_right points fewer)

/-- If a property holds of one point only, it tells which one. -/
theorem eq_of_tally_le_one {second : Point} (single : tally property points ≤ 1) (here : point ∈ points)
    (there : second ∈ points) (holds : property point = true) (also : property second = true) : point = second := by
  by_contra different
  rcases Multiset.exists_cons_of_mem here with ⟨rest, rfl⟩
  have kept : second ∈ rest := by
    rcases Multiset.mem_cons.mp there with same | kept
    · exact absurd same.symm different
    · exact kept
  have another : 0 < tally property rest := tally_pos_iff.mpr ⟨second, kept, also⟩
  have counted := tally_add property [point] rest
  rw [List.countP_singleton, if_pos holds] at counted
  change tally property (point ::ₘ rest) = _ at counted
  omega

end Tally

end Libuv
end Sweater
