import Mathlib.Algebra.BigOperators.Group.Finset.Basic
import Mathlib.Algebra.Order.BigOperators.Group.Finset
import Mathlib.Data.Fintype.BigOperators
import Mathlib.Algebra.Order.Group.Nat

namespace Sweater
namespace Interleaving

universe u v w

/-!
# Counting over the local states of all threads

Counting invariants compare a shared word with the number of threads at
certain program points.  `census` adds up a natural-number weight over the
local states of finitely many threads.  A step of one thread changes the
census by the difference of its two weights; a broadcast that moves several
threads at once is compared pointwise.
-/

variable {Thread : Type u} {Local : Type v} [Fintype Thread]

/-- The total weight of the local states of all threads. -/
def census (weight : Local -> Nat) (locals : Thread -> Local) : Nat :=
  ∑ thread, weight (locals thread)

theorem census_update [DecidableEq Thread] (weight : Local -> Nat) (locals : Thread -> Local)
    (thread : Thread) (next : Local) :
    census weight (Function.update locals thread next) + weight (locals thread) =
      census weight locals + weight next := by
  unfold census
  rw [← Finset.add_sum_erase _ _ (Finset.mem_univ thread),
    ← Finset.add_sum_erase (f := fun other => weight (locals other)) _ (Finset.mem_univ thread)]
  have others : ∑ other ∈ Finset.univ.erase thread,
        weight (Function.update locals thread next other) =
      ∑ other ∈ Finset.univ.erase thread, weight (locals other) := by
    apply Finset.sum_congr rfl
    intro other member
    rw [Function.update_of_ne (Finset.ne_of_mem_erase member)]
  rw [others, Function.update_self]
  omega

/-- A broadcast moves every thread of a set from one local state to another. -/
theorem census_broadcast [DecidableEq Thread] (weight : Local -> Nat) (locals : Thread -> Local)
    (moved : Finset Thread) (source target : Local)
    (atSource : forall thread, thread ∈ moved -> locals thread = source) :
    census weight (fun thread => if thread ∈ moved then target else locals thread) +
        moved.card * weight source =
      census weight locals + moved.card * weight target := by
  unfold census
  rw [← Finset.sum_add_sum_compl moved, ← Finset.sum_add_sum_compl moved (fun thread => weight (locals thread))]
  have inside : ∑ thread ∈ moved, weight (if thread ∈ moved then target else locals thread) =
      moved.card * weight target :=
    Finset.sum_const_nat (fun thread member => by rw [if_pos member])
  have before : ∑ thread ∈ moved, weight (locals thread) = moved.card * weight source :=
    Finset.sum_const_nat (fun thread member => by rw [atSource thread member])
  have outside : ∑ thread ∈ movedᶜ, weight (if thread ∈ moved then target else locals thread) =
      ∑ thread ∈ movedᶜ, weight (locals thread) :=
    Finset.sum_congr rfl (fun thread member => by rw [if_neg (Finset.mem_compl.mp member)])
  rw [inside, before, outside]
  omega

theorem census_congr {Local' : Type w} {weight : Local -> Nat} {weight' : Local' -> Nat}
    {locals : Thread -> Local} {locals' : Thread -> Local'}
    (same : forall thread, weight (locals thread) = weight' (locals' thread)) :
    census weight locals = census weight' locals' :=
  Finset.sum_congr rfl (fun thread _member => same thread)

theorem census_le_census {weight weight' : Local -> Nat} {locals locals' : Thread -> Local}
    (bound : forall thread, weight (locals thread) ≤ weight' (locals' thread)) :
    census weight locals ≤ census weight' locals' :=
  Finset.sum_le_sum (fun thread _member => bound thread)

theorem weight_le_census (weight : Local -> Nat) (locals : Thread -> Local) (thread : Thread) :
    weight (locals thread) ≤ census weight locals :=
  Finset.single_le_sum (f := fun other => weight (locals other))
    (fun _other _member => Nat.zero_le _) (Finset.mem_univ thread)

/-- Two different threads contribute separately. -/
theorem weight_add_weight_le_census (weight : Local -> Nat) (locals : Thread -> Local)
    {first second : Thread} (different : first ≠ second) :
    weight (locals first) + weight (locals second) ≤ census weight locals := by
  classical
  have pair := Finset.sum_le_sum_of_subset (f := fun other => weight (locals other))
    (Finset.subset_univ {first, second})
  rwa [Finset.sum_pair different] at pair

theorem census_eq_zero_iff (weight : Local -> Nat) (locals : Thread -> Local) :
    census weight locals = 0 ↔ forall thread, weight (locals thread) = 0 := by
  unfold census
  rw [Finset.sum_eq_zero_iff]
  exact ⟨fun zero thread => zero thread (Finset.mem_univ thread), fun zero thread _ => zero thread⟩

theorem census_pos_iff (weight : Local -> Nat) (locals : Thread -> Local) :
    0 < census weight locals ↔ Exists fun thread => 0 < weight (locals thread) := by
  rw [Nat.pos_iff_ne_zero, Ne, census_eq_zero_iff, not_forall]
  simp only [Nat.pos_iff_ne_zero, ne_eq]

theorem census_add (weight weight' : Local -> Nat) (locals : Thread -> Local) :
    census (fun place => weight place + weight' place) locals =
      census weight locals + census weight' locals :=
  Finset.sum_add_distrib

/-- The threads satisfying a decidable predicate are counted by its indicator. -/
theorem census_indicator (selected : Local -> Prop) [DecidablePred selected]
    (locals : Thread -> Local) :
    census (fun place => if selected place then 1 else 0) locals =
      (Finset.univ.filter (fun thread => selected (locals thread))).card := by
  unfold census
  rw [Finset.card_filter]

end Interleaving
end Sweater
