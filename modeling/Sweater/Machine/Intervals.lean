import Mathlib.Order.CompletePartialOrder
import Mathlib.Order.Interval.Set.Disjoint
import Mathlib.Order.Interval.Set.Basic

namespace Sweater
namespace Machine

universe u v

/-!
# Consecutive half-open intervals

A list of nonempty half-open intervals tiles a range when each interval begins
where the previous one ends.  Tilings are built at either end, one interval or
one sub-tiling at a time, and give the usual three facts at once: the pieces
are inside, disjoint and cover everything.  Conversely, pieces with these three
properties are a tiling once they are put in order.
-/

variable {α : Type u} [LinearOrder α]

/-- The intervals lead from the first bound to the second one. -/
inductive Tiles : α -> α -> List (α × α) -> Prop
  | nil (start : α) : Tiles start start []
  | cons {start middle stop : α} {rest : List (α × α)} :
      start < middle -> Tiles middle stop rest -> Tiles start stop ((start, middle) :: rest)

namespace Tiles

variable {start middle stop : α} {pieces more : List (α × α)}

theorem single (nonempty : start < stop) : Tiles start stop [(start, stop)] :=
  .cons nonempty (.nil stop)

theorem append (first : Tiles start middle pieces) (second : Tiles middle stop more) :
    Tiles start stop (pieces ++ more) := by
  induction first with
  | nil start => exact second
  | cons nonempty _ inductionHypothesis => exact .cons nonempty (inductionHypothesis second)

/-- A loop that appends one interval per round builds a tiling. -/
theorem concat (first : Tiles start middle pieces) (nonempty : middle < stop) :
    Tiles start stop (pieces ++ [(middle, stop)]) :=
  first.append (single nonempty)

theorem le (tiles : Tiles start stop pieces) : start ≤ stop := by
  induction tiles with
  | nil start => exact le_rfl
  | cons nonempty _ inductionHypothesis => exact nonempty.le.trans inductionHypothesis

/-- The pieces say where a tiling ends. -/
theorem stop_unique {other : α} (tiles : Tiles start stop pieces) (also : Tiles start other pieces) : stop = other := by
  induction tiles with
  | nil start =>
      cases also
      rfl
  | cons _ _ inductionHypothesis =>
      cases also with
      | cons _ rest => exact inductionHypothesis rest

theorem bounds (tiles : Tiles start stop pieces) {piece : α × α} (member : piece ∈ pieces) :
    start ≤ piece.1 ∧ piece.1 < piece.2 ∧ piece.2 ≤ stop := by
  induction tiles with
  | nil start => cases member
  | cons nonempty rest inductionHypothesis =>
      rcases List.mem_cons.mp member with rfl | later
      · exact ⟨le_rfl, nonempty, rest.le⟩
      · have inner := inductionHypothesis later
        exact ⟨nonempty.le.trans inner.1, inner.2⟩

/-- The pieces cover the range and nothing else. -/
theorem mem_iff (tiles : Tiles start stop pieces) (point : α) :
    (Exists fun piece => piece ∈ pieces ∧ point ∈ Set.Ico piece.1 piece.2) ↔
      point ∈ Set.Ico start stop := by
  constructor
  · rintro ⟨piece, member, low, high⟩
    have inside := tiles.bounds member
    exact ⟨inside.1.trans low, high.trans_le inside.2.2⟩
  · induction tiles with
    | nil start =>
        rintro ⟨low, high⟩
        exact absurd high low.not_gt
    | @cons start middle stop rest nonempty _ inductionHypothesis =>
        rintro ⟨low, high⟩
        by_cases first : point < middle
        · exact ⟨(start, middle), List.mem_cons_self, low, first⟩
        · rcases inductionHypothesis ⟨not_lt.mp first, high⟩ with ⟨piece, member, inside⟩
          exact ⟨piece, List.mem_cons_of_mem _ member, inside⟩

/-- No point is in two pieces. -/
theorem disjoint (tiles : Tiles start stop pieces) :
    pieces.Pairwise (fun left right => Disjoint (Set.Ico left.1 left.2) (Set.Ico right.1 right.2)) := by
  induction tiles with
  | nil start => exact List.Pairwise.nil
  | cons nonempty rest inductionHypothesis =>
      apply List.Pairwise.cons _ inductionHypothesis
      intro piece member
      apply Set.disjoint_left.mpr
      intro point here there
      have later := (rest.bounds member).1
      exact absurd (here.2.trans_le (later.trans there.1)) (lt_irrefl point)

/-- A point of the range is in one piece, any other point in none. -/
theorem countP_eq (tiles : Tiles start stop pieces) (point : α) :
    pieces.countP (fun piece => decide (piece.1 ≤ point ∧ point < piece.2)) =
      if start ≤ point ∧ point < stop then 1 else 0 := by
  induction tiles with
  | nil start => rw [List.countP_nil, if_neg (fun inside => absurd inside.2 inside.1.not_gt)]
  | @cons start middle stop rest nonempty later inductionHypothesis =>
      rw [List.countP_cons, inductionHypothesis]
      by_cases first : point < middle
      · have reaches : point < stop := first.trans_le later.le
        simp [first, reaches]
      · have beyond : start ≤ point := nonempty.le.trans (not_lt.mp first)
        simp [first, beyond, not_lt.mp first]

/-- An increasing function carries a tiling over. -/
theorem map_cuts {β : Type v} [LinearOrder β] {cuts : α -> β} (tiles : Tiles start stop pieces)
    (increasing : StrictMonoOn cuts (Set.Icc start stop)) :
    Tiles (cuts start) (cuts stop) (pieces.map fun piece => (cuts piece.1, cuts piece.2)) := by
  induction tiles with
  | nil start => exact .nil _
  | @cons start middle stop rest nonempty later inductionHypothesis =>
      apply Tiles.cons
      · exact increasing ⟨le_rfl, nonempty.le.trans later.le⟩ ⟨nonempty.le, later.le⟩ nonempty
      · apply inductionHypothesis
        intro left inside right within less
        exact increasing ⟨nonempty.le.trans inside.1, inside.2⟩ ⟨nonempty.le.trans within.1, within.2⟩ less

/-- The steps of a range of numbers. -/
theorem units (parts : Nat) : Tiles 0 parts ((List.range parts).map fun part => (part, part + 1)) := by
  induction parts with
  | zero => exact .nil _
  | succ parts inductionHypothesis =>
      rw [List.range_succ, List.map_append]
      exact inductionHypothesis.concat (Nat.lt_succ_self parts)

end Tiles

/-! ## Pieces in any order -/

/-- The intervals are nonempty and disjoint, and together they make up the range. -/
structure Partitions (start stop : α) (pieces : List (α × α)) : Prop where
  nonempty : forall piece, piece ∈ pieces -> piece.1 < piece.2
  apart : pieces.Pairwise (fun left right => Disjoint (Set.Ico left.1 left.2) (Set.Ico right.1 right.2))
  covers : forall point, (Exists fun piece => piece ∈ pieces ∧ point ∈ Set.Ico piece.1 piece.2) ↔
    point ∈ Set.Ico start stop

theorem Tiles.partitions {start stop : α} {pieces : List (α × α)} (tiles : Tiles start stop pieces) :
    Partitions start stop pieces where
  nonempty := fun _ member => (tiles.bounds member).2.1
  apart := tiles.disjoint
  covers := tiles.mem_iff

namespace Partitions

variable {start stop : α} {pieces more : List (α × α)}

/-- The order of the pieces does not matter. -/
theorem perm (partition : Partitions start stop pieces) (order : pieces.Perm more) : Partitions start stop more where
  nonempty := fun piece member => partition.nonempty piece (order.mem_iff.mpr member)
  apart := order.pairwise partition.apart fun disjoint => disjoint.symm
  covers := by
    intro point
    rw [← partition.covers point]
    constructor
    · intro ⟨piece, member, inside⟩
      exact ⟨piece, order.mem_iff.mpr member, inside⟩
    · intro ⟨piece, member, inside⟩
      exact ⟨piece, order.mem_iff.mp member, inside⟩

/-- No piece is there twice. -/
theorem nodup (partition : Partitions start stop pieces) : pieces.Nodup := by
  apply List.Pairwise.imp_of_mem _ partition.apart
  intro left right member _ apart same
  have first : left.1 ∈ Set.Ico left.1 left.2 := ⟨le_rfl, partition.nonempty left member⟩
  exact Set.disjoint_left.mp apart first (same ▸ first)

theorem inside (partition : Partitions start stop pieces) {piece : α × α} (member : piece ∈ pieces) :
    start ≤ piece.1 ∧ piece.2 ≤ stop := by
  have nonempty := partition.nonempty piece member
  have first := (partition.covers piece.1).mp ⟨piece, member, le_rfl, nonempty⟩
  refine ⟨first.1, ?_⟩
  by_contra beyond
  have last := (partition.covers stop).mp ⟨piece, member, first.2.le, not_le.mp beyond⟩
  exact lt_irrefl stop last.2

/-- The piece at the front can be taken away. -/
theorem tail {piece : α × α} (partition : Partitions start stop (piece :: pieces)) (first : piece.1 = start) :
    Partitions piece.2 stop pieces where
  nonempty := fun other member => partition.nonempty other (List.mem_cons_of_mem _ member)
  apart := partition.apart.of_cons
  covers := by
    intro point
    constructor
    · intro ⟨other, member, within⟩
      have range := (partition.covers point).mp ⟨other, List.mem_cons_of_mem _ member, within⟩
      refine ⟨?_, range.2⟩
      by_contra before
      have both : point ∈ Set.Ico piece.1 piece.2 := ⟨first ▸ range.1, not_le.mp before⟩
      exact Set.disjoint_left.mp (List.rel_of_pairwise_cons partition.apart member) both within
    · intro ⟨low, high⟩
      have nonempty := partition.nonempty piece List.mem_cons_self
      rcases (partition.covers point).mpr ⟨first ▸ (nonempty.le.trans low), high⟩ with ⟨other, member, within⟩
      rcases List.mem_cons.mp member with rfl | later
      · exact absurd within.2 low.not_gt
      · exact ⟨other, later, within⟩

/-- In their order, the pieces tile the range. -/
theorem exists_tiles (partition : Partitions start stop pieces) (order : start ≤ stop) :
    Exists fun ordered => pieces.Perm ordered ∧ Tiles start stop ordered := by
  induction length : pieces.length generalizing pieces start with
  | zero =>
      have none : pieces = [] := List.length_eq_zero_iff.mp length
      subst none
      rcases order.lt_or_eq with room | rfl
      · rcases (partition.covers start).mpr ⟨le_rfl, room⟩ with ⟨_, member, _⟩
        cases member
      · exact ⟨[], .refl _, .nil _⟩
  | succ count inductionHypothesis =>
      rcases List.exists_mem_of_length_pos (length ▸ Nat.succ_pos _ : 0 < pieces.length) with ⟨some, present⟩
      have within := partition.inside present
      have room : start < stop := within.1.trans_lt ((partition.nonempty some present).trans_le within.2)
      rcases (partition.covers start).mpr ⟨le_rfl, room⟩ with ⟨piece, member, around⟩
      have first : piece.1 = start := le_antisymm around.1 (partition.inside member).1
      rcases List.append_of_mem member with ⟨front, back, rfl⟩
      have moved := partition.perm List.perm_middle
      have fewer : (front ++ back).length = count := by
        rw [List.length_append, List.length_cons] at length
        rw [List.length_append]
        omega
      rcases inductionHypothesis (moved.tail first) (partition.inside member).2 fewer with ⟨ordered, same, tiles⟩
      refine ⟨(start, piece.2) :: ordered, ?_, .cons around.2 tiles⟩
      rw [← first]
      exact List.perm_middle.trans (same.cons piece)

/-- An increasing function carries a partition over. -/
theorem map_cuts {β : Type v} [LinearOrder β] {cuts : α -> β} (partition : Partitions start stop pieces)
    (order : start ≤ stop) (increasing : StrictMonoOn cuts (Set.Icc start stop)) :
    Partitions (cuts start) (cuts stop) (pieces.map fun piece => (cuts piece.1, cuts piece.2)) := by
  rcases partition.exists_tiles order with ⟨ordered, same, tiles⟩
  exact (tiles.map_cuts increasing).partitions.perm (same.symm.map _)

end Partitions

end Machine
end Sweater
