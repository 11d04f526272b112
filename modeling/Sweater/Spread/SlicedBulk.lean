import Sweater.Spread.ExactTiling

namespace Sweater
namespace Spread

open Machine
open Machine.Checked
open Threading

/-!
# The bulk path without exact worker selection

In these builds, and on devices with slow thread signals, all parts go to the
shared queue at once.  For an idle shop they are sliced first, so that there is
something to steal.  Slicing rewrites the three quantities of the division in
place; the number of parts is a `hardware_concurrency_t` before and after it.

The two assumptions of the code about the sum of the parts are left to the
theorems: the code computes nothing from them.
-/

variable {bits : Nat}

/-- The division is sliced for work stealing. -/
def sliceDivided (stealingDivision : BitVec 8) (division : Division bits) : Checked (Division bits) := do
  let sliceDiv <- sliceDivision stealingDivision division.iterationsPerPart
  let remainder <- rem division.iterationsPerPart (sliceDiv.setWidth 32)
  let remainders <- mul remainder (division.numberOfDispatchedWorkParts.setWidth 32)
  let partsWithExtraIteration <- add division.partsWithExtraIteration remainders
  let iterationsPerPart <- div division.iterationsPerPart (sliceDiv.setWidth 32)
  let product <- mulInt division.numberOfDispatchedWorkParts.toNat sliceDiv.toNat
  let numberOfDispatchedWorkParts <- narrowInt bits product
  pure
    { division with
      iterationsPerPart := iterationsPerPart
      partsWithExtraIteration := partsWithExtraIteration
      numberOfDispatchedWorkParts := numberOfDispatchedWorkParts }

/-- What is handed to the shared queue, and how it is announced. -/
structure Bulk (bits : Nat) where
  callerEnd : BitVec 32
  parts : List Chunk
  /-- the argument of `work_added_untracked` -/
  workAdded : BitVec bits
  /-- the argument of `completion_barrier.initialize` -/
  initialValue : BitVec bits
  /-- the argument of `enqueue_bulk` -/
  enqueued : BitVec bits
  deriving DecidableEq, Repr

/-- The rest of `spread_work`, without exact worker selection; there is no bulk
when the caller takes the only part. -/
def bulk (situation : Situation bits) (division : Division bits) : Checked (Option (Bulk bits)) :=
  if division.numberOfDispatchedWorkParts ≠ 0 then do
    let sliced <-
      if situation.itemsInShop = 0 then sliceDivided situation.stealingDivision division else pure division
    let filled <- fillParts sliced.callerEnd sliced.numberOfDispatchedWorkParts sliced.iterationsPerPart
      sliced.partsWithExtraIteration
    pure (some
      { callerEnd := sliced.callerEnd
        parts := filled.parts
        workAdded := sliced.numberOfDispatchedWorkParts
        initialValue := sliced.numberOfDispatchedWorkParts
        enqueued := sliced.numberOfDispatchedWorkParts })
  else pure none

/-- `spread_work` without exact worker selection, up to the dispatch. -/
def spreadWorkInBulk (situation : Situation bits) (iterations parallelizableIterationsCount : BitVec 32) :
    Checked (Option (Bulk bits)) := do
  let division <- divide situation iterations parallelizableIterationsCount
  bulk situation division

/-- The parts and the caller's chunk follow each other from the first iteration
to the last one, and there are as many parts as announced. -/
structure Bulk.Exact (iterations : BitVec 32) (bulk : Bulk bits) : Prop where
  tiles : Tiles 0 iterations.toNat ((Plan.callerChunk bulk.callerEnd ++ bulk.parts).map Chunk.bounds)
  workAdded : bulk.parts.length = bulk.workAdded.toNat
  initialValue : bulk.parts.length = bulk.initialValue.toNat
  enqueued : bulk.parts.length = bulk.enqueued.toNat

section Slicing

/-- What is not divided evenly is given to the first slices. -/
theorem sliced_whole (share sliceDiv parts : Nat) :
    parts * sliceDiv * (share / sliceDiv) + share % sliceDiv * parts = parts * share := by
  calc parts * sliceDiv * (share / sliceDiv) + share % sliceDiv * parts
      = parts * (sliceDiv * (share / sliceDiv) + share % sliceDiv) := by ring
    _ = parts * share := by rw [Nat.div_add_mod]

/-- There are no more longer slices than slices. -/
theorem sliced_few {extras parts sliceDiv : Nat} (share : Nat) (positive : 0 < sliceDiv) (few : extras ≤ parts) :
    extras + share % sliceDiv * parts ≤ parts * sliceDiv := by
  have below : share % sliceDiv + 1 ≤ sliceDiv := Nat.mod_lt share positive
  have scaled := Nat.mul_le_mul_right parts below
  calc extras + share % sliceDiv * parts
      ≤ parts + share % sliceDiv * parts := Nat.add_le_add_right few _
    _ = (share % sliceDiv + 1) * parts := by ring
    _ ≤ sliceDiv * parts := scaled
    _ = parts * sliceDiv := Nat.mul_comm _ _

/-- The quantities of the sliced division; only the number of parts may wrap. -/
theorem sliceDivided_yields (narrow : bits ≤ 16) (stealingDivision : BitVec 8) {iterations : BitVec 32}
    {division : Division bits} (low : stealingDivisionMin ≤ stealingDivision.toNat)
    (high : stealingDivision.toNat ≤ stealingDivisionMax)
    (layout : Layout division.callerEnd.toNat division.numberOfDispatchedWorkParts.toNat
      division.iterationsPerPart division.partsWithExtraIteration iterations) :
    Yields (sliceDivided stealingDivision division) (fun sliced =>
      sliced.callerEnd = division.callerEnd ∧
      sliced.numberOfDispatchedWorkParts.toNat = (division.numberOfDispatchedWorkParts.toNat *
        min stealingDivision.toNat division.iterationsPerPart.toNat) % 2 ^ bits ∧
      Layout division.callerEnd.toNat (division.numberOfDispatchedWorkParts.toNat *
          min stealingDivision.toNat division.iterationsPerPart.toNat)
        sliced.iterationsPerPart sliced.partsWithExtraIteration iterations) := by
  have words : 2 ^ bits ≤ 2 ^ 16 := Nat.pow_le_pow_right (by decide) narrow
  have counted := division.numberOfDispatchedWorkParts.isLt
  have nonempty := layout.nonempty
  have limit := iterations.isLt
  unfold stealingDivisionMin at low
  unfold stealingDivisionMax at high
  unfold sliceDivided
  apply yields_bind (sliceDivision_min stealingDivision division.iterationsPerPart nonempty).yields
  intro sliceDiv sliceDivIs
  have positive : 0 < sliceDiv.toNat := by omega
  have bounded : sliceDiv.toNat ≤ 16 := by omega
  have smaller : sliceDiv.toNat ≤ division.iterationsPerPart.toNat := by omega
  have wideDiv : (sliceDiv.setWidth 32).toNat = sliceDiv.toNat := toNat_setWidth_of_le (by decide) _
  have wideParts : (division.numberOfDispatchedWorkParts.setWidth 32).toNat =
      division.numberOfDispatchedWorkParts.toNat := toNat_setWidth_of_le (by omega) _
  have whole := sliced_whole division.iterationsPerPart.toNat sliceDiv.toNat
    division.numberOfDispatchedWorkParts.toNat
  have sum := layout.whole
  apply yields_bind (returns_rem division.iterationsPerPart _ (by omega)).yields
  intro remainder remainderIs
  rw [wideDiv] at remainderIs
  have product : remainder.toNat * (division.numberOfDispatchedWorkParts.setWidth 32).toNat =
      division.iterationsPerPart.toNat % sliceDiv.toNat * division.numberOfDispatchedWorkParts.toNat := by
    rw [remainderIs, wideParts]
  apply yields_bind (returns_mul remainder _ (by omega)).yields
  intro remainders remaindersAre
  rw [product] at remaindersAre
  apply yields_bind (returns_add division.partsWithExtraIteration remainders (by omega)).yields
  intro extras extrasAre
  apply yields_bind (returns_div division.iterationsPerPart _ (by omega)).yields
  intro share shareIs
  rw [wideDiv] at shareIs
  have slices : division.numberOfDispatchedWorkParts.toNat * sliceDiv.toNat ≤ 2 ^ 16 * 16 :=
    Nat.mul_le_mul (by omega) bounded
  have fits : FitsInt (division.numberOfDispatchedWorkParts.toNat * sliceDiv.toNat : Int) := by
    rw [← Int.natCast_mul]
    constructor <;> omega
  apply yields_bind (returns_mulInt _ _ fits).yields
  intro product productIs
  rw [← Int.natCast_mul] at productIs
  subst productIs
  apply yields_bind (yields_narrowInt bits _)
  intro number numberIs
  apply Returns.yields
  apply returns_pure
  rw [← sliceDivIs]
  refine ⟨rfl, numberIs, ?_, ?_, ?_⟩
  · change division.callerEnd.toNat + _ * share.toNat + extras.toNat = _
    rw [shareIs, extrasAre, remaindersAre]
    omega
  · change extras.toNat ≤ _
    rw [extrasAre, remaindersAre]
    exact sliced_few _ positive layout.few
  · change 0 < share.toNat
    rw [shareIs]
    exact Nat.div_pos smaller positive

/-- As many parts as were meant tile the range, fewer do not reach its end. -/
theorem bulk_yields (narrow : bits ≤ 16) {situation : Situation bits} {iterations parallelizable : BitVec 32}
    {division : Division bits} (idle : situation.itemsInShop = 0)
    (low : stealingDivisionMin ≤ situation.stealingDivision.toNat)
    (high : situation.stealingDivision.toNat ≤ stealingDivisionMax)
    (divided : division.Exact situation iterations parallelizable) :
    Yields (bulk situation division) (fun result =>
      (result = none ↔ division.numberOfDispatchedWorkParts.toNat = 0) ∧
      forall bulk, result = some bulk -> (bulk.Exact iterations ↔
        division.numberOfDispatchedWorkParts.toNat *
          min situation.stealingDivision.toNat division.iterationsPerPart.toNat < 2 ^ bits)) := by
  unfold bulk
  by_cases any : division.numberOfDispatchedWorkParts ≠ 0
  · have dispatched : division.numberOfDispatchedWorkParts.toNat ≠ 0 :=
      fun zero => any (BitVec.eq_of_toNat_eq zero)
    rw [if_pos any, if_pos idle]
    apply yields_bind (sliceDivided_yields narrow _ low high divided.layout)
    rintro sliced ⟨caller, number, layout⟩
    generalize meant : division.numberOfDispatchedWorkParts.toNat *
      min situation.stealingDivision.toNat division.iterationsPerPart.toNat = parts at number layout
    rw [← caller] at layout
    have fewer : sliced.numberOfDispatchedWorkParts.toNat ≤ parts := number ▸ Nat.mod_le _ _
    have room : Room sliced.callerEnd.toNat sliced.numberOfDispatchedWorkParts.toNat sliced.iterationsPerPart
        sliced.partsWithExtraIteration :=
      ⟨Nat.lt_of_le_of_lt (cut_le_cut _ _ _ _ fewer) layout.room.fits, layout.nonempty⟩
    apply yields_bind (fillParts_reach sliced.callerEnd sliced.numberOfDispatchedWorkParts (by omega) room).yields
    rintro filled ⟨position, tiles, counted⟩
    apply Returns.yields
    apply returns_pure
    refine ⟨⟨nofun, fun zero => absurd zero dispatched⟩, ?_⟩
    rintro _ ⟨⟩
    have all : Tiles 0 filled.iteration.toNat
        ((Plan.callerChunk sliced.callerEnd ++ filled.parts).map Chunk.bounds) := by
      rw [List.map_append]
      exact (tiles_callerChunk sliced.callerEnd).append tiles
    have last := layout.last
    constructor
    · intro bulk
      have reached := all.stop_unique bulk.tiles
      by_contra overflow
      have wrapped : sliced.numberOfDispatchedWorkParts.toNat < parts := by
        have bounded := sliced.numberOfDispatchedWorkParts.isLt
        omega
      have later : sliced.numberOfDispatchedWorkParts.toNat + 1 ≤ parts := wrapped
      have next := cut_succ sliced.callerEnd.toNat sliced.iterationsPerPart.toNat
        sliced.partsWithExtraIteration.toNat sliced.numberOfDispatchedWorkParts.toNat
      have behind := cut_le_cut sliced.callerEnd.toNat sliced.iterationsPerPart.toNat
        sliced.partsWithExtraIteration.toNat _ later
      have nonempty := layout.nonempty
      omega
    · intro fits
      rw [Nat.mod_eq_of_lt fits] at number
      rw [position, number, last] at all
      exact ⟨all, counted, counted, counted⟩
  · have none : division.numberOfDispatchedWorkParts.toNat = 0 := by
      rw [not_not.mp any]
      rfl
    rw [if_neg any]
    apply Returns.yields
    exact returns_pure ⟨⟨fun _ => none, fun _ => rfl⟩, nofun⟩

end Slicing

/-- For an idle shop, the bulk path is taken unless there is a single part.
Its parts then continue the caller's chunk up to the last iteration, and are as
many as announced to the counter, the barrier and the queue, if and only if the
number of slices is a `hardware_concurrency_t`. -/
theorem sliced_bulk_tiles_iff (concurrency : HardwareConcurrency) (situation : Situation concurrency.bits)
    (iterations parallelizable : BitVec 32) (present : iterations ≠ 0) (divisible : parallelizable ≠ 0)
    (representable : situation.workerThreads.toNat + 1 < 2 ^ concurrency.bits)
    (idle : situation.itemsInShop = 0)
    (low : 4 ≤ situation.stealingDivision.toNat) (high : situation.stealingDivision.toNat ≤ 16) :
    let parts := workParts situation.workerThreads.toNat iterations.toNat parallelizable.toNat
    Exists fun result => Exists fun exact =>
      spreadWorkInBulk situation iterations parallelizable = some (result, exact) ∧
      (result = none ↔ parts = 1) ∧
      forall bulk, result = some bulk -> (bulk.Exact iterations ↔
        (parts - 1) * min situation.stealingDivision.toNat (iterations.toNat / parts) < 2 ^ concurrency.bits) := by
  intro parts
  have narrow : concurrency.bits ≤ 16 := by cases concurrency <;> decide
  have computed : Yields (spreadWorkInBulk situation iterations parallelizable) (fun result =>
      (result = none ↔ parts = 1) ∧
      forall bulk, result = some bulk -> (bulk.Exact iterations ↔
        (parts - 1) * min situation.stealingDivision.toNat (iterations.toNat / parts) < 2 ^ concurrency.bits)) := by
    apply yields_bind
      (divide_returns narrow situation iterations parallelizable present divisible representable (Or.inr idle)).yields
    intro division divided
    have quantities := divided.empty idle
    have count : division.numberOfDispatchedWorkParts.toNat + 1 = parts := quantities.2.1
    have share : division.iterationsPerPart.toNat = iterations.toNat / parts := quantities.2.2
    have fewer : division.numberOfDispatchedWorkParts.toNat = parts - 1 := by omega
    have single : parts - 1 = 0 ↔ parts = 1 := by omega
    have rest := bulk_yields narrow idle low high divided
    rw [share, fewer, single] at rest
    exact rest
  exact computed

/-- Four worker threads and a thousand iterations: sixteen slices. -/
theorem sliced_bulk_tiles_iff_four :
    Exists fun bulk => Exists fun exact =>
      spreadWorkInBulk (⟨4, 0, 4, false, true⟩ : Situation HardwareConcurrency.uint16.bits) 1000 1 =
        some (some bulk, exact) ∧ bulk.Exact 1000 := by
  rcases sliced_bulk_tiles_iff .uint16 ⟨4, 0, 4, false, true⟩ 1000 1 (by decide) (by decide) (by decide) rfl
    (by decide) (by decide) with ⟨result, exact, computed, single, rest⟩
  cases result with
  | none => exact absurd (single.mp rfl) (by decide)
  | some bulk => exact ⟨bulk, exact, computed, (rest bulk rfl).mpr (by decide)⟩

/-- With 64 worker threads and 8-bit counts, 256 slices are none: most of the
iterations are in no part. -/
theorem sliced_bulk_drops_parts :
    Exists fun bulk => Exists fun exact =>
      spreadWorkInBulk (⟨64, 0, 4, false, true⟩ : Situation HardwareConcurrency.uint8.bits) 100000 1 =
        some (some bulk, exact) ∧ bulk.parts = [] ∧ bulk.callerEnd = 1539 ∧ Not (bulk.Exact 100000) := by
  refine ⟨⟨1539, [], 0, 0, 0⟩, false,
    @of_decide_eq_true _ (instDecidableEqChecked _ _) (by decide +kernel), rfl, rfl, ?_⟩
  intro bulk
  have caller : Tiles 0 1539 [(0, 1539)] := .single (by decide)
  exact absurd (caller.stop_unique bulk.tiles) (by decide)

end Spread
end Sweater
