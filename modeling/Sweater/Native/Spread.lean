import Sweater.Spread.Chunked

namespace Sweater
namespace Native

open Machine
open Threading
open Spread

/-!
# `spread_the_sweat` on the pool of an operating system

The Windows and the Apple backend divide a spread into four chunks per worker.
They count the chunks in 32 bits but number them in `hardware_concurrency_t`,
which wraps when there are more chunks than it has values.  The Windows backend
divides by the number of chunks that it uses, the Apple one always by four per
worker.
-/

variable {bits : Nat}

/-- `static_cast<iterations_t>( 4 * num_workers )` -/
def fourPerWorker (numWorkers : BitVec bits) : BitVec 32 := 4 * numWorkers.setWidth 32

namespace Windows

/-- `num_chunks` -/
def numChunks (iterations : BitVec 32) (numWorkers : BitVec bits) : BitVec 32 :=
  if fourPerWorker numWorkers < iterations then fourPerWorker numWorkers else iterations

/-- The chunks that the pool has accepted, and those that the caller has run itself. -/
structure Submission where
  submitted : List Chunk
  performed : List Chunk
  deriving DecidableEq, Repr

/-- One round of the loop over the chunks.  `TrySubmitThreadpoolCallback` may
fail; the chunk is then run at once. -/
def submitChunk (setup : ChunkedSpread bits) (submits : Nat -> Bool) (state : Submission) (index : Nat) :
    Submission :=
  let chunk := setup.chunkRange (BitVec.ofNat bits index)
  if submits index then { state with submitted := state.submitted ++ [chunk] }
  else { state with performed := state.performed ++ [chunk] }

/-- `windows::shop::spread_the_sweat` -/
def spreadTheSweat (iterations : BitVec 32) (numWorkers : BitVec bits) (submits : Nat -> Bool) : Submission :=
  if iterations = 0 then ⟨[], []⟩
  else
    let count := numChunks iterations numWorkers
    let setup : ChunkedSpread bits := chunkedSpread iterations count
    (List.range count.toNat).foldl (submitChunk setup submits) ⟨[], []⟩

end Windows

namespace Apple

/-- The argument of `dispatch_apply_f`. -/
def numberOfCalls (iterations : BitVec 32) (numWorkers : BitVec bits) : BitVec 32 :=
  if iterations < fourPerWorker numWorkers then iterations else fourPerWorker numWorkers

/-- The `worker` of `apple::shop::spread_the_sweat`. -/
def worker (iterations : BitVec 32) (numWorkers : BitVec bits) (chunk : Nat) : Chunk :=
  let setup : ChunkedSpread bits := chunkedSpread iterations (fourPerWorker numWorkers)
  setup.chunkRange (BitVec.ofNat bits chunk)

end Apple

section Words

variable {iterations : BitVec 32} {numWorkers : BitVec bits}

theorem toNat_fourPerWorker (narrow : bits ≤ 16) (numWorkers : BitVec bits) :
    (fourPerWorker numWorkers).toNat = 4 * numWorkers.toNat := by
  have bounded : numWorkers.toNat < 2 ^ 16 :=
    Nat.lt_of_lt_of_le numWorkers.isLt (Nat.pow_le_pow_right (Nat.succ_pos 1) narrow)
  rw [fourPerWorker, BitVec.toNat_mul, toNat_setWidth_of_le (Nat.le_trans narrow (by decide))]
  apply Nat.mod_eq_of_lt
  change 4 * numWorkers.toNat < 2 ^ 32
  omega

theorem toNat_numChunks (narrow : bits ≤ 16) :
    (Windows.numChunks iterations numWorkers).toNat = min iterations.toNat (4 * numWorkers.toNat) := by
  rw [Windows.numChunks, toNat_min, toNat_fourPerWorker narrow]

theorem toNat_numberOfCalls (narrow : bits ≤ 16) :
    (Apple.numberOfCalls iterations numWorkers).toNat = min (4 * numWorkers.toNat) iterations.toNat := by
  rw [Apple.numberOfCalls, toNat_min, toNat_fourPerWorker narrow]

end Words

/-! ## The chunks that are run -/

/-- Every round puts its chunk into one of the two lists. -/
theorem Windows.submitChunks_perm (setup : ChunkedSpread bits) (submits : Nat -> Bool) (count : Nat) :
    let final := (List.range count).foldl (Windows.submitChunk setup submits) ⟨[], []⟩
    (final.performed ++ final.submitted).Perm (setup.chunks count) := by
  induction count with
  | zero => exact .nil
  | succ count inductionHypothesis =>
      rw [ChunkedSpread.chunks, List.range_succ, List.map_append, List.foldl_append]
      simp only [List.foldl_cons, List.foldl_nil, List.map_cons, List.map_nil, Windows.submitChunk]
      by_cases accepted : submits count = true
      · rw [if_pos accepted]
        simp only [← List.append_assoc]
        exact inductionHypothesis.append_right _
      · rw [if_neg accepted]
        simp only [List.append_assoc, List.singleton_append]
        exact List.perm_middle.trans ((inductionHypothesis.cons _).trans (List.perm_append_singleton _ _).symm)

/-- Together, the pool and the caller run the chunks of the division. -/
theorem Windows.spreadTheSweat_perm {iterations : BitVec 32} (positive : iterations ≠ 0)
    (numWorkers : BitVec bits) (submits : Nat -> Bool) :
    ((Windows.spreadTheSweat iterations numWorkers submits).performed ++
      (Windows.spreadTheSweat iterations numWorkers submits).submitted).Perm
      ((chunkedSpread iterations (Windows.numChunks iterations numWorkers) : ChunkedSpread bits).chunks
        (Windows.numChunks iterations numWorkers).toNat) := by
  rw [Windows.spreadTheSweat, if_neg positive]
  exact Windows.submitChunks_perm _ _ _

section Division

variable {iterations numberOfChunks : BitVec 32}

/-- Without iterations for the longer chunks and for the others, a chunk is empty. -/
theorem chunkRange_empty (chunkIndex : BitVec bits) :
    ChunkedSpread.chunkRange ⟨0, 0⟩ chunkIndex = ⟨0, 0⟩ := by
  have none : Not (chunkIndex < (0 : BitVec bits)) := BitVec.not_lt_zero
  have extraIters : (if (0 : BitVec bits) < chunkIndex then (0 : BitVec bits) else chunkIndex) = 0 := by
    by_cases later : (0 : BitVec bits) < chunkIndex
    · rw [if_pos later]
    · rw [if_neg later]
      exact BitVec.le_zero_iff.mp (BitVec.not_lt.mp later)
  simp only [ChunkedSpread.chunkRange, extraIters, none, decide_false]
  simp [extraIteration]

variable (bits) in
/-- The chunks with iterations are numbered properly when their indices and
the number of longer chunks fit, and only then. -/
theorem chunks_partition_iff (positive : 0 < numberOfChunks.toNat) (some : 0 < iterations.toNat) :
    Partitions 0 iterations.toNat
      (((chunkedSpread iterations numberOfChunks : ChunkedSpread bits).chunks
        (min numberOfChunks.toNat iterations.toNat)).map Chunk.bounds) ↔
      min numberOfChunks.toNat iterations.toNat ≤ 2 ^ bits ∧ iterations.toNat % numberOfChunks.toNat < 2 ^ bits := by
  constructor
  · intro partition
    have fits : min numberOfChunks.toNat iterations.toNat ≤ 2 ^ bits := by
      by_contra many
      exact chunks_repeat (Nat.not_le.mp many) _ partition.nodup
    refine ⟨fits, ?_⟩
    by_contra large
    -- there are more chunks than iterations, and as many iterations as indices
    have remainder := Nat.mod_lt iterations.toNat positive
    have fewer : iterations.toNat < numberOfChunks.toNat := by
      by_contra enough
      rw [Nat.min_eq_left (Nat.not_lt.mp enough)] at fits
      omega
    rw [Nat.mod_eq_of_lt fewer] at large
    rw [Nat.min_eq_right (Nat.le_of_lt fewer)] at fits
    have full : iterations.toNat = 2 ^ bits := Nat.le_antisymm fits (Nat.not_lt.mp large)
    have setup : (chunkedSpread iterations numberOfChunks : ChunkedSpread bits) = ⟨0, 0⟩ := by
      rw [chunkedSpread_eq, Nat.div_eq_of_lt fewer, Nat.mod_eq_of_lt fewer, full]
      congr 1
      apply BitVec.eq_of_toNat_eq
      rw [BitVec.toNat_ofNat, Nat.mod_self]
      exact BitVec.toNat_zero.symm
    have member : (0, 0) ∈ ((chunkedSpread iterations numberOfChunks : ChunkedSpread bits).chunks
        (min numberOfChunks.toNat iterations.toNat)).map Chunk.bounds := by
      rw [setup, ChunkedSpread.chunks, List.map_map]
      apply List.mem_map.mpr
      refine ⟨0, List.mem_range.mpr (Nat.lt_min.mpr ⟨positive, some⟩), ?_⟩
      rw [Function.comp_apply, chunkRange_empty]
      rfl
    exact absurd (partition.nonempty _ member) (Nat.lt_irrefl 0)
  · rintro ⟨indicesFit, extrasFit⟩
    exact (chunks_tile positive indicesFit extrasFit).partitions

end Division

/-- For each of the two backends, the ranges of a spread are as many as there
are chunks; they are nonempty and cover every iteration exactly once if and only
if the chunks can be numbered.  For the Windows backend there may be as many
chunks as `hardware_concurrency_t` has values; for the Apple backend, which
counts the longer chunks of a smaller division, there has to be one chunk less
when there are fewer iterations than four per worker. -/
theorem native_spreads_run_once_iff (concurrency : HardwareConcurrency) (iterations : BitVec 32)
    (numWorkers : BitVec concurrency.bits) (some : iterations ≠ 0) (staffed : numWorkers ≠ 0) :
    (forall (submits : Nat -> Bool) (calls : List Chunk),
      ((Windows.spreadTheSweat iterations numWorkers submits).performed ++
        (Windows.spreadTheSweat iterations numWorkers submits).submitted).Perm calls ->
      calls.length = min iterations.toNat (4 * numWorkers.toNat) ∧
      (Partitions 0 iterations.toNat (calls.map Chunk.bounds) ↔
        min iterations.toNat (4 * numWorkers.toNat) ≤ 2 ^ concurrency.bits)) ∧
    (forall order : List Nat,
      (List.range (Apple.numberOfCalls iterations numWorkers).toNat).Perm order ->
      order.length = min iterations.toNat (4 * numWorkers.toNat) ∧
      (Partitions 0 iterations.toNat ((order.map (Apple.worker iterations numWorkers)).map Chunk.bounds) ↔
        4 * numWorkers.toNat ≤ iterations.toNat ∧ 4 * numWorkers.toNat ≤ 2 ^ concurrency.bits ∨
          iterations.toNat < 4 * numWorkers.toNat ∧ iterations.toNat < 2 ^ concurrency.bits)) := by
  have narrow : concurrency.bits ≤ 16 := by cases concurrency <;> decide
  have positive : 0 < iterations.toNat := Nat.pos_of_ne_zero fun zero => some (BitVec.eq_of_toNat_eq zero)
  have workers : 0 < 4 * numWorkers.toNat :=
    Nat.mul_pos (Nat.succ_pos 3) (Nat.pos_of_ne_zero fun zero => staffed (BitVec.eq_of_toNat_eq zero))
  constructor
  · intro submits calls order
    have same := (Windows.spreadTheSweat_perm some numWorkers submits).symm.trans order
    have count : (Windows.numChunks iterations numWorkers).toNat = min iterations.toNat (4 * numWorkers.toNat) :=
      toNat_numChunks narrow
    have used : 0 < (Windows.numChunks iterations numWorkers).toNat := count ▸ Nat.lt_min.mpr ⟨positive, workers⟩
    have enough : (Windows.numChunks iterations numWorkers).toNat ≤ iterations.toNat := count ▸ Nat.min_le_left _ _
    have divided := chunks_partition_iff concurrency.bits used positive
    rw [Nat.min_eq_left enough] at divided
    constructor
    · rw [← same.length_eq, ChunkedSpread.chunks, List.length_map, List.length_range, count]
    · rw [← count]
      constructor
      · intro partition
        exact (divided.mp (partition.perm (same.symm.map _))).1
      · intro fits
        exact (divided.mpr ⟨fits, Nat.lt_of_lt_of_le (Nat.mod_lt _ used) fits⟩).perm (same.map _)
  · intro order permuted
    have count : (Apple.numberOfCalls iterations numWorkers).toNat = min (4 * numWorkers.toNat) iterations.toNat :=
      toNat_numberOfCalls narrow
    have chunks : (fourPerWorker numWorkers).toNat = 4 * numWorkers.toNat := toNat_fourPerWorker narrow numWorkers
    have divided := chunks_partition_iff concurrency.bits (chunks ▸ workers) positive
    have same := permuted.map (Apple.worker iterations numWorkers)
    have listed : (List.range (Apple.numberOfCalls iterations numWorkers).toNat).map (Apple.worker iterations numWorkers) =
        (chunkedSpread iterations (fourPerWorker numWorkers) : ChunkedSpread concurrency.bits).chunks
          (min (fourPerWorker numWorkers).toNat iterations.toNat) := by
      rw [count, ← chunks]
      rfl
    rw [listed] at same
    rw [chunks] at divided
    constructor
    · rw [← permuted.length_eq, List.length_range, count, Nat.min_comm]
    · have moved : Partitions 0 iterations.toNat ((order.map (Apple.worker iterations numWorkers)).map Chunk.bounds) ↔
          min (4 * numWorkers.toNat) iterations.toNat ≤ 2 ^ concurrency.bits ∧
            iterations.toNat % (4 * numWorkers.toNat) < 2 ^ concurrency.bits := by
        rw [← divided, ← chunks]
        exact ⟨fun partition => partition.perm (same.symm.map _), fun partition => partition.perm (same.map _)⟩
      rw [moved]
      have remainder := Nat.mod_lt iterations.toNat workers
      by_cases few : iterations.toNat < 4 * numWorkers.toNat
      · rw [Nat.mod_eq_of_lt few]
        omega
      · omega

/-- Four workers and a hundred iterations: sixteen chunks. -/
theorem native_spreads_run_once_iff_four :
    Partitions 0 100 (((List.range 16).map (Apple.worker 100 (4 : BitVec 8))).map Chunk.bounds) := by
  have staffed : (4 : BitVec HardwareConcurrency.uint8.bits) ≠ 0 := by decide
  have both := native_spreads_run_once_iff .uint8 100 4 (by decide) staffed
  have calls := (both.2 (List.range 16) (.refl _)).2
  exact calls.mpr (Or.inl ⟨by decide, by decide⟩)

/-- With 128 workers and 8-bit indices, the chunks from the 256th on are the
first ones again. -/
theorem native_spreads_repeat_chunks :
    Not (Partitions 0 512 (((Windows.spreadTheSweat 512 (128 : BitVec 8) fun _ => true).performed ++
      (Windows.spreadTheSweat 512 (128 : BitVec 8) fun _ => true).submitted).map Chunk.bounds)) ∧
    Not (Partitions 0 512 (((List.range 512).map (Apple.worker 512 (128 : BitVec 8))).map Chunk.bounds)) := by
  constructor
  · intro partition
    have calls := Windows.spreadTheSweat_perm (by decide : (512 : BitVec 32) ≠ 0) (128 : BitVec 8) fun _ => true
    exact chunks_repeat (by decide) _ (partition.perm (calls.map _)).nodup
  · intro partition
    exact chunks_repeat (by decide) (chunkedSpread 512 (fourPerWorker (128 : BitVec 8))) partition.nodup

end Native
end Sweater
