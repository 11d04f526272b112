import Sweater.Spread.Chunked

namespace Sweater
namespace Spread

open Machine
open Threading

/-!
# `spread_chunked`

A spread whose iterations are the indices of chunks.  The shop may hand out the
indices one by one or several at once; consecutive indices are then glued
together again, from the start of the first chunk to the end of the last one.
-/

variable {bits : Nat}

/-- The `setup` of `spread_chunked`. -/
def spreadSetup (iterations : BitVec 32) (numberOfChunks : BitVec bits) : ChunkedSpread bits :=
  chunkedSpread iterations (numberOfChunks.setWidth 32)

/-- The `worker` of `spread_chunked`. -/
def chunkedWorker (setup : ChunkedSpread bits) (group : Chunk) : Chunk :=
  let chunkIndex := group.startIteration.setWidth bits
  let range := setup.chunkRange chunkIndex
  if group.endIteration ≠ group.startIteration + 1 then
    let lastChunkIndex := (group.endIteration - 1).setWidth bits
    ⟨range.startIteration, (setup.chunkRange lastChunkIndex).endIteration⟩
  else range

/-- The number of indices to be spread. -/
def chunksToSpread (numberOfChunks : BitVec bits) (iterations : BitVec 32) : BitVec 32 :=
  if iterations < numberOfChunks.setWidth 32 then iterations else numberOfChunks.setWidth 32

/-- `spread_chunked`; a shop is what it calls its worker with. -/
def spreadChunked (spreadTheSweat : BitVec 32 -> List Chunk) (numberOfChunks : BitVec bits)
    (iterations : BitVec 32) : List Chunk :=
  (spreadTheSweat (chunksToSpread numberOfChunks iterations)).map (chunkedWorker (spreadSetup iterations numberOfChunks))

/-- The number of iterations of a chunk. -/
def Chunk.length (chunk : Chunk) : Nat := chunk.endIteration.toNat - chunk.startIteration.toNat

section Gluing

variable {iterations : BitVec 32} {numberOfChunks : BitVec bits}

/-- A glued range begins with its first chunk and ends with its last one. -/
theorem chunkedWorker_bounds (wide : bits ≤ 32) {group : Chunk}
    (nonempty : group.startIteration.toNat < group.endIteration.toNat)
    (inside : group.endIteration.toNat ≤ numberOfChunks.toNat) :
    (chunkedWorker (spreadSetup iterations numberOfChunks) group).bounds =
      (cut 0 (iterations.toNat / numberOfChunks.toNat) (iterations.toNat % numberOfChunks.toNat)
          group.startIteration.toNat,
        cut 0 (iterations.toNat / numberOfChunks.toNat) (iterations.toNat % numberOfChunks.toNat)
          group.endIteration.toNat) := by
  have fits := numberOfChunks.isLt
  have count : (numberOfChunks.setWidth 32).toNat = numberOfChunks.toNat := toNat_setWidth_of_le wide _
  have index : forall word : BitVec 32, word.setWidth bits = BitVec.ofNat bits word.toNat := by
    intro word
    apply BitVec.eq_of_toNat_eq
    rw [BitVec.toNat_setWidth, BitVec.toNat_ofNat]
  have range : forall part, part < numberOfChunks.toNat ->
      ((spreadSetup iterations numberOfChunks).chunkRange (BitVec.ofNat bits part)).bounds =
        (cut 0 (iterations.toNat / numberOfChunks.toNat) (iterations.toNat % numberOfChunks.toNat) part,
          cut 0 (iterations.toNat / numberOfChunks.toNat) (iterations.toNat % numberOfChunks.toNat) (part + 1)) := by
    intro part below
    have remainder : iterations.toNat % numberOfChunks.toNat < 2 ^ bits :=
      Nat.lt_trans (Nat.mod_lt _ (Nat.lt_of_le_of_lt (Nat.zero_le part) below)) fits
    have bounds := @chunkRange_bounds bits iterations (numberOfChunks.setWidth 32) part
      (Nat.lt_trans below fits) (by rwa [count]) (by rwa [count])
    rwa [count] at bounds
  have first := range _ (Nat.lt_of_lt_of_le nonempty inside)
  rw [chunkedWorker, index group.startIteration]
  by_cases single : group.endIteration = group.startIteration + 1
  · have next : group.endIteration.toNat = group.startIteration.toNat + 1 := by
      rw [single, toNat_add_one]
      exact Nat.lt_of_le_of_lt nonempty group.endIteration.isLt
    rw [if_neg (fun glued => glued single), first, next]
  · have previous : (group.endIteration - 1).toNat + 1 = group.endIteration.toNat :=
      toNat_sub_one _ (Nat.lt_of_le_of_lt (Nat.zero_le _) nonempty)
    have last := range (group.endIteration - 1).toNat (by omega)
    rw [previous] at last
    have start := congrArg Prod.fst first
    have stop := congrArg Prod.snd last
    rw [if_pos single, index (group.endIteration - 1)]
    exact Prod.ext start stop

end Gluing

/-- For every division of the chunk indices into nonempty groups that the shop
hands out, the ranges given to the work are nonempty and cover every iteration
exactly once, and those of single chunks differ in length by one at most. -/
theorem spread_chunked_composes (concurrency : HardwareConcurrency) (iterations : BitVec 32)
    (numberOfChunks : BitVec concurrency.bits) (positive : numberOfChunks ≠ 0)
    (spreadTheSweat : BitVec 32 -> List Chunk)
    (grouping : Partitions 0 (min numberOfChunks.toNat iterations.toNat)
      ((spreadTheSweat (chunksToSpread numberOfChunks iterations)).map Chunk.bounds)) :
    Partitions 0 iterations.toNat ((spreadChunked spreadTheSweat numberOfChunks iterations).map Chunk.bounds) ∧
    forall first second : Chunk,
      first ∈ spreadTheSweat (chunksToSpread numberOfChunks iterations) ->
      second ∈ spreadTheSweat (chunksToSpread numberOfChunks iterations) ->
      first.endIteration = first.startIteration + 1 -> second.endIteration = second.startIteration + 1 ->
      (chunkedWorker (spreadSetup iterations numberOfChunks) first).length ≤
        (chunkedWorker (spreadSetup iterations numberOfChunks) second).length + 1 := by
  have wide : concurrency.bits ≤ 32 := by cases concurrency <;> decide
  have some : 0 < numberOfChunks.toNat := Nat.pos_of_ne_zero fun zero => positive (BitVec.eq_of_toNat_eq zero)
  have worker : forall group, group ∈ spreadTheSweat (chunksToSpread numberOfChunks iterations) ->
      (chunkedWorker (spreadSetup iterations numberOfChunks) group).bounds =
        (cut 0 (iterations.toNat / numberOfChunks.toNat) (iterations.toNat % numberOfChunks.toNat)
            group.startIteration.toNat,
          cut 0 (iterations.toNat / numberOfChunks.toNat) (iterations.toNat % numberOfChunks.toNat)
            group.endIteration.toNat) := by
    intro group member
    have listed : group.bounds ∈ (spreadTheSweat (chunksToSpread numberOfChunks iterations)).map Chunk.bounds :=
      List.mem_map_of_mem member
    exact chunkedWorker_bounds wide (grouping.nonempty _ listed)
      (Nat.le_trans (grouping.inside listed).2 (Nat.min_le_left _ _))
  constructor
  · have carried := grouping.map_cuts (Nat.zero_le _) (cut_strictMonoOn iterations.toNat numberOfChunks.toNat)
    rw [cut_zero, cut_min _ some, List.map_map] at carried
    have same : (spreadTheSweat (chunksToSpread numberOfChunks iterations)).map
        (Chunk.bounds ∘ chunkedWorker (spreadSetup iterations numberOfChunks)) =
        (spreadTheSweat (chunksToSpread numberOfChunks iterations)).map
          ((fun piece => (cut 0 (iterations.toNat / numberOfChunks.toNat) (iterations.toNat % numberOfChunks.toNat) piece.1,
            cut 0 (iterations.toNat / numberOfChunks.toNat) (iterations.toNat % numberOfChunks.toNat) piece.2)) ∘
              Chunk.bounds) :=
      List.map_congr_left worker
    rw [spreadChunked, List.map_map, same]
    exact carried
  · intro first second firstMember secondMember firstSingle secondSingle
    have step : forall group, group ∈ spreadTheSweat (chunksToSpread numberOfChunks iterations) ->
        group.endIteration = group.startIteration + 1 ->
        (chunkedWorker (spreadSetup iterations numberOfChunks) group).length =
          iterations.toNat / numberOfChunks.toNat +
            (if group.startIteration.toNat < iterations.toNat % numberOfChunks.toNat then 1 else 0) := by
      intro group member single
      have bounds := worker group member
      have nonempty := grouping.nonempty _ (List.mem_map_of_mem member)
      have next : group.endIteration.toNat = group.startIteration.toNat + 1 := by
        rw [single, toNat_add_one]
        exact Nat.lt_of_le_of_lt nonempty group.endIteration.isLt
      rw [next, cut_succ] at bounds
      have start := congrArg Prod.fst bounds
      have stop := congrArg Prod.snd bounds
      simp only [Chunk.bounds] at start stop
      rw [Chunk.length, start, stop, Nat.add_assoc, Nat.add_sub_cancel_left]
    rw [step first firstMember firstSingle, step second secondMember secondSingle]
    split <;> split <;> omega

/-- A hundred iterations in eight chunks, on a shop that hands out the first
index alone and the others together. -/
theorem spread_chunked_composes_eight :
    Partitions 0 100 ((spreadChunked (fun chunks => [⟨0, 1⟩, ⟨1, chunks⟩]) (8 : BitVec 8) 100).map Chunk.bounds) := by
  have positive : (8 : BitVec HardwareConcurrency.uint8.bits) ≠ 0 := by decide
  have tiles : Tiles 0 8 [(0, 1), (1, 8)] := .cons (by decide) (.single (by decide))
  exact (spread_chunked_composes .uint8 100 8 positive (fun chunks => [⟨0, 1⟩, ⟨1, chunks⟩]) tiles.partitions).1

end Spread
end Sweater
