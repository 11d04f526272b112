import Sweater.Spread.ExactTiling

namespace Sweater
namespace Spread

open Machine
open Threading

/-!
# `chunked_spread`

The division of an iteration range into a given number of chunks, which the
backends on top of a foreign thread pool use.  The arithmetic is that of the
code: 32-bit words, with the chunk index and the number of longer chunks in
`hardware_concurrency_t`.
-/

variable {bits : Nat}

structure ChunkedSpread (bits : Nat) where
  iterationsPerChunk : BitVec 32
  extraIterations : BitVec bits
  deriving DecidableEq, Repr

/-- The constructor of `chunked_spread`. -/
def chunkedSpread (iterations numberOfChunks : BitVec 32) : ChunkedSpread bits where
  iterationsPerChunk := iterations / numberOfChunks
  extraIterations := (iterations % numberOfChunks).setWidth bits

/-- `chunk_range` -/
def ChunkedSpread.chunkRange (setup : ChunkedSpread bits) (chunkIndex : BitVec bits) : Chunk :=
  let extraIters := if setup.extraIterations < chunkIndex then setup.extraIterations else chunkIndex
  let plainIters := (chunkIndex - extraIters).setWidth 32
  let startIteration := extraIters.setWidth 32 * (setup.iterationsPerChunk + 1) + plainIters * setup.iterationsPerChunk
  let stopIteration := startIteration + setup.iterationsPerChunk +
    extraIteration (decide (chunkIndex < setup.extraIterations))
  ⟨startIteration, stopIteration⟩

/-- All chunks, in their order. -/
def ChunkedSpread.chunks (setup : ChunkedSpread bits) (numberOfChunks : Nat) : List Chunk :=
  (List.range numberOfChunks).map fun index => setup.chunkRange (BitVec.ofNat bits index)

section Ranges

variable {iterations numberOfChunks : BitVec 32} {index : Nat}

omit bits in
/-- A sum of iterations, as it is without wrapping. -/
theorem cut_eq (share extras index : Nat) :
    cut 0 share extras index = min index extras * (share + 1) + (index - min index extras) * share := by
  have split : min index extras * share + (index - min index extras) * share = index * share := by
    rw [← Nat.add_mul, Nat.add_sub_cancel' (Nat.min_le_left _ _)]
  rw [cut, Nat.mul_add_one]
  omega

/-- The parts of a division make up the whole. -/
theorem cut_all (iterations : Nat) {parts : Nat} (positive : 0 < parts) :
    cut 0 (iterations / parts) (iterations % parts) parts = iterations := by
  rw [cut_last _ _ _ (Nat.le_of_lt (Nat.mod_lt _ positive)), Nat.zero_add]
  exact Nat.div_add_mod _ _

theorem setWidth_ofNat {value : Nat} (fits : value < 2 ^ bits) :
    (BitVec.ofNat bits value).setWidth 32 = BitVec.ofNat 32 value := by
  apply BitVec.eq_of_toNat_eq
  rw [BitVec.toNat_setWidth, BitVec.toNat_ofNat, BitVec.toNat_ofNat, Nat.mod_eq_of_lt fits]

/-- The words are those of the integers that are meant. -/
theorem chunkRange_ofNat {share extras : Nat} (indexFits : index < 2 ^ bits) (extrasFit : extras < 2 ^ bits) :
    ChunkedSpread.chunkRange ⟨BitVec.ofNat 32 share, BitVec.ofNat bits extras⟩ (BitVec.ofNat bits index) =
      ⟨BitVec.ofNat 32 (cut 0 share extras index), BitVec.ofNat 32 (cut 0 share extras (index + 1))⟩ := by
  have less : forall first second, first < 2 ^ bits -> second < 2 ^ bits ->
      (BitVec.ofNat bits first < BitVec.ofNat bits second ↔ first < second) := by
    intro first second firstFits secondFits
    rw [BitVec.lt_def, BitVec.toNat_ofNat, BitVec.toNat_ofNat, Nat.mod_eq_of_lt firstFits, Nat.mod_eq_of_lt secondFits]
  have extraIters : (if BitVec.ofNat bits extras < BitVec.ofNat bits index then BitVec.ofNat bits extras
      else BitVec.ofNat bits index) = BitVec.ofNat bits (min index extras) := by
    by_cases later : extras < index
    · rw [if_pos ((less _ _ extrasFit indexFits).mpr later), Nat.min_eq_right (Nat.le_of_lt later)]
    · rw [if_neg (fun word => later ((less _ _ extrasFit indexFits).mp word)), Nat.min_eq_left (Nat.not_lt.mp later)]
  have minimum : min index extras < 2 ^ bits := Nat.lt_of_le_of_lt (Nat.min_le_left _ _) indexFits
  have plainIters : BitVec.ofNat bits index - BitVec.ofNat bits (min index extras) =
      BitVec.ofNat bits (index - min index extras) :=
    BitVec.ofNat_sub_ofNat_of_le _ _ minimum (Nat.min_le_left _ _)
  have start : (BitVec.ofNat bits (min index extras)).setWidth 32 * (BitVec.ofNat 32 share + 1) +
      (BitVec.ofNat bits (index - min index extras)).setWidth 32 * BitVec.ofNat 32 share =
        BitVec.ofNat 32 (cut 0 share extras index) := by
    rw [setWidth_ofNat minimum, setWidth_ofNat (Nat.lt_of_le_of_lt (Nat.sub_le _ _) indexFits), cut_eq]
    simp only [BitVec.ofNat_add, BitVec.ofNat_mul]
    rfl
  have extra : extraIteration (decide (BitVec.ofNat bits index < BitVec.ofNat bits extras)) =
      BitVec.ofNat 32 (if index < extras then 1 else 0) := by
    by_cases longer : index < extras
    · rw [decide_eq_true ((less _ _ indexFits extrasFit).mpr longer), if_pos longer]
      rfl
    · rw [decide_eq_false (fun word => longer ((less _ _ indexFits extrasFit).mp word)), if_neg longer]
      rfl
  simp only [ChunkedSpread.chunkRange, extraIters, plainIters, start, extra]
  rw [cut_succ, BitVec.ofNat_add, BitVec.ofNat_add]

theorem chunkedSpread_eq (iterations numberOfChunks : BitVec 32) :
    (chunkedSpread iterations numberOfChunks : ChunkedSpread bits) =
      ⟨BitVec.ofNat 32 (iterations.toNat / numberOfChunks.toNat),
        BitVec.ofNat bits (iterations.toNat % numberOfChunks.toNat)⟩ := by
  rw [chunkedSpread]
  congr 1
  · apply BitVec.eq_of_toNat_eq
    rw [BitVec.toNat_udiv, BitVec.toNat_ofNat,
      Nat.mod_eq_of_lt (Nat.lt_of_le_of_lt (Nat.div_le_self _ _) iterations.isLt)]
  · apply BitVec.eq_of_toNat_eq
    rw [BitVec.toNat_setWidth, BitVec.toNat_umod, BitVec.toNat_ofNat]

/-- The longer chunks come first. -/
theorem chunkRange_bounds (indexFits : index < 2 ^ bits) (extrasFit : iterations.toNat % numberOfChunks.toNat < 2 ^ bits)
    (inside : index < numberOfChunks.toNat) :
    ((chunkedSpread iterations numberOfChunks).chunkRange (BitVec.ofNat bits index)).bounds =
      (cut 0 (iterations.toNat / numberOfChunks.toNat) (iterations.toNat % numberOfChunks.toNat) index,
        cut 0 (iterations.toNat / numberOfChunks.toNat) (iterations.toNat % numberOfChunks.toNat) (index + 1)) := by
  have last := cut_all iterations.toNat (Nat.lt_of_le_of_lt (Nat.zero_le index) inside)
  have fits : forall part, part ≤ numberOfChunks.toNat ->
      cut 0 (iterations.toNat / numberOfChunks.toNat) (iterations.toNat % numberOfChunks.toNat) part < 2 ^ 32 := by
    intro part below
    have bounded := cut_le_cut 0 (iterations.toNat / numberOfChunks.toNat)
      (iterations.toNat % numberOfChunks.toNat) part below
    rw [last] at bounded
    exact Nat.lt_of_le_of_lt bounded iterations.isLt
  rw [chunkedSpread_eq, chunkRange_ofNat indexFits extrasFit, Chunk.bounds,
    BitVec.toNat_ofNat, BitVec.toNat_ofNat, Nat.mod_eq_of_lt (fits _ (Nat.le_of_lt inside)),
    Nat.mod_eq_of_lt (fits _ inside)]

omit bits in
/-- As long as there are iterations, the next chunk has one. -/
theorem cut_strictMonoOn (iterations parts : Nat) :
    StrictMonoOn (cut 0 (iterations / parts) (iterations % parts)) (Set.Icc 0 (min parts iterations)) := by
  have next : forall part, part < min parts iterations ->
      cut 0 (iterations / parts) (iterations % parts) part <
        cut 0 (iterations / parts) (iterations % parts) (part + 1) := by
    intro part below
    rw [cut_succ]
    by_cases few : iterations < parts
    · rw [Nat.mod_eq_of_lt few, Nat.div_eq_of_lt few, if_pos (Nat.lt_of_lt_of_le below (Nat.min_le_right _ _))]
      omega
    · have share : 0 < iterations / parts :=
        Nat.div_pos (Nat.not_lt.mp few) (Nat.lt_of_le_of_lt (Nat.zero_le part) (Nat.lt_of_lt_of_le below (Nat.min_le_left _ _)))
      omega
  intro first _ second inside less
  have reached := next first (Nat.lt_of_lt_of_le less inside.2)
  exact Nat.lt_of_lt_of_le reached (cut_le_cut _ _ _ _ (Nat.succ_le_of_lt less))

omit bits in
/-- Chunks beyond the iterations are empty. -/
theorem cut_min (iterations : Nat) {parts : Nat} (positive : 0 < parts) :
    cut 0 (iterations / parts) (iterations % parts) (min parts iterations) = iterations := by
  by_cases few : iterations < parts
  · rw [Nat.min_eq_right (Nat.le_of_lt few), Nat.div_eq_of_lt few, Nat.mod_eq_of_lt few, cut]
    omega
  · rw [Nat.min_eq_left (Nat.not_lt.mp few), cut_all _ positive]

/-- The chunks that have iterations tile the range. -/
theorem chunks_tile (positive : 0 < numberOfChunks.toNat)
    (indicesFit : min numberOfChunks.toNat iterations.toNat ≤ 2 ^ bits)
    (extrasFit : iterations.toNat % numberOfChunks.toNat < 2 ^ bits) :
    Tiles 0 iterations.toNat
      (((chunkedSpread iterations numberOfChunks : ChunkedSpread bits).chunks
        (min numberOfChunks.toNat iterations.toNat)).map Chunk.bounds) := by
  have cuts := (Tiles.units (min numberOfChunks.toNat iterations.toNat)).map_cuts
    (cut_strictMonoOn iterations.toNat numberOfChunks.toNat)
  rw [cut_zero, cut_min _ positive, List.map_map] at cuts
  rw [ChunkedSpread.chunks, List.map_map]
  have same : (List.range (min numberOfChunks.toNat iterations.toNat)).map
      (Chunk.bounds ∘ fun index => (chunkedSpread iterations numberOfChunks).chunkRange (BitVec.ofNat bits index)) =
      (List.range (min numberOfChunks.toNat iterations.toNat)).map (fun part =>
        (cut 0 (iterations.toNat / numberOfChunks.toNat) (iterations.toNat % numberOfChunks.toNat) part,
          cut 0 (iterations.toNat / numberOfChunks.toNat) (iterations.toNat % numberOfChunks.toNat) (part + 1))) := by
    apply List.map_congr_left
    intro part member
    have below := List.mem_range.mp member
    exact chunkRange_bounds (Nat.lt_of_lt_of_le below indicesFit) extrasFit
      (Nat.lt_of_lt_of_le below (Nat.min_le_left _ _))
  rw [same]
  exact cuts

/-- Chunk indices beyond the width start again at the front. -/
theorem chunks_repeat {count : Nat} (many : 2 ^ bits < count) (setup : ChunkedSpread bits) :
    Not ((setup.chunks count).map Chunk.bounds).Nodup := by
  intro nodup
  have first : 0 < ((setup.chunks count).map Chunk.bounds).length := by
    rw [List.length_map, ChunkedSpread.chunks, List.length_map, List.length_range]
    exact Nat.lt_of_le_of_lt (Nat.zero_le _) many
  have again : 2 ^ bits < ((setup.chunks count).map Chunk.bounds).length := by
    rwa [List.length_map, ChunkedSpread.chunks, List.length_map, List.length_range]
  have same : ((setup.chunks count).map Chunk.bounds)[0] = ((setup.chunks count).map Chunk.bounds)[2 ^ bits] := by
    simp only [ChunkedSpread.chunks, List.getElem_map, List.getElem_range]
    congr 2
    apply BitVec.eq_of_toNat_eq
    rw [BitVec.toNat_ofNat, BitVec.toNat_ofNat, Nat.zero_mod, Nat.mod_self]
  have equal := (List.Nodup.getElem_inj_iff nodup).mp same
  exact absurd equal.symm (Nat.two_pow_pos bits).ne'

end Ranges

end Spread
end Sweater
