import Sweater.Spread.Plan
import Sweater.Machine.Intervals

namespace Sweater
namespace Spread

open Machine
open Machine.Checked
open Threading

/-!
# Every spread tiles its iteration range

The parts of a spread begin at `cut`s: each part has `iterations_per_part`
iterations, and the first few have one more.  Both dispatch loops walk along
the cuts, and the inner loop divides one part further.  Each loop has one
invariant, which says where it is and that the chunks made so far tile the
range up to there.
-/

variable {bits : Nat}

/-- The iterations of a chunk. -/
def Chunk.range (chunk : Chunk) : Set Nat :=
  Set.Ico chunk.startIteration.toNat chunk.endIteration.toNat

def Chunk.contains (iteration : Nat) (chunk : Chunk) : Bool :=
  decide (chunk.startIteration.toNat ≤ iteration ∧ iteration < chunk.endIteration.toNat)

def Chunk.bounds (chunk : Chunk) : Nat × Nat :=
  (chunk.startIteration.toNat, chunk.endIteration.toNat)

/-- Where a part begins. -/
def cut (base share extras part : Nat) : Nat := base + part * share + min part extras

section Cuts

variable (base share extras part : Nat)

theorem cut_zero : cut base share extras 0 = base := by
  simp [cut]

theorem cut_succ :
    cut base share extras (part + 1) = cut base share extras part + share + if part < extras then 1 else 0 := by
  unfold cut
  rw [Nat.succ_mul]
  by_cases extra : part < extras
  · rw [if_pos extra]
    omega
  · rw [if_neg extra]
    omega

theorem cut_le_cut {later : Nat} (order : part ≤ later) :
    cut base share extras part ≤ cut base share extras later := by
  have scaled := Nat.mul_le_mul_right share order
  unfold cut
  omega

theorem cut_last {parts : Nat} (few : extras ≤ parts) :
    cut base share extras parts = base + parts * share + extras := by
  rw [cut, Nat.min_eq_right few]

end Cuts

theorem toNat_extraIteration (extra : Bool) :
    (extraIteration extra).toNat = if extra then 1 else 0 := by
  cases extra <;> rfl

theorem fuel_eq : fuel = 2 ^ 32 + 1 := rfl

/-! ## The slices of one part -/

/-- After `numberOfSlices` slices, before the remainder has been given out or
after it. -/
structure Slicing.Invariant (sliceDiv sliceIter firstExtra start : Nat) (state : Slicing bits) : Prop where
  position : state.iter.toNat + state.firstSliceExtraIter.toNat =
    start + firstExtra + state.numberOfSlices.toNat * sliceIter
  given : 0 < state.numberOfSlices.toNat -> state.firstSliceExtraIter.toNat = 0
  few : state.numberOfSlices.toNat ≤ sliceDiv
  counted : state.slices.length = state.numberOfSlices.toNat
  tiles : Tiles start state.iter.toNat (state.slices.map Chunk.bounds)

theorem slice_returns (sliceDiv : BitVec 8) (sliceIter : BitVec 32) {firstExtra start stop : Nat}
    (small : sliceDiv.toNat < 2 ^ bits) (some : 0 < sliceDiv.toNat)
    (nonempty : 0 < sliceIter.toNat) (bound : stop < 2 ^ 32)
    (length : stop = start + firstExtra + sliceDiv.toNat * sliceIter.toNat) (state : Slicing bits)
    (holds : state.Invariant sliceDiv.toNat sliceIter.toNat firstExtra start)
    (more : state.iter.toNat < stop) :
    Returns (slice sliceDiv sliceIter state) (fun next =>
      next.Invariant sliceDiv.toNat sliceIter.toNat firstExtra start ∧
        sliceDiv.toNat - next.numberOfSlices.toNat < sliceDiv.toNat - state.numberOfSlices.toNat) := by
  have position := holds.position
  have few : state.numberOfSlices.toNat < sliceDiv.toNat := by
    apply Nat.lt_of_le_of_ne holds.few
    intro all
    rw [all] at position
    have given := holds.given (by omega)
    omega
  have ahead : (state.numberOfSlices.toNat + 1) * sliceIter.toNat ≤ sliceDiv.toNat * sliceIter.toNat :=
    Nat.mul_le_mul_right _ few
  rw [Nat.succ_mul] at ahead
  apply returns_bind (returns_assume few)
  intro _ _
  apply returns_bind (returns_increment state.numberOfSlices (by omega))
  intro numberOfSlices counted
  apply returns_bind (returns_add state.iter state.firstSliceExtraIter (by omega))
  intro withExtra withExtraIs
  apply returns_bind (returns_add withExtra sliceIter (by omega))
  intro endIteration endIs
  have forward : state.iter < endIteration := BitVec.lt_def.mpr (by omega)
  apply returns_bind (returns_assume forward)
  intro _ _
  apply returns_pure
  have reached : endIteration.toNat = start + firstExtra + numberOfSlices.toNat * sliceIter.toNat := by
    rw [counted, Nat.succ_mul]
    omega
  refine ⟨⟨?_, fun _ => rfl, ?_, ?_, ?_⟩, ?_⟩
  · exact reached
  · change numberOfSlices.toNat ≤ _
    omega
  · change (state.slices ++ [_]).length = numberOfSlices.toNat
    rw [List.length_append, holds.counted, counted]
    rfl
  · change Tiles start endIteration.toNat ((state.slices ++ [_]).map Chunk.bounds)
    rw [List.map_append]
    exact holds.tiles.concat (BitVec.lt_def.mp forward)
  · change sliceDiv.toNat - numberOfSlices.toNat < _
    omega

/-- A part is cut into exactly `slice_div` slices. -/
theorem slicePart_returns (sliceDiv : BitVec 8) (startIteration endIteration sliceIter firstExtra : BitVec 32)
    (small : sliceDiv.toNat < 2 ^ bits) (some : 0 < sliceDiv.toNat) (nonempty : 0 < sliceIter.toNat)
    (length : endIteration.toNat =
      startIteration.toNat + firstExtra.toNat + sliceDiv.toNat * sliceIter.toNat) :
    Returns (slicePart sliceDiv startIteration endIteration sliceIter firstExtra : Checked (Slicing bits))
      (fun sliced => sliced.numberOfSlices.toNat = sliceDiv.toNat ∧
        sliced.slices.length = sliceDiv.toNat ∧
        Tiles startIteration.toNat endIteration.toNat (sliced.slices.map Chunk.bounds)) := by
  have start : Slicing.Invariant sliceDiv.toNat sliceIter.toNat firstExtra.toNat startIteration.toNat
      ({ iter := startIteration, firstSliceExtraIter := firstExtra, numberOfSlices := 0,
         slices := [] } : Slicing bits) := by
    constructor
    · simp
    · simp
    · simp
    · simp
    · exact .nil _
  have whole := returns_loop (fun state : Slicing bits => decide (state.iter < endIteration))
    (fun state : Slicing bits =>
      state.Invariant sliceDiv.toNat sliceIter.toNat firstExtra.toNat startIteration.toNat)
    (fun state => sliceDiv.toNat - state.numberOfSlices.toNat)
    (fun state holds more => slice_returns sliceDiv sliceIter small some nonempty endIteration.isLt length state
      holds (BitVec.lt_def.mp (of_decide_eq_true more)))
    fuel _ start (by
      have bound := sliceDiv.isLt
      rw [fuel_eq]
      omega)
  apply Returns.mono whole
  rintro final ⟨holds, done⟩
  have stopped : endIteration.toNat ≤ final.iter.toNat := by
    have past := of_decide_eq_false done
    rw [BitVec.lt_def] at past
    omega
  have position := holds.position
  have all : final.numberOfSlices.toNat = sliceDiv.toNat := by
    apply Nat.le_antisymm holds.few
    by_contra fewer
    have ahead : (final.numberOfSlices.toNat + 1) * sliceIter.toNat ≤ sliceDiv.toNat * sliceIter.toNat :=
      Nat.mul_le_mul_right _ (by omega)
    rw [Nat.succ_mul] at ahead
    omega
  have here : final.iter.toNat = endIteration.toNat := by
    have given := holds.given (by omega)
    rw [all] at position
    omega
  exact ⟨all, holds.counted.trans all, here ▸ holds.tiles⟩

/-! ## Parts for the workers -/

/-- All cuts are words, and no part is empty. -/
structure Room (base parts : Nat) (iterationsPerPart partsWithExtraIteration : BitVec 32) : Prop where
  fits : cut base iterationsPerPart.toNat partsWithExtraIteration.toNat parts < 2 ^ 32
  nonempty : 0 < iterationsPerPart.toNat

/-- The end of a part, as both loops compute it. -/
theorem returns_partEnd {base parts : Nat} {iterationsPerPart partsWithExtraIteration : BitVec 32}
    (fits : cut base iterationsPerPart.toNat partsWithExtraIteration.toNat parts < 2 ^ 32)
    {part : Nat} (inside : part < parts) (iteration : BitVec 32)
    (here : iteration.toNat = cut base iterationsPerPart.toNat partsWithExtraIteration.toNat part)
    (extra : Bool) (extraIs : extra = decide (part < partsWithExtraIteration.toNat)) :
    Returns (add iteration iterationsPerPart) (fun partIterations =>
      Returns (add partIterations (extraIteration extra)) (fun endIteration =>
        endIteration.toNat = cut base iterationsPerPart.toNat partsWithExtraIteration.toNat (part + 1) ∧
        endIteration.toNat = iteration.toNat + (iterationsPerPart.toNat + (extraIteration extra).toNat))) := by
  have later : part + 1 ≤ parts := inside
  have bound := cut_le_cut base iterationsPerPart.toNat partsWithExtraIteration.toNat _ later
  have value := toNat_extraIteration extra
  have next := cut_succ base iterationsPerPart.toNat partsWithExtraIteration.toNat part
  have same : (if part < partsWithExtraIteration.toNat then 1 else 0) = (extraIteration extra).toNat := by
    rw [value, extraIs]
    simp only [decide_eq_true_eq]
  rw [same] at next
  apply Returns.mono (returns_add iteration iterationsPerPart (by omega))
  intro partIterations partIs
  apply Returns.mono (returns_add partIterations (extraIteration extra) (by omega))
  intro endIteration endIs
  constructor <;> omega

/-- The slices of a part that is no shorter than `slice_div`. -/
theorem slices_returns (sliceDiv : BitVec 8) (startIteration endIteration length : BitVec 32)
    (small : sliceDiv.toNat < 2 ^ bits) (some : 0 < sliceDiv.toNat) (fine : sliceDiv.toNat ≤ length.toNat)
    (whole : endIteration.toNat = startIteration.toNat + length.toNat) :
    Returns (div length (sliceDiv.setWidth 32)) (fun sliceIter =>
      Returns (rem length (sliceDiv.setWidth 32)) (fun firstExtra =>
        Returns (slicePart sliceDiv startIteration endIteration sliceIter firstExtra : Checked (Slicing bits))
          (fun sliced => sliced.numberOfSlices ≠ 0 ∧ sliced.slices.length = sliceDiv.toNat ∧
            Tiles startIteration.toNat endIteration.toNat (sliced.slices.map Chunk.bounds)))) := by
  have divisor : (sliceDiv.setWidth 32).toNat = sliceDiv.toNat := Machine.toNat_setWidth_of_le (by decide) _
  apply Returns.mono (returns_div length (sliceDiv.setWidth 32) (by omega))
  intro sliceIter sliceIterIs
  apply Returns.mono (returns_rem length (sliceDiv.setWidth 32) (by omega))
  intro firstExtra firstExtraIs
  rw [divisor] at sliceIterIs firstExtraIs
  have parted := Nat.div_add_mod length.toNat sliceDiv.toNat
  have sliceSome : 0 < sliceIter.toNat := by
    rw [sliceIterIs]
    exact Nat.div_pos fine some
  apply Returns.mono (slicePart_returns sliceDiv startIteration endIteration sliceIter firstExtra small some
    sliceSome (by rw [sliceIterIs, firstExtraIs]; omega))
  rintro sliced ⟨numberIs, lengthAll, tiles⟩
  refine ⟨?_, lengthAll, tiles⟩
  intro none
  rw [none] at numberIs
  simp at numberIs
  omega

/-- The values that the loops over the parts do not change, with what makes
the cuts end at the last iteration. -/
structure Layout (base parts : Nat) (iterationsPerPart partsWithExtraIteration iterations : BitVec 32) :
    Prop where
  whole : base + parts * iterationsPerPart.toNat + partsWithExtraIteration.toNat = iterations.toNat
  few : partsWithExtraIteration.toNat ≤ parts
  nonempty : 0 < iterationsPerPart.toNat

namespace Layout

variable {base parts : Nat} {iterationsPerPart partsWithExtraIteration iterations : BitVec 32}

theorem last (layout : Layout base parts iterationsPerPart partsWithExtraIteration iterations) :
    cut base iterationsPerPart.toNat partsWithExtraIteration.toNat parts = iterations.toNat := by
  rw [cut_last _ _ _ layout.few, layout.whole]

theorem cut_succ_le (layout : Layout base parts iterationsPerPart partsWithExtraIteration iterations)
    {part : Nat} (inside : part < parts) :
    cut base iterationsPerPart.toNat partsWithExtraIteration.toNat (part + 1) ≤ iterations.toNat := by
  rw [← layout.last]
  exact cut_le_cut _ _ _ _ inside

theorem room (layout : Layout base parts iterationsPerPart partsWithExtraIteration iterations) :
    Room base parts iterationsPerPart partsWithExtraIteration :=
  ⟨layout.last ▸ iterations.isLt, layout.nonempty⟩

end Layout

structure Dispatching.Invariant (sliceDiv base parts : Nat) (iterationsPerPart partsWithExtraIteration : BitVec 32)
    (state : Dispatching bits) : Prop where
  inside : state.workPart.toNat ≤ parts
  worker : state.workerIndex.toNat = state.workPart.toNat
  position : state.iteration.toNat =
    cut base iterationsPerPart.toNat partsWithExtraIteration.toNat state.workPart.toNat
  tiles : Tiles base state.iteration.toNat ((state.dispatches.flatMap Dispatch.slices).map Chunk.bounds)
  members : forall dispatch, dispatch ∈ state.dispatches ->
    dispatch.workerIndex.toNat < parts ∧ dispatch.slices.length = sliceDiv
  everybody : forall part, part < state.workPart.toNat ->
    Exists fun dispatch => dispatch ∈ state.dispatches ∧ dispatch.workerIndex.toNat = part

theorem dispatchPart_returns (sliceDiv : BitVec 8) {base parts : Nat}
    {iterationsPerPart partsWithExtraIteration iterations : BitVec 32}
    (layout : Layout base parts iterationsPerPart partsWithExtraIteration iterations)
    (small : sliceDiv.toNat < 2 ^ bits) (some : 0 < sliceDiv.toNat)
    (fine : sliceDiv.toNat ≤ iterationsPerPart.toNat) (workers : parts < 2 ^ bits) (counted : parts < 2 ^ 32)
    (state : Dispatching bits)
    (holds : state.Invariant sliceDiv.toNat base parts iterationsPerPart partsWithExtraIteration)
    (more : state.workPart.toNat < parts) :
    Returns (dispatchPart sliceDiv iterationsPerPart partsWithExtraIteration state) (fun next =>
      next.Invariant sliceDiv.toNat base parts iterationsPerPart partsWithExtraIteration ∧
        parts - next.workPart.toNat < parts - state.workPart.toNat) := by
  have worker := holds.worker
  unfold dispatchPart
  apply returns_bind (returns_partEnd layout.room.fits more state.iteration holds.position
    (decide (state.workPart < partsWithExtraIteration)) (by simp only [BitVec.lt_def]))
  intro partIterations ending
  apply returns_bind ending
  intro endIteration ⟨endAtCut, endIs⟩
  have limit := endIteration.isLt
  apply returns_bind (returns_add iterationsPerPart _ (by omega))
  intro length lengthIs
  apply returns_bind (slices_returns sliceDiv state.iteration endIteration length small some (by omega) (by omega))
  intro sliceIter remainder
  apply returns_bind remainder
  intro firstExtra slicing
  apply returns_bind slicing
  rintro sliced ⟨counting, lengthAll, tiles⟩
  apply returns_bind (returns_assume counting)
  intro _ _
  apply returns_bind (returns_increment state.workerIndex (by omega))
  intro workerIndex workerIs
  apply returns_bind (returns_increment state.workPart (by omega))
  intro workPart workPartIs
  apply returns_pure
  refine ⟨⟨?_, ?_, ?_, ?_, ?_, ?_⟩, ?_⟩
  · change workPart.toNat ≤ parts
    omega
  · change workerIndex.toNat = workPart.toNat
    omega
  · change endIteration.toNat = cut _ _ _ workPart.toNat
    rw [workPartIs]
    exact endAtCut
  · change Tiles base endIteration.toNat (((state.dispatches ++ [_]).flatMap Dispatch.slices).map Chunk.bounds)
    rw [List.flatMap_append, List.map_append, List.flatMap_singleton]
    exact holds.tiles.append tiles
  · intro dispatch member
    rcases List.mem_append.mp member with earlier | last
    · exact holds.members dispatch earlier
    · rw [List.mem_singleton.mp last]
      exact ⟨by change state.workerIndex.toNat < parts; omega, lengthAll⟩
  · intro part below
    change part < workPart.toNat at below
    by_cases earlier : part < state.workPart.toNat
    · rcases holds.everybody part earlier with ⟨dispatch, member, same⟩
      exact ⟨dispatch, List.mem_append_left _ member, same⟩
    · refine ⟨_, List.mem_append_right _ (List.mem_singleton_self _), ?_⟩
      change state.workerIndex.toNat = part
      omega
  · change parts - workPart.toNat < _
    omega

theorem sliceDivision_min (stealingDivision : BitVec 8) (iterationsPerPart : BitVec 32)
    (nonempty : 0 < iterationsPerPart.toNat) :
    Returns (sliceDivision stealingDivision iterationsPerPart) (fun sliceDiv =>
      sliceDiv.toNat = min stealingDivision.toNat iterationsPerPart.toNat) := by
  have limit := stealingDivision.isLt
  have value : (BitVec.ofNat 32 (min stealingDivision.toNat (max iterationsPerPart.toNat 1))).toNat =
      min stealingDivision.toNat (max iterationsPerPart.toNat 1) := by
    rw [BitVec.toNat_ofNat, Nat.mod_eq_of_lt (by omega)]
  apply Returns.mono (returns_narrow 8 _ (by omega))
  intro sliceDiv sliceDivIs
  rw [value] at sliceDivIs
  omega

/-- `slice_div` is positive, bounded by the division and no larger than a part. -/
theorem sliceDivision_returns (stealingDivision : BitVec 8) (iterationsPerPart : BitVec 32)
    (low : stealingDivisionMin ≤ stealingDivision.toNat) (nonempty : 0 < iterationsPerPart.toNat) :
    Returns (sliceDivision stealingDivision iterationsPerPart) (fun sliceDiv =>
      0 < sliceDiv.toNat ∧ sliceDiv.toNat ≤ stealingDivision.toNat ∧
        sliceDiv.toNat ≤ iterationsPerPart.toNat) := by
  have positive : 0 < stealingDivision.toNat := by
    unfold stealingDivisionMin at low
    omega
  apply Returns.mono (sliceDivision_min stealingDivision iterationsPerPart nonempty)
  intro sliceDiv sliceDivIs
  refine ⟨?_, ?_, ?_⟩ <;> omega

theorem dispatchWorkers_returns (stealingDivision : BitVec 8) (iteration : BitVec 32) (maxParts : BitVec bits)
    {iterationsPerPart partsWithExtraIteration iterations : BitVec 32} (wide : 8 ≤ bits) (narrow : bits ≤ 32)
    (low : stealingDivisionMin ≤ stealingDivision.toNat)
    (high : stealingDivision.toNat ≤ stealingDivisionMax)
    (layout : Layout iteration.toNat maxParts.toNat iterationsPerPart partsWithExtraIteration iterations) :
    Returns (dispatchWorkers stealingDivision 0 iteration maxParts iterationsPerPart partsWithExtraIteration
      iterations) (fun result => result.2.iteration = iterations ∧ result.1.toNat ≤ stealingDivisionMax ∧
        Tiles iteration.toNat iterations.toNat
          ((result.2.dispatches.flatMap Dispatch.slices).map Chunk.bounds) ∧
        (forall dispatch, dispatch ∈ result.2.dispatches ->
          dispatch.workerIndex.toNat < maxParts.toNat ∧ dispatch.slices.length = result.1.toNat) ∧
        forall part, part < maxParts.toNat -> Exists fun dispatch =>
          dispatch ∈ result.2.dispatches ∧ dispatch.workerIndex.toNat = part ∧ dispatch.slices ≠ []) := by
  have octets : 2 ^ 8 ≤ 2 ^ bits := Nat.pow_le_pow_right (by decide) wide
  have words : 2 ^ bits ≤ 2 ^ 32 := Nat.pow_le_pow_right (by decide) narrow
  have workers := maxParts.isLt
  unfold dispatchWorkers
  apply returns_bind (returns_assume low)
  intro _ _
  apply returns_bind (returns_assume high)
  intro _ _
  apply returns_bind (sliceDivision_returns stealingDivision iterationsPerPart low layout.nonempty)
  rintro sliceDiv ⟨positive, bounded, fine⟩
  have octet := sliceDiv.isLt
  have start : Dispatching.Invariant sliceDiv.toNat iteration.toNat maxParts.toNat iterationsPerPart
      partsWithExtraIteration
      ({ workPart := 0, workerIndex := 0, iteration := iteration, dispatches := [] } : Dispatching bits) := by
    constructor
    · simp
    · simp
    · simp [cut_zero]
    · exact .nil _
    · exact nofun
    · exact nofun
  have loops := returns_loop
    (fun state : Dispatching bits =>
      decide (state.workPart.toNat < maxParts.toNat ∧ state.iteration ≠ iterations))
    (fun state : Dispatching bits => state.Invariant sliceDiv.toNat iteration.toNat maxParts.toNat
      iterationsPerPart partsWithExtraIteration)
    (fun state => maxParts.toNat - state.workPart.toNat)
    (fun state holds more => dispatchPart_returns sliceDiv layout (by omega) positive fine workers
      (by omega) state holds (of_decide_eq_true more).1)
    fuel _ start (by rw [fuel_eq]; omega)
  apply returns_bind loops
  rintro final ⟨holds, done⟩
  apply returns_pure
  have stopped := of_decide_eq_false done
  -- Either the parts or the iterations have run out, which is the same thing.
  have finished : final.iteration = iterations := by
    by_contra unfinished
    have all : final.workPart.toNat = maxParts.toNat := by
      apply Nat.le_antisymm holds.inside
      by_contra fewer
      exact stopped ⟨by omega, unfinished⟩
    apply unfinished
    apply BitVec.eq_of_toNat_eq
    rw [holds.position, all, layout.last]
  have complete : final.workPart.toNat = maxParts.toNat := by
    apply Nat.le_antisymm holds.inside
    by_contra fewer
    have ahead := layout.cut_succ_le (Nat.not_le.mp fewer)
    have nonempty := layout.nonempty
    rw [cut_succ, ← holds.position, finished] at ahead
    omega
  unfold stealingDivisionMax at high
  refine ⟨finished, ?_, finished ▸ holds.tiles, holds.members, ?_⟩
  · change sliceDiv.toNat ≤ 16
    omega
  · intro part below
    rcases holds.everybody part (complete ▸ below) with ⟨dispatch, member, same⟩
    refine ⟨dispatch, member, same, List.ne_nil_of_length_pos ?_⟩
    rw [(holds.members dispatch member).2]
    exact positive

/-! ## Parts for the shared queue -/

structure Filling.Invariant (base parts : Nat) (iterationsPerPart partsWithExtraIteration : BitVec 32)
    (state : Filling bits) : Prop where
  inside : state.workPart.toNat ≤ parts
  position : state.iteration.toNat =
    cut base iterationsPerPart.toNat partsWithExtraIteration.toNat state.workPart.toNat
  tiles : Tiles base state.iteration.toNat (state.parts.map Chunk.bounds)
  counted : state.parts.length = state.workPart.toNat

theorem fillPart_returns {base parts : Nat} {iterationsPerPart partsWithExtraIteration : BitVec 32}
    (room : Room base parts iterationsPerPart partsWithExtraIteration)
    (counted : parts < 2 ^ bits) (state : Filling bits)
    (holds : state.Invariant base parts iterationsPerPart partsWithExtraIteration)
    (more : state.workPart.toNat < parts) :
    Returns (fillPart iterationsPerPart partsWithExtraIteration state) (fun next =>
      next.Invariant base parts iterationsPerPart partsWithExtraIteration ∧
        parts - next.workPart.toNat < parts - state.workPart.toNat) := by
  have nonempty := room.nonempty
  unfold fillPart
  apply returns_bind (returns_partEnd room.fits more state.iteration holds.position _ rfl)
  intro partIterations ending
  apply returns_bind ending
  intro endIteration ⟨endAtCut, endIs⟩
  have forward : state.iteration < endIteration := BitVec.lt_def.mpr (by omega)
  apply returns_bind (returns_assume forward)
  intro _ _
  apply returns_bind (returns_increment state.workPart (by omega))
  intro workPart workPartIs
  apply returns_pure
  refine ⟨⟨?_, ?_, ?_, ?_⟩, ?_⟩
  · change workPart.toNat ≤ parts
    omega
  · change endIteration.toNat = cut _ _ _ workPart.toNat
    rw [workPartIs]
    exact endAtCut
  · change Tiles base endIteration.toNat ((state.parts ++ [_]).map Chunk.bounds)
    rw [List.map_append]
    exact holds.tiles.concat (BitVec.lt_def.mp forward)
  · change (state.parts ++ [_]).length = workPart.toNat
    rw [List.length_append, List.length_singleton, holds.counted, workPartIs]
  · change parts - workPart.toNat < _
    omega

/-- The loop makes as many parts as it is told to. -/
theorem fillParts_reach (iteration : BitVec 32) (numberOfParts : BitVec bits)
    {iterationsPerPart partsWithExtraIteration : BitVec 32} (narrow : bits ≤ 32)
    (room : Room iteration.toNat numberOfParts.toNat iterationsPerPart partsWithExtraIteration) :
    Returns (fillParts iteration numberOfParts iterationsPerPart partsWithExtraIteration) (fun filled =>
      filled.iteration.toNat =
        cut iteration.toNat iterationsPerPart.toNat partsWithExtraIteration.toNat numberOfParts.toNat ∧
      Tiles iteration.toNat filled.iteration.toNat (filled.parts.map Chunk.bounds) ∧
      filled.parts.length = numberOfParts.toNat) := by
  have words : 2 ^ bits ≤ 2 ^ 32 := Nat.pow_le_pow_right (by decide) narrow
  have counted := numberOfParts.isLt
  have start : Filling.Invariant iteration.toNat numberOfParts.toNat iterationsPerPart
      partsWithExtraIteration ({ workPart := 0, iteration := iteration, parts := [] } : Filling bits) := by
    constructor
    · simp
    · simp [cut_zero]
    · exact .nil _
    · simp
  have loops := returns_loop (fun state : Filling bits => decide (state.workPart < numberOfParts))
    (fun state : Filling bits => state.Invariant iteration.toNat numberOfParts.toNat
      iterationsPerPart partsWithExtraIteration)
    (fun state => numberOfParts.toNat - state.workPart.toNat)
    (fun state holds more => fillPart_returns room counted state holds
      (BitVec.lt_def.mp (of_decide_eq_true more)))
    fuel _ start (by rw [fuel_eq]; omega)
  apply Returns.mono loops
  rintro final ⟨holds, done⟩
  have stopped := of_decide_eq_false done
  rw [BitVec.lt_def] at stopped
  have all : final.workPart.toNat = numberOfParts.toNat := by
    have inside := holds.inside
    omega
  exact ⟨all ▸ holds.position, holds.tiles, all ▸ holds.counted⟩

theorem fillParts_returns (iteration : BitVec 32) (numberOfParts : BitVec bits)
    {iterationsPerPart partsWithExtraIteration iterations : BitVec 32} (narrow : bits ≤ 32)
    (layout : Layout iteration.toNat numberOfParts.toNat iterationsPerPart partsWithExtraIteration iterations) :
    Returns (fillParts iteration numberOfParts iterationsPerPart partsWithExtraIteration) (fun filled =>
      filled.iteration = iterations ∧
        Tiles iteration.toNat iterations.toNat (filled.parts.map Chunk.bounds) ∧
        filled.parts.length = numberOfParts.toNat) := by
  apply Returns.mono (fillParts_reach iteration numberOfParts narrow layout.room)
  rintro filled ⟨position, tiles, counted⟩
  have finished : filled.iteration = iterations := by
    apply BitVec.eq_of_toNat_eq
    rw [position, layout.last]
  exact ⟨finished, finished ▸ tiles, counted⟩

/-! ## The caller's share -/

/-- Chunks that tile a range contain each of its iterations once. -/
theorem countP_contains {start stop : Nat} {chunks : List Chunk} (tiles : Tiles start stop (chunks.map Chunk.bounds))
    (iteration : Nat) :
    chunks.countP (Chunk.contains iteration) = if start ≤ iteration ∧ iteration < stop then 1 else 0 := by
  rw [← tiles.countP_eq iteration, List.countP_map]
  rfl

theorem tiles_callerChunk (callerEnd : BitVec 32) :
    Tiles 0 callerEnd.toNat ((Plan.callerChunk callerEnd).map Chunk.bounds) := by
  unfold Plan.callerChunk
  by_cases none : callerEnd = 0
  · subst none
    exact .nil 0
  · rw [if_pos none]
    apply Tiles.single
    apply Nat.pos_of_ne_zero
    intro zero
    exact none (BitVec.eq_of_toNat_eq zero)

/-- Out of `parts` parts the caller takes the first one, with its extra
iteration, or none at all. -/
theorem callerShare_returns (useCallerThread : Bool) {parts : Nat}
    {iterationsPerPart partsWithExtra iterations : BitVec 32} (some : 0 < parts)
    (nonempty : 0 < iterationsPerPart.toNat) (few : partsWithExtra.toNat < parts)
    (whole : parts * iterationsPerPart.toNat + partsWithExtra.toNat = iterations.toNat) :
    Returns (callerShare useCallerThread iterationsPerPart partsWithExtra) (fun share =>
      Layout share.1.toNat (parts - useCallerThread.toNat) iterationsPerPart share.2 iterations) := by
  unfold callerShare
  cases useCallerThread with
  | false =>
      rw [if_neg Bool.false_ne_true]
      apply returns_pure
      refine ⟨?_, ?_, nonempty⟩
      · change 0 + parts * _ + partsWithExtra.toNat = _
        omega
      · exact Nat.le_of_lt few
  | true =>
      rw [if_pos rfl]
      rcases Nat.exists_eq_succ_of_ne_zero (Nat.ne_of_gt some) with ⟨others, rfl⟩
      rw [Nat.succ_mul] at whole
      have scaled : others ≤ others * iterationsPerPart.toNat := Nat.le_mul_of_pos_right _ nonempty
      have limit := iterations.isLt
      have value := toNat_extraIteration (decide (partsWithExtra ≠ 0))
      have extraIs : (extraIteration (decide (partsWithExtra ≠ 0))).toNat =
          if partsWithExtra.toNat = 0 then 0 else 1 := by
        rw [value]
        by_cases none : partsWithExtra = 0
        · subst none
          rfl
        · have positive : partsWithExtra.toNat ≠ 0 := fun zero => none (BitVec.eq_of_toNat_eq zero)
          rw [if_neg positive, decide_eq_true none, if_pos rfl]
      have bounded : (extraIteration (decide (partsWithExtra ≠ 0))).toNat ≤ partsWithExtra.toNat := by
        rw [extraIs]
        split <;> omega
      apply returns_bind (returns_add iterationsPerPart _ (by omega))
      intro callerEnd callerIs
      apply returns_bind (returns_sub partsWithExtra _ bounded)
      intro rest restIs
      apply returns_pure
      refine ⟨?_, ?_, nonempty⟩
      · change callerEnd.toNat + others * _ + rest.toNat = _
        omega
      · change rest.toNat ≤ others
        rw [restIs, extraIs]
        split <;> omega

/-! ## The whole call -/

/-- What a plan for a nonempty spread is required to be. -/
structure Plan.Exact (situation : Situation bits) (iterations : BitVec 32) (plan : Plan bits) : Prop where
  tiles : forall enqueueSucceeded,
    Tiles 0 iterations.toNat ((plan.chunks iterations enqueueSucceeded).map Chunk.bounds)
  workers : forall dispatch, dispatch ∈ plan.dispatches ->
    dispatch.workerIndex.toNat < situation.workerThreads.toNat ∧ dispatch.slices.length = plan.sliceDiv
  division : plan.sliceDiv ≤ stealingDivisionMax
  route : situation.itemsInShop = 0 ↔
    Exists fun callerEnd => Exists fun sliceDiv => Exists fun dispatches =>
      plan = .toWorkers callerEnd sliceDiv dispatches

theorem Plan.Exact.inCaller {situation : Situation bits} (iterations : BitVec 32)
    (occupied : situation.itemsInShop ≠ 0) : (Plan.inCaller iterations).Exact situation iterations := by
  refine ⟨fun _ => tiles_callerChunk iterations, nofun, Nat.zero_le _, ?_⟩
  constructor
  · intro empty
    exact absurd empty occupied
  · rintro ⟨_, _, _, impossible⟩
    cases impossible

theorem Plan.Exact.toQueue {situation : Situation bits} {iterations callerEnd : BitVec 32}
    (queueAndWait : Bool) {parts : List Chunk} (occupied : situation.itemsInShop ≠ 0)
    (tiles : Tiles callerEnd.toNat iterations.toNat (parts.map Chunk.bounds)) :
    (Plan.toQueue queueAndWait callerEnd parts).Exact situation iterations := by
  refine ⟨?_, nofun, Nat.zero_le _, ?_⟩
  · intro enqueueSucceeded
    unfold Plan.chunks
    by_cases accepted : parts = [] ∨ enqueueSucceeded = true
    · dsimp only
      rw [if_pos accepted, List.map_append]
      exact (tiles_callerChunk callerEnd).append tiles
    · dsimp only
      rw [if_neg accepted]
      exact tiles_callerChunk iterations
  · constructor
    · intro empty
      exact absurd empty occupied
    · rintro ⟨_, _, _, impossible⟩
      cases impossible

/-- The number of parts, with the caller's. -/
def workParts (workerThreads iterations parallelizable : Nat) : Nat :=
  min (max 1 (iterations / parallelizable)) (workerThreads + 1)

/-- What a division is required to be. -/
structure Division.Exact (situation : Situation bits) (iterations parallelizable : BitVec 32)
    (division : Division bits) : Prop where
  layout : Layout division.callerEnd.toNat division.numberOfDispatchedWorkParts.toNat division.iterationsPerPart
    division.partsWithExtraIteration iterations
  staff : division.numberOfDispatchedWorkParts.toNat ≤ situation.workerThreads.toNat
  empty : situation.itemsInShop = 0 ->
    division.queueAndWait = false ∧
    division.numberOfDispatchedWorkParts.toNat + 1 =
      workParts situation.workerThreads.toNat iterations.toNat parallelizable.toNat ∧
    division.iterationsPerPart.toNat = iterations.toNat /
      workParts situation.workerThreads.toNat iterations.toNat parallelizable.toNat

theorem divide_returns (narrow : bits ≤ 16) (situation : Situation bits)
    (iterations parallelizable : BitVec 32) (some : iterations ≠ 0) (divisible : parallelizable ≠ 0)
    (representable : situation.workerThreads.toNat + 1 < 2 ^ bits)
    (staffed : situation.workerThreads ≠ 0 ∨ situation.itemsInShop = 0) :
    Returns (divide situation iterations parallelizable) (Division.Exact situation iterations parallelizable) := by
  have words : 2 ^ bits ≤ 2 ^ 16 := Nat.pow_le_pow_right (by decide) narrow
  have items := situation.itemsInShop.isLt
  have positive : 0 < iterations.toNat :=
    Nat.pos_of_ne_zero (fun zero => some (BitVec.eq_of_toNat_eq zero))
  have divisor : 0 < parallelizable.toNat :=
    Nat.pos_of_ne_zero (fun zero => divisible (BitVec.eq_of_toNat_eq zero))
  have staff : 0 < situation.workerThreads.toNat ∨ situation.itemsInShop.toNat = 0 := by
    rcases staffed with present | empty
    · exact Or.inl (Nat.pos_of_ne_zero (fun zero => present (BitVec.eq_of_toNat_eq zero)))
    · right
      rw [empty]
      rfl
  have power : ((2 ^ bits : Nat) : Int) = (2 : Int) ^ bits := by norm_cast
  unfold divide
  apply returns_bind (returns_addInt _ 1 (by constructor <;> omega))
  intro workers workersIs
  apply returns_bind (returns_narrowInt bits workers (by omega) (by omega))
  intro actual actualIs
  apply returns_bind (returns_subInt actual.toNat situation.itemsInShop.toNat (by constructor <;> omega))
  intro unoccupied unoccupiedIs
  apply returns_bind (returns_narrowInt bits (max 0 unoccupied) (by omega) (by omega))
  intro freeWorkers freeIs
  have freeIff : freeWorkers = 0 ↔ freeWorkers.toNat = 0 := by
    rw [← BitVec.toNat_inj]
    rfl
  -- Somebody is available, or else everything is queued for the workers.
  have available : forall maxWorkParts,
      maxWorkParts = (if freeWorkers ≠ 0 then freeWorkers else situation.workerThreads) ->
      0 < maxWorkParts.toNat ∧
        maxWorkParts.toNat ≤ situation.workerThreads.toNat + (!decide (freeWorkers = 0)).toNat ∧
        (situation.itemsInShop.toNat = 0 ->
          freeWorkers ≠ 0 ∧ maxWorkParts.toNat = situation.workerThreads.toNat + 1) := by
    rintro maxWorkParts rfl
    by_cases none : freeWorkers = 0
    · have zero := freeIff.mp none
      rw [if_neg (not_not.mpr none), decide_eq_true none]
      refine ⟨?_, Nat.le_add_right _ _, ?_⟩
      · omega
      · intro noItems
        omega
    · rw [if_pos none, decide_eq_false none]
      have present := mt freeIff.mpr none
      refine ⟨?_, ?_, ?_⟩
      · omega
      · change _ ≤ _ + 1
        omega
      · intro noItems
        exact ⟨none, by omega⟩
  dsimp only
  generalize maxIs : (if freeWorkers ≠ 0 then freeWorkers else situation.workerThreads) = maxWorkParts
  have bounds := available maxWorkParts maxIs.symm
  generalize waitIs : decide (freeWorkers = 0) = queueAndWait
  rw [waitIs] at bounds
  have caller := Bool.toNat_le (!queueAndWait)
  apply returns_bind (returns_div iterations parallelizable divisor)
  intro quotient quotientIs
  have smaller : quotient.toNat ≤ iterations.toNat := by
    rw [quotientIs]
    exact Nat.div_le_self _ _
  have limit := maxWorkParts.isLt
  have minimumIs : (BitVec.ofNat 32 (min (max 1 quotient.toNat) maxWorkParts.toNat)).toNat =
      min (max 1 quotient.toNat) maxWorkParts.toNat := by
    rw [BitVec.toNat_ofNat, Nat.mod_eq_of_lt (by omega)]
  apply returns_bind (returns_narrow bits _ (by omega))
  intro parts partsAre
  rw [minimumIs] at partsAre
  apply returns_bind (returns_subInt parts.toNat (!queueAndWait).toNat (by constructor <;> omega))
  intro remaining remainingIs
  apply returns_bind (returns_narrowInt bits (max 0 remaining) (by omega) (by omega))
  intro dispatched dispatchedAre
  have dispatchedEq : dispatched.toNat = parts.toNat - (!queueAndWait).toNat := by omega
  have wideParts : (parts.setWidth 32).toNat = parts.toNat :=
    Machine.toNat_setWidth_of_le (by omega) _
  apply returns_bind (returns_div iterations (parts.setWidth 32) (by omega))
  intro share shareIs
  apply returns_bind (returns_rem iterations (parts.setWidth 32) (by omega))
  intro extras extrasAre
  rw [wideParts] at shareIs extrasAre
  have partSome : 0 < parts.toNat := by omega
  have nonempty : 0 < share.toNat := by
    rw [shareIs]
    exact Nat.div_pos (by omega) partSome
  have few : extras.toNat < parts.toNat := by
    rw [extrasAre]
    exact Nat.mod_lt _ partSome
  have whole : parts.toNat * share.toNat + extras.toNat = iterations.toNat := by
    rw [shareIs, extrasAre]
    exact Nat.div_add_mod _ _
  apply returns_bind (callerShare_returns (!queueAndWait) partSome nonempty few whole)
  rintro ⟨callerEnd, others⟩ layout
  dsimp only at layout
  rw [← dispatchedEq] at layout
  apply returns_pure
  refine ⟨layout, ?_, ?_⟩
  · change dispatched.toNat ≤ _
    omega
  · intro empty
    have noItems : situation.itemsInShop.toNat = 0 := by
      rw [empty]
      rfl
    have free := bounds.2.2 noItems
    have participates : queueAndWait = false := by
      rw [← waitIs, decide_eq_false free.1]
    have counted : parts.toNat = workParts situation.workerThreads.toNat iterations.toNat parallelizable.toNat := by
      rw [workParts, partsAre, free.2, quotientIs]
    rw [participates] at dispatchedEq
    change _ = _ - 1 at dispatchedEq
    refine ⟨participates, ?_, ?_⟩
    · change dispatched.toNat + 1 = _
      rw [← counted]
      omega
    · rw [← counted]
      exact shareIs

theorem dispatch_returns (wide : 8 ≤ bits) (narrow : bits ≤ 16) (situation : Situation bits)
    (iterations parallelizable : BitVec 32)
    (low : stealingDivisionMin ≤ situation.stealingDivision.toNat)
    (high : situation.stealingDivision.toNat ≤ stealingDivisionMax) {division : Division bits}
    (divided : division.Exact situation iterations parallelizable) :
    Returns (dispatch situation iterations division) (Plan.Exact situation iterations) := by
  have layout := divided.layout
  unfold dispatch
  by_cases empty : situation.itemsInShop = 0
  · -- Slices for the workers.
    rw [if_pos empty]
    apply returns_bind (dispatchWorkers_returns situation.stealingDivision division.callerEnd
      division.numberOfDispatchedWorkParts wide (by omega) low high layout)
    rintro ⟨sliceDiv, final⟩ ⟨finished, bounded, tiles, members, _⟩
    dsimp only at finished bounded tiles members
    have inside : final.iteration ≤ iterations := by
      rw [finished]
      exact BitVec.le_refl _
    apply returns_bind (returns_assume inside)
    intro _ _
    apply returns_pure
    refine ⟨?_, ?_, bounded, ⟨fun _ => ⟨_, _, _, rfl⟩, fun _ => empty⟩⟩
    · intro _
      change Tiles 0 _ ((Plan.callerChunk division.callerEnd ++ final.dispatches.flatMap Dispatch.slices).map _)
      rw [List.map_append]
      exact (tiles_callerChunk division.callerEnd).append tiles
    · intro dispatch member
      have found := members dispatch member
      exact ⟨Nat.lt_of_lt_of_le found.1 divided.staff, found.2⟩
  · rw [if_neg empty]
    by_cases any : division.numberOfDispatchedWorkParts ≠ 0
    · -- Parts for the shared queue.
      rw [if_pos any]
      apply returns_bind (fillParts_returns division.callerEnd division.numberOfDispatchedWorkParts (by omega) layout)
      rintro filled ⟨finished, tiles, _⟩
      apply returns_bind (returns_assume finished)
      intro _ _
      exact returns_pure (.toQueue _ empty tiles)
    · -- A single part, which the caller takes.
      rw [if_neg any]
      have none : division.numberOfDispatchedWorkParts.toNat = 0 := by
        rw [not_not.mp any]
        rfl
      have sum := layout.whole
      have rest := layout.few
      rw [none] at sum rest
      have alone : division.callerEnd = iterations := by
        apply BitVec.eq_of_toNat_eq
        omega
      apply returns_bind (returns_assume alone)
      intro _ _
      refine returns_pure (.toQueue _ empty ?_)
      rw [alone]
      exact .nil _

theorem spreadWork_returns (wide : 8 ≤ bits) (narrow : bits ≤ 16) (situation : Situation bits)
    (iterations parallelizable : BitVec 32) (some : iterations ≠ 0) (divisible : parallelizable ≠ 0)
    (representable : situation.workerThreads.toNat + 1 < 2 ^ bits)
    (staffed : situation.workerThreads ≠ 0 ∨ situation.itemsInShop = 0)
    (low : stealingDivisionMin ≤ situation.stealingDivision.toNat)
    (high : situation.stealingDivision.toNat ≤ stealingDivisionMax) :
    Returns (spreadWork situation iterations parallelizable) (Plan.Exact situation iterations) := by
  rw [spreadWork_eq, if_neg some]
  by_cases early : situation.itemsInShop ≠ 0 ∧
      (situation.singleCorePlatform ∧ situation.workerThreads = 0 ∨ situation.recursive)
  · rw [if_pos early]
    exact returns_pure (.inCaller iterations early.1)
  rw [if_neg early]
  apply returns_bind (divide_returns narrow situation iterations parallelizable some divisible representable staffed)
  intro division divided
  exact dispatch_returns wide narrow situation iterations parallelizable low high divided

/-- Where no items are counted and there are enough iterations, every worker
gets a slice. -/
theorem spreadWork_staffs (wide : 8 ≤ bits) (narrow : bits ≤ 16) (situation : Situation bits)
    (iterations : BitVec 32) (empty : situation.itemsInShop = 0)
    (enough : situation.workerThreads.toNat < iterations.toNat)
    (representable : situation.workerThreads.toNat + 1 < 2 ^ bits)
    (low : stealingDivisionMin ≤ situation.stealingDivision.toNat)
    (high : situation.stealingDivision.toNat ≤ stealingDivisionMax) :
    Returns (spreadWork situation iterations 1) (fun plan =>
      Exists fun callerEnd => Exists fun sliceDiv => Exists fun dispatches =>
        plan = .toWorkers callerEnd sliceDiv dispatches ∧
          forall worker, worker < situation.workerThreads.toNat -> Exists fun dispatch =>
            dispatch ∈ dispatches ∧ dispatch.workerIndex.toNat = worker ∧ dispatch.slices ≠ []) := by
  have some : iterations ≠ 0 := by
    rintro rfl
    exact Nat.not_lt_zero _ enough
  rw [spreadWork_eq, if_neg some, if_neg (fun early => early.1 empty)]
  apply returns_bind (divide_returns narrow situation iterations 1 some (by decide) representable (Or.inr empty))
  intro division divided
  have everybody : division.numberOfDispatchedWorkParts.toNat = situation.workerThreads.toNat := by
    have parts := (divided.empty empty).2.1
    rw [workParts, show (1 : BitVec 32).toNat = 1 from rfl, Nat.div_one] at parts
    omega
  unfold dispatch
  rw [if_pos empty]
  apply returns_bind (dispatchWorkers_returns situation.stealingDivision division.callerEnd
    division.numberOfDispatchedWorkParts wide (by omega) low high divided.layout)
  rintro ⟨sliceDiv, final⟩ ⟨finished, _, _, _, staffed⟩
  dsimp only at finished staffed
  have inside : final.iteration ≤ iterations := by
    rw [finished]
    exact BitVec.le_refl _
  apply returns_bind (returns_assume inside)
  intro _ _
  apply returns_pure
  rw [everybody] at staffed
  exact ⟨_, _, _, rfl, staffed⟩

/-- The chunks of every call of `spread_work` with at least one iteration are
nonempty and disjoint and cover exactly the iterations asked for, each worker
gets at most `slice_div` slices, and nothing wraps on the way. -/
theorem spread_work_tiles_exactly (concurrency : HardwareConcurrency)
    (situation : Situation concurrency.bits) (iterations parallelizable : BitVec 32)
    (some : iterations ≠ 0) (divisible : parallelizable ≠ 0)
    (representable : situation.workerThreads.toNat + 1 < 2 ^ concurrency.bits)
    (staffed : situation.workerThreads ≠ 0 ∨ situation.itemsInShop = 0)
    (low : 4 ≤ situation.stealingDivision.toNat) (high : situation.stealingDivision.toNat ≤ 16) :
    Exists fun plan => spreadWork situation iterations parallelizable = Option.some (plan, true) ∧
      (forall enqueueSucceeded,
        (forall chunk, chunk ∈ plan.chunks iterations enqueueSucceeded ->
          chunk.startIteration < chunk.endIteration) ∧
        (plan.chunks iterations enqueueSucceeded).Pairwise
          (fun left right => Disjoint left.range right.range) ∧
        (forall iteration, (Exists fun chunk =>
          chunk ∈ plan.chunks iterations enqueueSucceeded ∧ iteration ∈ chunk.range) ↔
            iteration < iterations.toNat)) ∧
      (forall dispatch, dispatch ∈ plan.dispatches ->
        dispatch.workerIndex.toNat < situation.workerThreads.toNat ∧
          dispatch.slices.length ≤ plan.sliceDiv) ∧
      (situation.itemsInShop = 0 ↔ Exists fun callerEnd => Exists fun sliceDiv =>
        Exists fun dispatches => plan = .toWorkers callerEnd sliceDiv dispatches) := by
  have wide : 8 ≤ concurrency.bits := by cases concurrency <;> decide
  have narrow : concurrency.bits ≤ 16 := by cases concurrency <;> decide
  rcases spreadWork_returns wide narrow situation iterations parallelizable some divisible representable
    staffed low high with ⟨plan, planned, exact⟩
  refine ⟨plan, planned, ?_, ?_, exact.route⟩
  · intro enqueueSucceeded
    have tiles := exact.tiles enqueueSucceeded
    refine ⟨?_, ?_, ?_⟩
    · intro chunk member
      exact BitVec.lt_def.mpr (tiles.bounds (List.mem_map_of_mem member)).2.1
    · have apart := tiles.disjoint
      rwa [List.pairwise_map] at apart
    · intro iteration
      have covered := tiles.mem_iff iteration
      constructor
      · rintro ⟨chunk, member, inside⟩
        exact (covered.mp ⟨chunk.bounds, List.mem_map_of_mem member, inside⟩).2
      · intro below
        rcases covered.mpr ⟨Nat.zero_le _, below⟩ with ⟨_, member, inside⟩
        rcases List.mem_map.mp member with ⟨chunk, present, rfl⟩
        exact ⟨chunk, present, inside⟩
  · intro dispatch member
    have found := exact.workers dispatch member
    exact ⟨found.1, Nat.le_of_eq found.2⟩

/-- A shop with three idle worker threads, outside any of them. -/
def idleShop : Situation HardwareConcurrency.uint16.bits where
  workerThreads := 3
  itemsInShop := 0
  stealingDivision := 4
  recursive := false
  singleCorePlatform := true

/-- A thousand iterations, as in the smoke test. -/
theorem spread_work_tiles_exactly_thousand :
    Exists fun plan => spreadWork idleShop 1000 1 = some (plan, true) ∧
      forall iteration, (Exists fun chunk =>
        chunk ∈ plan.chunks 1000 true ∧ iteration ∈ chunk.range) ↔ iteration < 1000 := by
  rcases spread_work_tiles_exactly .uint16 idleShop 1000 1 (by decide) (by decide) (by decide) (Or.inr rfl)
    (by decide) (by decide) with ⟨plan, planned, chunks, _⟩
  exact ⟨plan, planned, (chunks true).2.2⟩

end Spread
end Sweater
