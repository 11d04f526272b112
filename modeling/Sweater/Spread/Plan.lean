import Sweater.Machine.Checked
import Sweater.Threading.Platform

namespace Sweater
namespace Spread

open Machine
open Machine.Checked
open Threading

/-!
# How `spread_work` cuts an iteration range into chunks

The arithmetic of `spread_work` and `dispatch_workers` for the default build:
exact worker selection, the caller thread takes part, no clusters of different
speeds and no slow thread signals.  `iterations_t` has 32 bits, the stealing
division 8, and `hardware_concurrency_t` what the platform gives it; all of it
is `Checked`.  The assumptions and assertions of the code are kept.

What is left out here is what the chunks are done with: the queue, the barrier
and the shared item counter.
-/

/-- `start_iteration` and `end_iteration` of one work item. -/
structure Chunk where
  startIteration : BitVec 32
  endIteration : BitVec 32
  deriving DecidableEq, Repr

/-- The slices that `dispatch_workers` enqueues with one worker's token. -/
structure Dispatch (bits : Nat) where
  workerIndex : BitVec bits
  slices : List Chunk
  deriving DecidableEq, Repr

/-- More rounds than a 32-bit loop variable has values. -/
def fuel : Nat := 2 ^ 32 + 1

/-- `spread_work_stealing_division_min` -/
def stealingDivisionMin : Nat := 4

/-- `spread_work_stealing_division_max` -/
def stealingDivisionMax : Nat := 16

/-! ## The slices of one part -/

/-- The local variables of the inner loop of `dispatch_workers`. -/
structure Slicing (bits : Nat) where
  iter : BitVec 32
  firstSliceExtraIter : BitVec 32
  numberOfSlices : BitVec bits
  slices : List Chunk

/-- One round of the inner loop: one work item. -/
def slice {bits : Nat} (sliceDiv : BitVec 8) (sliceIter : BitVec 32) (state : Slicing bits) :
    Checked (Slicing bits) := do
  assume (state.numberOfSlices.toNat < sliceDiv.toNat)
  let numberOfSlices <- add state.numberOfSlices 1
  let withExtra <- add state.iter state.firstSliceExtraIter
  let endIteration <- add withExtra sliceIter
  assume (state.iter < endIteration)
  pure
    { iter := endIteration
      firstSliceExtraIter := 0
      numberOfSlices := numberOfSlices
      slices := state.slices ++ [⟨state.iter, endIteration⟩] }

/-- `for ( auto iter{ start_iteration }; iter < end_iteration; )` -/
def slicePart {bits : Nat} (sliceDiv : BitVec 8)
    (startIteration endIteration sliceIter firstSliceExtraIter : BitVec 32) :
    Checked (Slicing bits) :=
  loop (fun state => decide (state.iter < endIteration)) (slice sliceDiv sliceIter) fuel
    { iter := startIteration
      firstSliceExtraIter := firstSliceExtraIter
      numberOfSlices := 0
      slices := [] }

/-! ## Dispatching to the workers -/

/-- The local variables of the outer loop of `dispatch_workers`. -/
structure Dispatching (bits : Nat) where
  workPart : BitVec 32
  workerIndex : BitVec bits
  iteration : BitVec 32
  dispatches : List (Dispatch bits)

/-- A `bool` used as a number of iterations. -/
def extraIteration (extra : Bool) : BitVec 32 := if extra then 1 else 0

/-- One round of the outer loop: one part for one worker. -/
def dispatchPart {bits : Nat} (sliceDiv : BitVec 8)
    (iterationsPerPart partsWithExtraIteration : BitVec 32) (state : Dispatching bits) :
    Checked (Dispatching bits) := do
  let extra := extraIteration (decide (state.workPart < partsWithExtraIteration))
  let partIterations <- add state.iteration iterationsPerPart
  let endIteration <- add partIterations extra
  let length <- add iterationsPerPart extra
  let sliceIter <- div length (sliceDiv.setWidth 32)
  let firstSliceExtraIter <- rem length (sliceDiv.setWidth 32)
  let sliced : Slicing bits <-
    slicePart sliceDiv state.iteration endIteration sliceIter firstSliceExtraIter
  assume (sliced.numberOfSlices ≠ 0)
  let workerIndex <- add state.workerIndex 1
  let workPart <- add state.workPart 1
  pure
    { workPart := workPart
      workerIndex := workerIndex
      iteration := endIteration
      dispatches := state.dispatches ++ [⟨state.workerIndex, sliced.slices⟩] }

/-- `static_cast<std::uint8_t>( std::min( stealing_division, std::max( iterations_per_part, 1 ) ) )` -/
def sliceDivision (stealingDivision : BitVec 8) (iterationsPerPart : BitVec 32) :
    Checked (BitVec 8) :=
  narrow 8 (BitVec.ofNat 32 (min stealingDivision.toNat (max iterationsPerPart.toNat 1)))

/-- `dispatch_workers`; the pair is `slice_div` and the final local variables. -/
def dispatchWorkers {bits : Nat} (stealingDivision : BitVec 8) (workerIndex : BitVec bits)
    (iteration : BitVec 32) (maxParts : BitVec bits)
    (iterationsPerPart partsWithExtraIteration iterations : BitVec 32) :
    Checked (BitVec 8 × Dispatching bits) := do
  assume (stealingDivisionMin ≤ stealingDivision.toNat)
  assume (stealingDivision.toNat ≤ stealingDivisionMax)
  let sliceDiv <- sliceDivision stealingDivision iterationsPerPart
  let final <- loop
    (fun state => decide (state.workPart.toNat < maxParts.toNat ∧ state.iteration ≠ iterations))
    (dispatchPart sliceDiv iterationsPerPart partsWithExtraIteration) fuel
    { workPart := 0, workerIndex := workerIndex, iteration := iteration, dispatches := [] }
  pure (sliceDiv, final)

/-! ## The shared queue -/

/-- The local variables of the loop that fills `dispatched_work_parts`. -/
structure Filling (bits : Nat) where
  workPart : BitVec bits
  iteration : BitVec 32
  parts : List Chunk

def fillPart {bits : Nat} (iterationsPerPart partsWithExtraIteration : BitVec 32)
    (state : Filling bits) : Checked (Filling bits) := do
  let extra := extraIteration (decide (state.workPart.toNat < partsWithExtraIteration.toNat))
  let partIterations <- add state.iteration iterationsPerPart
  let endIteration <- add partIterations extra
  assume (state.iteration < endIteration)
  let workPart <- add state.workPart 1
  pure
    { workPart := workPart
      iteration := endIteration
      parts := state.parts ++ [⟨state.iteration, endIteration⟩] }

def fillParts {bits : Nat} (iteration : BitVec 32) (numberOfParts : BitVec bits)
    (iterationsPerPart partsWithExtraIteration : BitVec 32) : Checked (Filling bits) :=
  loop (fun state => decide (state.workPart < numberOfParts))
    (fillPart iterationsPerPart partsWithExtraIteration) fuel
    { workPart := 0, iteration := iteration, parts := [] }

/-! ## The plan of a whole call -/

/-- What a call of `spread_work` finds in its shop and on its platform. -/
structure Situation (bits : Nat) where
  workerThreads : BitVec bits
  itemsInShop : BitVec bits
  stealingDivision : BitVec 8
  /-- the calling thread belongs to the pool of the shop -/
  recursive : Bool
  /-- a platform that may have a single core -/
  singleCorePlatform : Bool
  deriving DecidableEq, Repr

/-- How the work of a call is going to be done. -/
inductive Plan (bits : Nat)
  /-- no iterations -/
  | nothing
  /-- everything at once on the caller -/
  | inCaller (iterations : BitVec 32)
  /-- slices for each worker, and a chunk for the caller -/
  | toWorkers (callerEnd : BitVec 32) (sliceDiv : BitVec 8) (dispatches : List (Dispatch bits))
  /-- parts for the shared queue, and a chunk for the caller unless it only waits -/
  | toQueue (queueAndWait : Bool) (callerEnd : BitVec 32) (parts : List Chunk)
  deriving DecidableEq, Repr

/-- `caller_thread_end_iteration`, and the parts that still get an extra iteration. -/
def callerShare (useCallerThread : Bool) (iterationsPerPart partsWithExtraIteration : BitVec 32) :
    Checked (BitVec 32 × BitVec 32) :=
  if useCallerThread then do
    let extra := extraIteration (decide (partsWithExtraIteration ≠ 0))
    let callerEnd <- add iterationsPerPart extra
    let others <- sub partsWithExtraIteration extra
    pure (callerEnd, others)
  else pure (0, partsWithExtraIteration)

/-- `spread_work`, up to the dispatch. -/
def spreadWork {bits : Nat} (situation : Situation bits)
    (iterations parallelizableIterationsCount : BitVec 32) : Checked (Plan bits) := do
  if iterations = 0 then
    pure .nothing
  else if situation.itemsInShop ≠ 0 ∧
      (situation.singleCorePlatform ∧ situation.workerThreads = 0 ∨ situation.recursive) then
    pure (.inCaller iterations)
  else do
    let workers <- addInt situation.workerThreads.toNat 1
    let actualNumberOfWorkers <- narrowInt bits workers
    let unoccupied <- subInt actualNumberOfWorkers.toNat situation.itemsInShop.toNat
    let freeWorkers <- narrowInt bits (max 0 unoccupied)
    let maxWorkParts := if freeWorkers ≠ 0 then freeWorkers else situation.workerThreads
    let queueAndWait := decide (freeWorkers = 0)
    let useCallerThread := !queueAndWait
    let quotient <- div iterations parallelizableIterationsCount
    let numberOfWorkParts <-
      narrow bits (BitVec.ofNat 32 (min (max 1 quotient.toNat) maxWorkParts.toNat))
    let remaining <- subInt numberOfWorkParts.toNat useCallerThread.toNat
    let numberOfDispatchedWorkParts <- narrowInt bits (max 0 remaining)
    let iterationsPerPart <- div iterations (numberOfWorkParts.setWidth 32)
    let partsWithExtra <- rem iterations (numberOfWorkParts.setWidth 32)
    let (callerEnd, partsWithExtraIteration) <- callerShare useCallerThread iterationsPerPart partsWithExtra
    if situation.itemsInShop = 0 then do
      let (sliceDiv, final) <- dispatchWorkers situation.stealingDivision 0 callerEnd
        numberOfDispatchedWorkParts iterationsPerPart partsWithExtraIteration iterations
      assume (final.iteration ≤ iterations)
      pure (.toWorkers callerEnd sliceDiv final.dispatches)
    else if numberOfDispatchedWorkParts ≠ 0 then do
      let filled <- fillParts callerEnd numberOfDispatchedWorkParts iterationsPerPart partsWithExtraIteration
      assume (filled.iteration = iterations)
      pure (.toQueue queueAndWait callerEnd filled.parts)
    else do
      assume (callerEnd = iterations)
      pure (.toQueue queueAndWait callerEnd [])

/-- The division of the iterations that `spread_work` sets out with, whichever
way the parts then go. -/
structure Division (bits : Nat) where
  queueAndWait : Bool
  callerEnd : BitVec 32
  iterationsPerPart : BitVec 32
  partsWithExtraIteration : BitVec 32
  numberOfDispatchedWorkParts : BitVec bits
  deriving DecidableEq, Repr

/-- The part of `spread_work` that all builds without clusters share. -/
def divide {bits : Nat} (situation : Situation bits) (iterations parallelizableIterationsCount : BitVec 32) :
    Checked (Division bits) := do
  let workers <- addInt situation.workerThreads.toNat 1
  let actualNumberOfWorkers <- narrowInt bits workers
  let unoccupied <- subInt actualNumberOfWorkers.toNat situation.itemsInShop.toNat
  let freeWorkers <- narrowInt bits (max 0 unoccupied)
  let maxWorkParts := if freeWorkers ≠ 0 then freeWorkers else situation.workerThreads
  let queueAndWait := decide (freeWorkers = 0)
  let useCallerThread := !queueAndWait
  let quotient <- div iterations parallelizableIterationsCount
  let numberOfWorkParts <-
    narrow bits (BitVec.ofNat 32 (min (max 1 quotient.toNat) maxWorkParts.toNat))
  let remaining <- subInt numberOfWorkParts.toNat useCallerThread.toNat
  let numberOfDispatchedWorkParts <- narrowInt bits (max 0 remaining)
  let iterationsPerPart <- div iterations (numberOfWorkParts.setWidth 32)
  let partsWithExtra <- rem iterations (numberOfWorkParts.setWidth 32)
  let (callerEnd, partsWithExtraIteration) <- callerShare useCallerThread iterationsPerPart partsWithExtra
  pure
    { queueAndWait := queueAndWait
      callerEnd := callerEnd
      iterationsPerPart := iterationsPerPart
      partsWithExtraIteration := partsWithExtraIteration
      numberOfDispatchedWorkParts := numberOfDispatchedWorkParts }

/-- The rest of `spread_work`, with exact worker selection. -/
def dispatch {bits : Nat} (situation : Situation bits) (iterations : BitVec 32) (division : Division bits) :
    Checked (Plan bits) :=
  if situation.itemsInShop = 0 then do
    let (sliceDiv, final) <- dispatchWorkers situation.stealingDivision 0 division.callerEnd
      division.numberOfDispatchedWorkParts division.iterationsPerPart division.partsWithExtraIteration iterations
    assume (final.iteration ≤ iterations)
    pure (.toWorkers division.callerEnd sliceDiv final.dispatches)
  else if division.numberOfDispatchedWorkParts ≠ 0 then do
    let filled <- fillParts division.callerEnd division.numberOfDispatchedWorkParts division.iterationsPerPart
      division.partsWithExtraIteration
    assume (filled.iteration = iterations)
    pure (.toQueue division.queueAndWait division.callerEnd filled.parts)
  else do
    assume (division.callerEnd = iterations)
    pure (.toQueue division.queueAndWait division.callerEnd [])

theorem spreadWork_eq {bits : Nat} (situation : Situation bits) (iterations parallelizable : BitVec 32) :
    spreadWork situation iterations parallelizable =
      if iterations = 0 then pure .nothing
      else if situation.itemsInShop ≠ 0 ∧
          (situation.singleCorePlatform ∧ situation.workerThreads = 0 ∨ situation.recursive) then
        pure (.inCaller iterations)
      else divide situation iterations parallelizable >>= dispatch situation iterations := by
  unfold spreadWork divide
  by_cases none : iterations = 0
  · rw [if_pos none, if_pos none]
  rw [if_neg none, if_neg none]
  by_cases early : situation.itemsInShop ≠ 0 ∧
      (situation.singleCorePlatform ∧ situation.workerThreads = 0 ∨ situation.recursive)
  · rw [if_pos early, if_pos early]
  rw [if_neg early, if_neg early]
  simp only [bind_assoc, pure_bind]
  rfl

namespace Plan

variable {bits : Nat}

/-- `perform_caller_work( iterations )`, when there is something to do. -/
def callerChunk (callerEnd : BitVec 32) : List Chunk :=
  if callerEnd ≠ 0 then [⟨0, callerEnd⟩] else []

/-- All the chunks that are going to be invoked for a call on `iterations`
iterations.  When the shared queue refuses the parts, the caller does
everything. -/
def chunks (plan : Plan bits) (iterations : BitVec 32) (enqueueSucceeded : Bool) : List Chunk :=
  match plan with
  | nothing => []
  | inCaller iterations => callerChunk iterations
  | toWorkers callerEnd _ dispatches => callerChunk callerEnd ++ dispatches.flatMap (fun d => d.slices)
  | toQueue _ callerEnd parts =>
      if parts = [] ∨ enqueueSucceeded then callerChunk callerEnd ++ parts else callerChunk iterations

/-- The dispatches to workers, if the plan has any. -/
def dispatches : Plan bits -> List (Dispatch bits)
  | toWorkers _ _ dispatches => dispatches
  | _ => []

/-- The number of slices that a worker may get. -/
def sliceDiv : Plan bits -> Nat
  | toWorkers _ sliceDiv _ => sliceDiv.toNat
  | _ => 0

end Plan

end Spread
end Sweater
