import Sweater.Spread.SlicedBulk

namespace Sweater
namespace Pool

open Machine
open Machine.Checked
open Spread
open Threading

/-!
# How many workers a shop gets, and who divides by their number

The constructor takes the number of CPUs that the operating system reports,
casts it to `hardware_concurrency_t`, and leaves one of them to the caller; so
does `set_max_allowed_threads` with its argument.  Both a pool of zero workers
and a cast to zero are let through.

A call is described here by what it divides by and where it indexes the pool.
Every dispatch of a single item goes through `next_dispatch_target`, which takes
a remainder by the number of workers; a spread divides by the number of parts
that it has found room for.
-/

/-! ## The platforms -/

/-- The processors that the preprocessor conditionals tell apart. -/
inductive Architecture
  | arm
  | aarch64
  | other
  deriving DecidableEq, Repr

/-- The targets that the preprocessor conditionals tell apart. -/
inductive Platform
  | linux (architecture : Architecture)
  | android (architecture : Architecture)
  | windows (architecture : Architecture)
  | windowsPhone (architecture : Architecture)
  | apple (architecture : Architecture) (phone : Bool)
  | emscripten (threads : Bool)
  deriving DecidableEq, Repr

/-- `hardware_concurrency_t` where the operating system does not decide it. -/
def Architecture.concurrency : Architecture -> HardwareConcurrency
  | arm | aarch64 => .uint8
  | other => .uint16

namespace Platform

/-- `hardware_concurrency_t` -/
def concurrency : Platform -> HardwareConcurrency
  | linux architecture | windows architecture | windowsPhone architecture => architecture.concurrency
  | android _ | apple _ _ => .uint8
  | emscripten _ => .uint16

/-- `PSI_SWEATER_MAX_HARDWARE_CONCURRENCY`, where zero stands for no limit. -/
def maximum : Platform -> Nat
  | emscripten false => 1
  | android .aarch64 => 12
  | android .arm => 8
  | android .other => 4
  | apple .aarch64 true => 24
  | apple .arm _ => 2
  | apple _ _ => 0
  | windowsPhone _ => 2
  | linux _ | windows _ | emscripten true => 0

/-- The limit on the size of `pool_`, which is a vector of fixed capacity where
there is a maximum. -/
def capacity : Platform -> Option Nat
  | android architecture => some (android architecture).maximum
  | platform => if platform.maximum = 0 then none else some (platform.maximum - 1)

/-- `PSI_SWEATER_USE_CALLER_THREAD && defined( __linux__ ) && !defined( __ANDROID__ )` -/
def singleCore : Platform -> Bool
  | linux _ => true
  | _ => false

/-- `slow_thread_signals` is a constant everywhere else. -/
def isAndroid : Platform -> Bool
  | android _ => true
  | _ => false

end Platform

/-- A build on a device. -/
structure Selection where
  platform : Platform
  exactWorkerSelection : Bool
  slowThreadSignals : Bool
  onAndroid : slowThreadSignals = true -> platform.isAndroid = true

namespace Selection

/-- `hardware_concurrency_t` -/
abbrev bits (selection : Selection) : Nat := selection.platform.concurrency.bits

/-- Items are queued with the token of a particular worker. -/
def direct (selection : Selection) : Bool :=
  selection.exactWorkerSelection && !selection.slowThreadSignals

end Selection

/-! ## The size of the pool -/

/-- `get_hardware_concurrency_max`, when the operating system reports `cpus`. -/
def getHardwareConcurrencyMax (platform : Platform) (cpus : Nat) : BitVec platform.concurrency.bits :=
  if platform.maximum = 1 then 1 else BitVec.ofNat _ cpus

/-- `local_hardware_concurrency` in the constructor. -/
def localHardwareConcurrency (platform : Platform) (cpus : Nat) : BitVec platform.concurrency.bits :=
  let offered := getHardwareConcurrencyMax platform cpus
  let limit := BitVec.ofNat platform.concurrency.bits platform.maximum
  if platform.maximum = 0 then offered
  else if limit < offered then limit else offered

/-- The size of `pool_` after `create_pool`.  A vector of fixed capacity cannot
be resized beyond it. -/
def createPool (platform : Platform) (size : BitVec platform.concurrency.bits) : Option Nat :=
  match platform.capacity with
  | none => some size.toNat
  | some capacity => if size.toNat ≤ capacity then some size.toNat else none

/-- The last operation that has given the pool its size. -/
inductive Setup (platform : Platform)
  | constructed (cpus : Nat) (reported : 1 ≤ cpus)
  | setMaxAllowedThreads (maxThreads : BitVec platform.concurrency.bits) (positive : maxThreads ≠ 0)

namespace Setup

variable {platform : Platform}

/-- The argument of `create_pool`, and then `number_of_worker_threads`. -/
def workerThreads : Setup platform -> BitVec platform.concurrency.bits
  | constructed cpus _ => localHardwareConcurrency platform cpus - 1
  | setMaxAllowedThreads maxThreads _ => maxThreads - 1

/-- The pool has room for the workers that are asked for. -/
def Stored : Setup platform -> Prop
  | constructed _ _ => True
  | setMaxAllowedThreads maxThreads _ =>
      forall capacity, platform.capacity = some capacity -> maxThreads.toNat ≤ capacity + 1

/-- The number of CPUs is not lost in the cast. -/
def Counted : Setup platform -> Prop
  | constructed cpus _ => platform.maximum = 1 ∨ ¬ 2 ^ platform.concurrency.bits ∣ cpus
  | setMaxAllowedThreads _ _ => True

/-- The caller is meant to be the only worker. -/
def Single : Setup platform -> Prop
  | constructed cpus _ => platform.maximum = 1 ∨ cpus % 2 ^ platform.concurrency.bits = 1
  | setMaxAllowedThreads maxThreads _ => maxThreads = 1

end Setup

/-- `number_of_workers` -/
def numberOfWorkers {bits : Nat} (workerThreads : BitVec bits) : BitVec bits :=
  BitVec.ofNat bits (workerThreads.toNat + 1)

/-! ## What a call divides by, and where it indexes -/

/-- A division or remainder, or an access to `pool_`. -/
inductive PoolUse
  | divides (divisor : Nat)
  | indexes (index : Nat)
  deriving DecidableEq, Repr

/-- The use is defined for a pool of the given size. -/
def PoolUse.Defined (size : Nat) : PoolUse -> Prop
  | divides divisor => divisor ≠ 0
  | indexes index => index < size

section Uses

variable {bits : Nat}

/-- `next_dispatch_target`; the second rotor is the one after the increment that
is made when the first target has a backlog. -/
def nextDispatchTarget (workers : BitVec bits) (rotor : BitVec 32) (advanced : Option (BitVec 32)) :
    List PoolUse :=
  let target := fun rotor : BitVec 32 => [.divides workers.toNat, .indexes (rotor.toNat % workers.toNat)]
  target rotor ++ (advanced.toList.flatMap target)

/-- `max_work_parts` -/
def maxWorkParts (situation : Situation bits) : BitVec bits :=
  let freeWorkers := BitVec.ofInt bits
    (max 0 ((numberOfWorkers situation.workerThreads).toNat - situation.itemsInShop.toNat : Int))
  if freeWorkers ≠ 0 then freeWorkers else situation.workerThreads

/-- `number_of_work_parts` -/
def numberOfWorkParts (situation : Situation bits) (iterations parallelizableIterationsCount : BitVec 32) :
    BitVec bits :=
  BitVec.ofNat bits
    (min (max 1 (iterations / parallelizableIterationsCount).toNat) (maxWorkParts situation).toNat)

/-- `dispatch_workers`: each part is cut by the division, and goes to one worker. -/
def dispatchWorkersUses (sliceDiv : BitVec 8) (iterations : BitVec 32) (division : Division bits) :
    List PoolUse :=
  (rounds
    (fun state => decide
      (state.workPart.toNat < division.numberOfDispatchedWorkParts.toNat ∧ state.iteration ≠ iterations))
    (dispatchPart sliceDiv division.iterationsPerPart division.partsWithExtraIteration) fuel
    ({ workPart := 0, workerIndex := 0, iteration := division.callerEnd, dispatches := [] } :
      Dispatching bits)).flatMap
    (fun state => [.divides sliceDiv.toNat, .divides sliceDiv.toNat, .indexes state.workerIndex.toNat])

/-- The rest of `spread_work`; only an idle shop slices its parts. -/
def dispatchUses (direct : Bool) (situation : Situation bits) (iterations : BitVec 32)
    (division : Division bits) : List PoolUse :=
  if situation.itemsInShop = 0 then
    match sliceDivision situation.stealingDivision division.iterationsPerPart with
    | none => []
    | some (sliceDiv, _) =>
        if direct then dispatchWorkersUses sliceDiv iterations division
        else if division.numberOfDispatchedWorkParts ≠ 0 then
          [.divides sliceDiv.toNat, .divides sliceDiv.toNat]
        else []
  else []

/-- `spread_work` performs everything on the caller. -/
def Situation.InCaller (situation : Situation bits) : Prop :=
  situation.itemsInShop ≠ 0 ∧
    (situation.singleCorePlatform ∧ situation.workerThreads = 0 ∨ situation.recursive)

instance (situation : Situation bits) : Decidable (Situation.InCaller situation) :=
  inferInstanceAs (Decidable (_ ∧ _))

/-- `spread_work` -/
def spreadUses (direct : Bool) (situation : Situation bits)
    (iterations parallelizableIterationsCount : BitVec 32) : List PoolUse :=
  if iterations = 0 then []
  else if Situation.InCaller situation then []
  else
    let parts := (numberOfWorkParts situation iterations parallelizableIterationsCount).toNat
    [.divides parallelizableIterationsCount.toNat, .divides parts, .divides parts] ++
      match divide situation iterations parallelizableIterationsCount with
      | none => []
      | some (division, _) => dispatchUses direct situation iterations division

end Uses

/-- A value of `spread_work_stealing_division`. -/
structure StealingDivision where
  value : BitVec 8
  low : stealingDivisionMin ≤ value.toNat
  high : value.toNat ≤ stealingDivisionMax

/-- A call on a shop, with what it finds there. -/
inductive Call (bits : Nat)
  /-- `fire_and_forget`, and `dispatch` in all its variants -/
  | fire (rotor : BitVec 32) (advanced : Option (BitVec 32))
  | spread (iterations parallelizableIterationsCount : BitVec 32) (itemsInShop : BitVec bits)
      (stealingDivision : StealingDivision) (recursive : Bool)

/-- All that a call divides by, and all the places where it indexes the pool. -/
def Call.uses (selection : Selection) (workerThreads : BitVec selection.bits) :
    Call selection.bits -> List PoolUse
  | fire rotor advanced =>
      if selection.direct then nextDispatchTarget workerThreads rotor advanced else []
  | spread iterations parallelizableIterationsCount itemsInShop stealingDivision recursive =>
      spreadUses selection.direct
        ⟨workerThreads, itemsInShop, stealingDivision.value, recursive, selection.platform.singleCore⟩
        iterations parallelizableIterationsCount

/-- What a call needs of a pool that may be empty. -/
def Call.Divisible (selection : Selection) (single : Prop) : Call selection.bits -> Prop
  | fire _ _ => selection.direct = true -> ¬ single
  | spread iterations parallelizableIterationsCount itemsInShop _ recursive =>
      iterations = 0 ∨
      itemsInShop ≠ 0 ∧ (selection.platform.singleCore = true ∧ single ∨ recursive = true) ∨
      parallelizableIterationsCount ≠ 0 ∧ (single -> itemsInShop = 0)

/-! ## Counting workers -/

theorem Platform.maximum_lt (platform : Platform) : platform.maximum < 2 ^ platform.concurrency.bits := by
  cases platform with
  | linux architecture => cases architecture <;> decide
  | android architecture => cases architecture <;> decide
  | windows architecture => cases architecture <;> decide
  | windowsPhone architecture => cases architecture <;> decide
  | apple architecture phone => cases architecture <;> cases phone <;> decide
  | emscripten threads => cases threads <;> decide

/-- The caller has no place in the pool. -/
theorem Platform.maximum_le_capacity (platform : Platform) {capacity : Nat} (bounded : platform.capacity = some capacity) :
    platform.maximum ≠ 0 ∧ platform.maximum ≤ capacity + 1 := by
  have limited : forall other : Platform, (if other.maximum = 0 then none else some (other.maximum - 1)) = some capacity ->
      other.maximum ≠ 0 ∧ other.maximum ≤ capacity + 1 := by
    intro other same
    split at same
    · cases same
    · rename_i positive
      cases same
      exact ⟨positive, by omega⟩
  cases platform with
  | android architecture =>
      cases bounded
      cases architecture <;> decide
  | linux _ | windows _ | windowsPhone _ | apple _ _ | emscripten _ => exact limited _ bounded

theorem two_le_range (concurrency : HardwareConcurrency) : 2 ≤ 2 ^ concurrency.bits := by
  cases concurrency <;> decide

/-- What the constructor makes of the number of CPUs. -/
theorem toNat_localHardwareConcurrency (platform : Platform) (cpus : Nat) :
    (localHardwareConcurrency platform cpus).toNat =
      if platform.maximum = 1 then 1
      else if platform.maximum = 0 then cpus % 2 ^ platform.concurrency.bits
      else min (cpus % 2 ^ platform.concurrency.bits) platform.maximum := by
  have limit : (BitVec.ofNat platform.concurrency.bits platform.maximum).toNat = platform.maximum :=
    (BitVec.toNat_ofNat _ _).trans (Nat.mod_eq_of_lt platform.maximum_lt)
  have range := two_le_range platform.concurrency
  unfold localHardwareConcurrency getHardwareConcurrencyMax
  by_cases one : platform.maximum = 1
  · have nonzero : platform.maximum ≠ 0 := by omega
    have single : (1 : BitVec platform.concurrency.bits).toNat = 1 :=
      (BitVec.toNat_ofNat _ _).trans (Nat.mod_eq_of_lt range)
    simp only [one, if_true]
    rw [if_neg (by decide), toNat_min, single]
    change min 1 (1 : BitVec platform.concurrency.bits).toNat = 1
    rw [single]
    exact Nat.min_self 1
  · simp only [one, if_false]
    by_cases unlimited : platform.maximum = 0
    · rw [if_pos unlimited, if_pos unlimited, BitVec.toNat_ofNat]
    · rw [if_neg unlimited, if_neg unlimited, toNat_min, limit, BitVec.toNat_ofNat]

/-- Leaving one to the caller goes through zero only from zero. -/
theorem sub_one_room {bits : Nat} (word : BitVec bits) : (word - 1).toNat + 1 < 2 ^ bits ↔ word ≠ 0 := by
  have bounded := word.isLt
  constructor
  · rintro room rfl
    have restored : (0 - 1 + 1 : BitVec bits) = 0 := BitVec.sub_add_cancel _ _
    have value := toNat_add_one (0 - 1 : BitVec bits) room
    rw [restored, BitVec.ofNat_eq_ofNat, BitVec.toNat_zero] at value
    omega
  · intro nonzero
    have positive : 0 < word.toNat := Nat.pos_of_ne_zero (fun zero => nonzero (BitVec.eq_of_toNat_eq zero))
    have value := toNat_sub_one word positive
    omega

theorem sub_one_eq_zero {bits : Nat} (word : BitVec bits) : word - 1 = 0 ↔ word = 1 := by
  constructor
  · intro zero
    have restored : word - 1 + 1 = word := BitVec.sub_add_cancel _ _
    rw [← restored, zero, BitVec.ofNat_eq_ofNat, BitVec.ofNat_eq_ofNat, BitVec.zero_add]
  · rintro rfl
    exact BitVec.sub_self _

namespace Setup

variable {platform : Platform}

/-- The number of workers is a `hardware_concurrency_t` again. -/
theorem counted_iff (setup : Setup platform) :
    setup.Counted ↔ setup.workerThreads.toNat + 1 < 2 ^ platform.concurrency.bits := by
  cases setup with
  | constructed cpus reported =>
      have value := toNat_localHardwareConcurrency platform cpus
      change _ ↔ (localHardwareConcurrency platform cpus - 1).toNat + 1 < _
      rw [sub_one_room, Ne, ← BitVec.toNat_inj, value, BitVec.ofNat_eq_ofNat, BitVec.toNat_zero, Counted,
        Nat.dvd_iff_mod_eq_zero]
      by_cases one : platform.maximum = 1
      · rw [if_pos one]
        exact ⟨fun _ => Nat.one_ne_zero, fun _ => Or.inl one⟩
      · rw [if_neg one]
        split <;> omega
  | setMaxAllowedThreads maxThreads positive =>
      change True ↔ (maxThreads - 1).toNat + 1 < _
      rw [sub_one_room]
      exact ⟨fun _ => positive, fun _ => trivial⟩

/-- The constructor never asks for more workers than the pool has room for. -/
theorem constructed_fits (cpus : Nat) (reported : 1 ≤ cpus) (counted : (constructed cpus reported : Setup platform).Counted)
    {capacity : Nat} (bounded : platform.capacity = some capacity) :
    (constructed cpus reported : Setup platform).workerThreads.toNat ≤ capacity := by
  have room : platform.maximum ≠ 0 ∧ platform.maximum ≤ capacity + 1 := platform.maximum_le_capacity bounded
  have offered : (localHardwareConcurrency platform cpus).toNat ≤ platform.maximum := by
    rw [toNat_localHardwareConcurrency, if_neg room.1]
    split
    · rename_i one
      rw [one]
    · exact Nat.min_le_right _ _
  have nonzero : localHardwareConcurrency platform cpus ≠ 0 :=
    (sub_one_room _).mp ((counted_iff _).mp counted)
  have positive : 0 < (localHardwareConcurrency platform cpus).toNat :=
    Nat.pos_of_ne_zero (fun zero => nonzero (BitVec.eq_of_toNat_eq zero))
  have left := toNat_sub_one _ positive
  change (localHardwareConcurrency platform cpus - 1).toNat ≤ capacity
  omega

/-- `create_pool` makes a pool of the size asked for exactly if it has the room. -/
theorem createPool_iff (setup : Setup platform) (counted : setup.Counted) (size : Nat) :
    createPool platform setup.workerThreads = some size ↔ setup.Stored ∧ size = setup.workerThreads.toNat := by
  have room : setup.Stored ↔ forall capacity, platform.capacity = some capacity -> setup.workerThreads.toNat ≤ capacity := by
    cases setup with
    | constructed cpus reported =>
        exact iff_of_true trivial (fun capacity bounded => constructed_fits cpus reported counted bounded)
    | setMaxAllowedThreads maxThreads positive =>
        have left := toNat_sub_one maxThreads
          (Nat.pos_of_ne_zero (fun zero => positive (BitVec.eq_of_toNat_eq zero)))
        refine forall_congr' (fun capacity => imp_congr_right (fun _ => ?_))
        change _ ↔ (maxThreads - 1).toNat ≤ capacity
        omega
  rw [room]
  unfold createPool
  cases platform.capacity with
  | none => simp [eq_comm]
  | some capacity =>
      by_cases fits : setup.workerThreads.toNat ≤ capacity
      · simp [fits, eq_comm]
      · simp [fits]

/-- The pool is empty when the caller is meant to be alone. -/
theorem single_iff (setup : Setup platform) : setup.Single ↔ setup.workerThreads = 0 := by
  cases setup with
  | constructed cpus reported =>
      have value := toNat_localHardwareConcurrency platform cpus
      have range := two_le_range platform.concurrency
      have single : (1 : BitVec platform.concurrency.bits).toNat = 1 :=
        (BitVec.toNat_ofNat _ _).trans (Nat.mod_eq_of_lt range)
      change _ ↔ localHardwareConcurrency platform cpus - 1 = 0
      rw [sub_one_eq_zero, ← BitVec.toNat_inj, value, single, Single]
      by_cases one : platform.maximum = 1
      · rw [if_pos one]
        exact ⟨fun _ => rfl, fun _ => Or.inl one⟩
      · rw [if_neg one]
        split <;> omega
  | setMaxAllowedThreads maxThreads positive => exact (sub_one_eq_zero maxThreads).symm

end Setup

/-- The caller is counted in unless the sum wraps. -/
theorem numberOfWorkers_pos_iff {bits : Nat} (workerThreads : BitVec bits) :
    1 ≤ (numberOfWorkers workerThreads).toNat ↔ workerThreads.toNat + 1 < 2 ^ bits := by
  have bounded := workerThreads.isLt
  rw [numberOfWorkers, BitVec.toNat_ofNat]
  constructor
  · intro positive
    by_contra full
    have whole : workerThreads.toNat + 1 = 2 ^ bits := by omega
    rw [whole, Nat.mod_self] at positive
    exact absurd positive (by decide)
  · intro room
    rw [Nat.mod_eq_of_lt room]
    exact Nat.succ_pos _

/-! ## One item -/

section Calls

variable {bits : Nat}

theorem nextDispatchTarget_defined_iff (workers : BitVec bits) (rotor : BitVec 32)
    (advanced : Option (BitVec 32)) :
    (forall use, use ∈ nextDispatchTarget workers rotor advanced -> use.Defined workers.toNat) ↔
      workers ≠ 0 := by
  constructor
  · rintro defined rfl
    have divisor := defined (.divides (0 : BitVec bits).toNat)
      (List.mem_append_left _ (List.mem_cons_self ..))
    exact divisor rfl
  · intro present use member
    have positive : workers.toNat ≠ 0 := fun zero => present (BitVec.eq_of_toNat_eq zero)
    have target : forall rotor : BitVec 32, use ∈ [PoolUse.divides workers.toNat,
        .indexes (rotor.toNat % workers.toNat)] -> use.Defined workers.toNat := by
      intro rotor either
      rcases List.mem_cons.mp either with rfl | index
      · exact positive
      · rw [List.mem_singleton.mp index]
        exact Nat.mod_lt _ (Nat.pos_of_ne_zero positive)
    rcases List.mem_append.mp member with first | second
    · exact target rotor first
    · rcases List.mem_flatMap.mp second with ⟨again, _, inside⟩
      exact target again inside

/-! ## Spreads -/

/-- There is room for a part exactly if there are workers or nothing else to do. -/
theorem numberOfWorkParts_ne_zero_iff (situation : Situation bits) (iterations parallelizable : BitVec 32)
    (room : situation.workerThreads.toNat + 1 < 2 ^ bits) :
    (numberOfWorkParts situation iterations parallelizable).toNat ≠ 0 ↔
      (situation.workerThreads = 0 -> situation.itemsInShop = 0) := by
  have workers : (numberOfWorkers situation.workerThreads).toNat = situation.workerThreads.toNat + 1 :=
    (BitVec.toNat_ofNat _ _).trans (Nat.mod_eq_of_lt room)
  have range : ((2 ^ bits : Nat) : Int) = (2 : Int) ^ bits := by norm_cast
  generalize freeIs : BitVec.ofInt bits (max 0 ((numberOfWorkers situation.workerThreads).toNat -
    situation.itemsInShop.toNat : Int)) = freeWorkers
  have free : freeWorkers.toNat = situation.workerThreads.toNat + 1 - situation.itemsInShop.toNat := by
    rw [← freeIs, BitVec.toNat_ofInt, workers, Int.emod_eq_of_lt (by omega) (by omega)]
    omega
  have nobody : freeWorkers = 0 ↔ freeWorkers.toNat = 0 := by
    rw [← BitVec.toNat_inj, BitVec.ofNat_eq_ofNat, BitVec.toNat_zero]
  have empty : situation.workerThreads = 0 ↔ situation.workerThreads.toNat = 0 := by
    rw [← BitVec.toNat_inj, BitVec.ofNat_eq_ofNat, BitVec.toNat_zero]
  have quiet : situation.itemsInShop = 0 ↔ situation.itemsInShop.toNat = 0 := by
    rw [← BitVec.toNat_inj, BitVec.ofNat_eq_ofNat, BitVec.toNat_zero]
  have most : maxWorkParts situation = if freeWorkers ≠ 0 then freeWorkers else situation.workerThreads := by
    unfold maxWorkParts
    rw [freeIs]
  have bounded := (maxWorkParts situation).isLt
  rw [numberOfWorkParts, BitVec.toNat_ofNat, Nat.mod_eq_of_lt (by omega), empty, quiet]
  have parts : min (max 1 (iterations / parallelizable).toNat) (maxWorkParts situation).toNat ≠ 0 ↔
      (maxWorkParts situation).toNat ≠ 0 := by omega
  rw [parts, most]
  by_cases busy : freeWorkers = 0
  · have zero := nobody.mp busy
    rw [if_neg (not_not.mpr busy)]
    omega
  · have positive := mt nobody.mpr busy
    rw [if_pos busy]
    omega

/-- The stealing division never makes `slice_div` zero. -/
theorem sliceDivision_ensures (stealingDivision : StealingDivision) (iterationsPerPart : BitVec 32) :
    Ensures (sliceDivision stealingDivision.value iterationsPerPart) (fun sliceDiv => sliceDiv.toNat ≠ 0) := by
  have low := stealingDivision.low
  have high := stealingDivision.high
  unfold stealingDivisionMin at low
  unfold stealingDivisionMax at high
  intro sliceDiv exact computed
  cases computed
  rw [BitVec.toNat_setWidth, BitVec.toNat_ofNat]
  omega

/-- The worker index counts along with the parts. -/
theorem dispatchPart_ensures (sliceDiv : BitVec 8) (iterationsPerPart partsWithExtraIteration : BitVec 32)
    (state : Dispatching bits) :
    Ensures (dispatchPart sliceDiv iterationsPerPart partsWithExtraIteration state) (fun next =>
      next.workPart = state.workPart + 1 ∧ next.workerIndex = state.workerIndex + 1) := by
  unfold dispatchPart
  refine ensures_bind (ensures_true _) ?_
  intro partIterations _
  refine ensures_bind (ensures_true _) ?_
  intro endIteration _
  refine ensures_bind (ensures_true _) ?_
  intro length _
  refine ensures_bind (ensures_true _) ?_
  intro sliceIter _
  refine ensures_bind (ensures_true _) ?_
  intro firstSliceExtraIter _
  refine ensures_bind (ensures_true _) ?_
  intro sliced _
  refine ensures_bind (ensures_true _) ?_
  intro _ _
  refine ensures_bind (ensures_add state.workerIndex 1) ?_
  intro workerIndex workerIndexIs
  refine ensures_bind (ensures_add state.workPart 1) ?_
  intro workPart workPartIs
  exact ensures_pure ⟨workPartIs, workerIndexIs⟩

/-- Parts go to workers of the pool only. -/
theorem dispatchWorkersUses_defined (narrow : bits ≤ 16) {sliceDiv : BitVec 8} (iterations : BitVec 32)
    {division : Division bits} {size : Nat} (positive : sliceDiv.toNat ≠ 0)
    (staff : division.numberOfDispatchedWorkParts.toNat ≤ size) :
    forall use, use ∈ dispatchWorkersUses sliceDiv iterations division -> use.Defined size := by
  intro use member
  have words : 2 ^ bits ≤ 2 ^ 16 := Nat.pow_le_pow_right (by decide) narrow
  have limit := division.numberOfDispatchedWorkParts.isLt
  rcases List.mem_flatMap.mp member with ⟨state, visited, inside⟩
  have counted := rounds_invariant _ (fun state : Dispatching bits =>
      state.workerIndex.toNat = state.workPart.toNat ∧
        state.workPart.toNat ≤ division.numberOfDispatchedWorkParts.toNat) (by
    rintro state ⟨same, _⟩ more
    have room := (of_decide_eq_true more).1
    intro next exact computed
    rcases dispatchPart_ensures _ _ _ state next exact computed with ⟨workPart, workerIndex⟩
    rw [workPart, workerIndex, toNat_add_one _ (by omega), toNat_add_one _ (by omega)]
    omega) _ _ (by
    constructor
    · rfl
    · exact Nat.zero_le _) state visited
  have bound := (of_decide_eq_true counted.2).1
  rcases List.mem_cons.mp inside with rfl | later
  · exact positive
  · rcases List.mem_cons.mp later with rfl | last
    · exact positive
    · rw [List.mem_singleton.mp last]
      change state.workerIndex.toNat < size
      omega

theorem dispatchUses_defined (narrow : bits ≤ 16) (direct : Bool) {situation : Situation bits}
    {iterations : BitVec 32} {division : Division bits} {size : Nat} (stealingDivision : StealingDivision)
    (stealing : situation.stealingDivision = stealingDivision.value)
    (staff : division.numberOfDispatchedWorkParts.toNat ≤ size) :
    forall use, use ∈ dispatchUses direct situation iterations division -> use.Defined size := by
  intro use member
  unfold dispatchUses at member
  split at member
  · cases slicing : sliceDivision situation.stealingDivision division.iterationsPerPart with
    | none =>
        rw [slicing] at member
        cases member
    | some sliced =>
        have positive : sliced.1.toNat ≠ 0 :=
          sliceDivision_ensures stealingDivision division.iterationsPerPart sliced.1 sliced.2
            (stealing ▸ slicing)
        rw [slicing] at member
        dsimp only at member
        cases direct with
        | true => exact dispatchWorkersUses_defined narrow iterations positive staff use member
        | false =>
            rw [if_neg Bool.false_ne_true] at member
            split at member
            · rcases List.mem_cons.mp member with rfl | later
              · exact positive
              · rw [List.mem_singleton.mp later]
                exact positive
            · cases member
  · cases member

/-- A spread that does not stay on the caller is defined exactly if it has room
for a part. -/
theorem spreadUses_defined_iff (narrow : bits ≤ 16) (direct : Bool) {situation : Situation bits}
    {iterations parallelizable : BitVec 32} (stealingDivision : StealingDivision)
    (stealing : situation.stealingDivision = stealingDivision.value)
    (room : situation.workerThreads.toNat + 1 < 2 ^ bits) :
    (forall use, use ∈ spreadUses direct situation iterations parallelizable ->
        use.Defined situation.workerThreads.toNat) ↔
      iterations = 0 ∨ Situation.InCaller situation ∨
        parallelizable ≠ 0 ∧ (situation.workerThreads = 0 -> situation.itemsInShop = 0) := by
  have parts := numberOfWorkParts_ne_zero_iff situation iterations parallelizable room
  unfold spreadUses
  by_cases none : iterations = 0
  · rw [if_pos none]
    exact ⟨fun _ => Or.inl none, fun _ => nofun⟩
  by_cases alone : Situation.InCaller situation
  · rw [if_neg none, if_pos alone]
    exact ⟨fun _ => Or.inr (Or.inl alone), fun _ => nofun⟩
  rw [if_neg none, if_neg alone]
  constructor
  · intro defined
    refine Or.inr (Or.inr ⟨?_, ?_⟩)
    · intro zero
      have divisor := defined (.divides parallelizable.toNat)
        (List.mem_append_left _ (List.mem_cons_self ..))
      exact divisor (zero ▸ rfl)
    · have divisor := defined
        (.divides (numberOfWorkParts situation iterations parallelizable).toNat)
        (List.mem_append_left _ (List.mem_cons_of_mem _ (List.mem_cons_self ..)))
      exact parts.mp divisor
  · intro divisible use member
    rcases (divisible.resolve_left none).resolve_left alone with ⟨cost, staffed⟩
    have staff : situation.workerThreads ≠ 0 ∨ situation.itemsInShop = 0 :=
      or_iff_not_imp_left.mpr (fun empty => staffed (not_not.mp empty))
    rcases divide_returns narrow situation iterations parallelizable none cost room staff with
      ⟨division, computed, divided⟩
    rw [computed] at member
    rcases List.mem_append.mp member with first | rest
    · have nonzero : parallelizable.toNat ≠ 0 := fun zero => cost (BitVec.eq_of_toNat_eq zero)
      have some := parts.mpr staffed
      rcases List.mem_cons.mp first with rfl | later
      · exact nonzero
      · rcases List.mem_cons.mp later with rfl | last
        · exact some
        · rw [List.mem_singleton.mp last]
          exact some
    · exact dispatchUses_defined narrow direct stealingDivision stealing divided.staff use rest

end Calls

/-! ## Every platform -/

/-- For every platform, build and pool: the pool is made, the caller is counted
as a worker, and a call divides by non-zero values and indexes the pool below
its size, if and only if the pool has room for the workers, the number of CPUs
has not been lost in the cast, and a call that needs a worker is not made on a
pool without any. -/
theorem pool_calls_defined_iff (selection : Selection) (setup : Setup selection.platform)
    (call : Call selection.bits) :
    (1 ≤ (numberOfWorkers setup.workerThreads).toNat ∧
      Exists fun size => createPool selection.platform setup.workerThreads = some size ∧
        forall use, use ∈ call.uses selection setup.workerThreads -> use.Defined size) ↔
    setup.Counted ∧ setup.Stored ∧ call.Divisible selection setup.Single := by
  have narrow : selection.bits ≤ 16 := by
    unfold Selection.bits
    cases selection.platform.concurrency <;> decide
  rw [numberOfWorkers_pos_iff, setup.counted_iff]
  refine and_congr_right (fun room => ?_)
  have made : forall size, createPool selection.platform setup.workerThreads = some size ↔
      setup.Stored ∧ size = setup.workerThreads.toNat := setup.createPool_iff (setup.counted_iff.mpr room)
  simp only [made, and_assoc, exists_and_left, exists_eq_left]
  refine and_congr_right (fun _ => ?_)
  cases call with
  | fire rotor advanced =>
      unfold Call.uses Call.Divisible
      dsimp only
      rw [setup.single_iff]
      by_cases direct : selection.direct = true
      · rw [if_pos direct, nextDispatchTarget_defined_iff]
        exact ⟨fun present _ => present, fun needed => needed direct⟩
      · rw [if_neg direct]
        exact ⟨fun _ isDirect => absurd isDirect direct, fun _ => nofun⟩
  | spread iterations parallelizable itemsInShop stealingDivision recursive =>
      unfold Call.uses Call.Divisible
      rw [setup.single_iff]
      exact @spreadUses_defined_iff _ narrow selection.direct
        ⟨setup.workerThreads, itemsInShop, stealingDivision.value, recursive, selection.platform.singleCore⟩
        iterations parallelizable stealingDivision rfl room

/-- A Linux build with all defaults. -/
def linuxBuild : Selection := ⟨.linux .other, true, false, nofun⟩

/-- In a container with a single CPU, the first item that is dispatched takes a
remainder by zero. -/
theorem single_cpu_fire_divides_by_zero :
    Not (forall use, use ∈ (Call.fire 0 none).uses linuxBuild
        (Setup.constructed 1 (Nat.le_refl 1) : Setup linuxBuild.platform).workerThreads ->
      use.Defined (Setup.constructed 1 (Nat.le_refl 1) : Setup linuxBuild.platform).workerThreads.toNat) := by
  intro defined
  exact defined (.divides 0) (by decide) rfl

end Pool
end Sweater
