import Sweater.Spread.ExactTiling

namespace Sweater
namespace Spread

open Machine
open Machine.Checked
open Threading

/-!
# A spread over clusters of different speeds

With `PSI_SWEATER_HMP` an idle shop gives each cluster of cores a share of the
iterations: its power's worth, but at least `parallelizable_iterations_count`
for each of its cores.  What the floors leave is added to the first share.  Each
share is then divided among the cores of its cluster, the first of which is the
caller's.

A share is the smaller of what is left and of the cluster's demand.  The shares
add up to less than the whole exactly when the demands do, so that the assertion
about the remainder is one about the demands.
-/

variable {bits : Nat}

/-- `max_clusters` -/
def maxClusters : Nat := 3

/-- `max_power` -/
def maxPower : Nat := 128

/-- The cores of one speed. -/
structure Cluster (bits : Nat) where
  cores : BitVec bits
  power : BitVec 8
  deriving DecidableEq, Repr

/-- `hmp_config`, as `configure_hmp` leaves it. -/
structure HmpConfig (bits : Nat) where
  clusters : List (Cluster bits)
  configured : clusters ≠ []
  few : clusters.length ≤ maxClusters
  staffed : forall cluster, cluster ∈ clusters -> 0 < cluster.cores.toNat
  normalized : (clusters.map fun cluster => cluster.power.toNat).sum = maxPower

/-! ## The shares -/

/-- `cluster_iterations` -/
def clusterIterations (iterations parallelizableIterationsCount iteration : BitVec 32) (cluster : Cluster bits) :
    Checked (BitVec 32) := do
  let product <- mul iterations (cluster.power.setWidth 32)
  let weightedClusterIterations <- div product (BitVec.ofNat 32 maxPower)
  let remainingIterations <- sub iterations iteration
  let granularity <- mul parallelizableIterationsCount (cluster.cores.setWidth 32)
  pure (BitVec.ofNat 32 (min remainingIterations.toNat (max weightedClusterIterations.toNat granularity.toNat)))

/-- The loop over the clusters: the shares, and how many iterations they take. -/
def distribute (iterations parallelizableIterationsCount : BitVec 32) :
    List (Cluster bits) -> BitVec 32 -> Checked (List (BitVec 32) × BitVec 32)
  | [], iteration => pure ([], iteration)
  | cluster :: rest, iteration => do
      let share <- clusterIterations iterations parallelizableIterationsCount iteration cluster
      if share = 0 then
        pure ([], iteration)
      else do
        let next <- add iteration share
        let (shares, last) <- distribute iterations parallelizableIterationsCount rest next
        pure (share :: shares, last)

/-- `hmp_distributions`, with the shares as they were before the remainder was added. -/
structure Distribution where
  shares : List (BitVec 32)
  remainingIterations : BitVec 32
  hmpDistributions : List (BitVec 32)
  deriving DecidableEq, Repr

def hmpDistributions (config : HmpConfig bits) (iterations parallelizableIterationsCount : BitVec 32) :
    Checked Distribution := do
  let (shares, iteration) <- distribute iterations parallelizableIterationsCount config.clusters 0
  assume (iteration ≤ iterations)
  assume (0 < shares.length ∧ shares.length ≤ maxClusters)
  let remainingIterations <- sub iterations iteration
  assume (remainingIterations < shares.getLastD 0)
  let strongest <- add (shares.headD 0) remainingIterations
  pure
    { shares := shares
      remainingIterations := remainingIterations
      hmpDistributions := strongest :: shares.tail }

/-! ## The dispatch -/

/-- The local variables of the loop that dispatches the shares. -/
structure HmpDispatching (bits : Nat) where
  callerThreadEndIteration : BitVec 32
  iteration : BitVec 32
  worker : BitVec bits
  dispatches : List (Dispatch bits)
  deriving DecidableEq, Repr

/-- One round: the share of one cluster, which may be the first. -/
def dispatchCluster (useCallerThread : Bool) (stealingDivision : BitVec 8) (iterations : BitVec 32) (first : Bool)
    (cluster : Cluster bits) (share : BitVec 32) (state : HmpDispatching bits) : Checked (HmpDispatching bits) := do
  let perCoreIterations <- div share (cluster.cores.setWidth 32)
  let partsWithExtraIteration <- rem share (cluster.cores.setWidth 32)
  if useCallerThread ∧ first then do
    assume (state.iteration = 0)
    let (callerEnd, others) <- callerShare true perCoreIterations partsWithExtraIteration
    let clusterCores <- sub cluster.cores 1
    let (_, final) <- dispatchWorkers stealingDivision state.worker callerEnd clusterCores perCoreIterations others
      iterations
    pure
      { callerThreadEndIteration := callerEnd
        iteration := final.iteration
        worker := final.workerIndex
        dispatches := state.dispatches ++ final.dispatches }
  else do
    let (_, final) <- dispatchWorkers stealingDivision state.worker state.iteration cluster.cores perCoreIterations
      partsWithExtraIteration iterations
    pure
      { state with
        iteration := final.iteration
        worker := final.workerIndex
        dispatches := state.dispatches ++ final.dispatches }

def dispatchClusters (useCallerThread : Bool) (stealingDivision : BitVec 8) (iterations : BitVec 32) :
    Bool -> List (Cluster bits × BitVec 32) -> HmpDispatching bits -> Checked (HmpDispatching bits)
  | _, [], state => pure state
  | first, (cluster, share) :: rest, state => do
      let next <- dispatchCluster useCallerThread stealingDivision iterations first cluster share state
      dispatchClusters useCallerThread stealingDivision iterations false rest next

/-- The branch of `spread_work` for a shop with clusters. -/
def spreadOverClusters (useCallerThread : Bool) (stealingDivision : BitVec 8) (config : HmpConfig bits)
    (iterations parallelizableIterationsCount : BitVec 32) : Checked (Distribution × HmpDispatching bits) := do
  let distribution <- hmpDistributions config iterations parallelizableIterationsCount
  let dispatched <- dispatchClusters useCallerThread stealingDivision iterations true
    (config.clusters.zip distribution.hmpDistributions)
    { callerThreadEndIteration := 0, iteration := 0, worker := 0, dispatches := [] }
  pure (distribution, dispatched)

/-- All the chunks that are going to be invoked. -/
def HmpDispatching.chunks (dispatched : HmpDispatching bits) : List Chunk :=
  Plan.callerChunk dispatched.callerThreadEndIteration ++ dispatched.dispatches.flatMap Dispatch.slices

/-! ## Demands -/

/-- What a cluster would take of `iterations` iterations, in exact numbers. -/
def demand (iterations parallelizable : Nat) (cluster : Cluster bits) : Nat :=
  max (iterations * cluster.power.toNat / maxPower) (parallelizable * cluster.cores.toNat)

/-- A cluster demands an iteration for each of its cores. -/
theorem cores_le_demand (iterations : Nat) {parallelizable : Nat} (divisible : 0 < parallelizable)
    (cluster : Cluster bits) : cluster.cores.toNat ≤ demand iterations parallelizable cluster :=
  Nat.le_trans (Nat.le_mul_of_pos_left _ divisible) (Nat.le_max_right _ _)

/-- No product leaves its 32 bits at a cluster whose turn comes while some of the
iterations are left, when `assigned` of them are gone. -/
def ProductsFit (iterations parallelizable : Nat) : Nat -> List (Cluster bits) -> Prop
  | _, [] => True
  | assigned, cluster :: rest =>
      assigned < iterations ->
      iterations * cluster.power.toNat < 2 ^ 32 ∧ parallelizable * cluster.cores.toNat < 2 ^ 32 ∧
        ProductsFit iterations parallelizable (assigned + demand iterations parallelizable cluster) rest

instance ProductsFit.decidable (iterations parallelizable : Nat) : forall (assigned : Nat) (clusters : List (Cluster bits)),
    Decidable (ProductsFit iterations parallelizable assigned clusters)
  | _, [] => inferInstanceAs (Decidable True)
  | assigned, cluster :: rest =>
      have := ProductsFit.decidable iterations parallelizable (assigned + demand iterations parallelizable cluster) rest
      inferInstanceAs (Decidable (_ -> _ ∧ _ ∧ _))

/-- With no iterations left nothing is asked of the products. -/
theorem ProductsFit.of_spent {iterations parallelizable assigned : Nat} (spent : iterations ≤ assigned)
    (clusters : List (Cluster bits)) : ProductsFit iterations parallelizable assigned clusters := by
  cases clusters with
  | nil => trivial
  | cons cluster rest => exact fun unfinished => absurd unfinished (Nat.not_lt.mpr spent)

/-- The shares that are given out in turn while `assigned` of the iterations are
gone, and how many are gone in the end. -/
inductive Shares (iterations parallelizable : Nat) :
    Nat -> List (Cluster bits) -> List (BitVec 32) -> Nat -> Prop
  | done (assigned : Nat) : Shares iterations parallelizable assigned [] [] assigned
  | spent (clusters : List (Cluster bits)) : Shares iterations parallelizable iterations clusters [] iterations
  | share {assigned last : Nat} {cluster : Cluster bits} {rest : List (Cluster bits)} {share : BitVec 32}
      {shares : List (BitVec 32)} :
      share.toNat = min (iterations - assigned) (demand iterations parallelizable cluster) -> 0 < share.toNat ->
      Shares iterations parallelizable (assigned + share.toNat) rest shares last ->
      Shares iterations parallelizable assigned (cluster :: rest) (share :: shares) last

section Distributing

variable {iterations parallelizable : BitVec 32} {clusters : List (Cluster bits)}

theorem clusterIterations_returns (narrow : bits ≤ 32) {iteration : BitVec 32} (cluster : Cluster bits)
    (weights : iterations.toNat * cluster.power.toNat < 2 ^ 32)
    (granules : parallelizable.toNat * cluster.cores.toNat < 2 ^ 32) (inside : iteration.toNat ≤ iterations.toNat) :
    Returns (clusterIterations iterations parallelizable iteration cluster) (fun share =>
      share.toNat = min (iterations.toNat - iteration.toNat) (demand iterations.toNat parallelizable.toNat cluster)) := by
  have power : (cluster.power.setWidth 32).toNat = cluster.power.toNat := toNat_setWidth_of_le (by decide) _
  have cores : (cluster.cores.setWidth 32).toNat = cluster.cores.toNat := toNat_setWidth_of_le narrow _
  have full : (BitVec.ofNat 32 maxPower).toNat = maxPower := rfl
  unfold clusterIterations
  apply returns_bind (returns_mul iterations _ (by rw [power]; exact weights))
  intro product productIs
  apply returns_bind (returns_div product _ (by decide))
  intro weighted weightedIs
  apply returns_bind (returns_sub iterations iteration inside)
  intro remaining remainingIs
  apply returns_bind (returns_mul parallelizable _ (by rw [cores]; exact granules))
  intro granularity granularityIs
  apply returns_pure
  have limit := remaining.isLt
  rw [BitVec.toNat_ofNat, Nat.mod_eq_of_lt (by omega), remainingIs, weightedIs, granularityIs, productIs, power, cores,
    full, demand]

/-- Whatever the products are, a cluster gets nothing when nothing is left. -/
theorem clusterIterations_spent {iteration : BitVec 32} (cluster : Cluster bits) (spent : iteration.toNat = iterations.toNat) :
    Yields (clusterIterations iterations parallelizable iteration cluster) (fun share => share.toNat = 0) := by
  unfold clusterIterations
  apply yields_bind (yields_mul iterations _)
  intro product _
  apply yields_bind (returns_div product _ (by decide)).yields
  intro weighted _
  apply yields_bind (returns_sub iterations iteration (Nat.le_of_eq spent)).yields
  intro remaining remainingIs
  apply yields_bind (yields_mul parallelizable _)
  intro granularity _
  refine (returns_pure ?_).yields
  rw [remainingIs, spent, Nat.sub_self, Nat.zero_min]
  rfl

theorem clusterIterations_yields (narrow : bits ≤ 32) {iteration : BitVec 32} {cluster : Cluster bits}
    {rest : List (Cluster bits)} (fit : ProductsFit iterations.toNat parallelizable.toNat iteration.toNat (cluster :: rest))
    (inside : iteration.toNat ≤ iterations.toNat) :
    Yields (clusterIterations iterations parallelizable iteration cluster) (fun share =>
      share.toNat = min (iterations.toNat - iteration.toNat) (demand iterations.toNat parallelizable.toNat cluster)) := by
  rcases Nat.lt_or_eq_of_le inside with unfinished | spent
  · obtain ⟨weights, granules, _⟩ := fit unfinished
    exact (clusterIterations_returns narrow cluster weights granules inside).yields
  · rw [spent, Nat.sub_self, Nat.zero_min]
    exact clusterIterations_spent cluster spent

theorem distribute_yields (narrow : bits ≤ 32) {iteration : BitVec 32}
    (fit : ProductsFit iterations.toNat parallelizable.toNat iteration.toNat clusters)
    (staffed : forall cluster, cluster ∈ clusters -> 0 < parallelizable.toNat * cluster.cores.toNat)
    (inside : iteration.toNat ≤ iterations.toNat) :
    Yields (distribute iterations parallelizable clusters iteration) (fun result =>
      Shares iterations.toNat parallelizable.toNat iteration.toNat clusters result.1 result.2.toNat) := by
  induction clusters generalizing iteration with
  | nil => exact (returns_pure (.done _)).yields
  | cons cluster rest inductionHypothesis =>
      have here := List.mem_cons_self (a := cluster) (l := rest)
      rw [distribute]
      apply yields_bind (clusterIterations_yields narrow fit inside)
      intro share shareIs
      have wanted : 0 < demand iterations.toNat parallelizable.toNat cluster :=
        Nat.lt_of_lt_of_le (staffed _ here) (Nat.le_max_right _ _)
      by_cases empty : share = 0
      · rw [if_pos empty]
        have zero : share.toNat = 0 := by
          rw [empty]
          rfl
        have all : iteration.toNat = iterations.toNat := by omega
        refine (returns_pure ?_).yields
        dsimp only
        rw [all]
        exact .spent _
      · rw [if_neg empty]
        have positive : 0 < share.toNat := by
          apply Nat.pos_of_ne_zero
          intro zero
          exact empty (BitVec.eq_of_toNat_eq zero)
        have limit := iterations.isLt
        apply yields_bind (returns_add iteration share (by omega)).yields
        intro next nextIs
        have later : ProductsFit iterations.toNat parallelizable.toNat next.toNat rest := by
          rcases Nat.lt_or_ge next.toNat iterations.toNat with unfinished | spent
          · have all : next.toNat = iteration.toNat + demand iterations.toNat parallelizable.toNat cluster := by omega
            rw [all]
            exact (fit (by omega)).2.2
          · exact .of_spent spent rest
        apply yields_bind (inductionHypothesis later
          (fun other member => staffed other (List.mem_cons_of_mem _ member)) (by omega))
        rintro ⟨shares, last⟩ distributed
        rw [nextIs] at distributed
        exact (returns_pure (.share shareIs positive distributed)).yields

end Distributing

namespace Shares

variable {iterations parallelizable assigned last : Nat} {clusters : List (Cluster bits)} {shares : List (BitVec 32)}

theorem sum (given : Shares iterations parallelizable assigned clusters shares last) :
    assigned + (shares.map BitVec.toNat).sum = last := by
  induction given with
  | done assigned => rfl
  | spent clusters => rfl
  | share shareIs positive later inductionHypothesis =>
      rw [List.map_cons, List.sum_cons, ← Nat.add_assoc]
      exact inductionHypothesis

theorem positive (given : Shares iterations parallelizable assigned clusters shares last) :
    forall share, share ∈ shares -> 0 < share.toNat := by
  induction given with
  | done assigned => exact nofun
  | spent clusters => exact nofun
  | share shareIs positive later inductionHypothesis =>
      intro other member
      rcases List.mem_cons.mp member with rfl | member
      · exact positive
      · exact inductionHypothesis other member

theorem length_le (given : Shares iterations parallelizable assigned clusters shares last) :
    shares.length ≤ clusters.length := by
  induction given with
  | done assigned => exact Nat.le_refl _
  | spent clusters => exact Nat.zero_le _
  | share shareIs positive later inductionHypothesis => exact Nat.succ_le_succ inductionHypothesis

/-- The iterations run out, or all demands are met. -/
theorem all_or_met (given : Shares iterations parallelizable assigned clusters shares last)
    (inside : assigned ≤ iterations) :
    (last = iterations ∧ iterations ≤ assigned + (clusters.map (demand iterations parallelizable)).sum) ∨
      (shares.map BitVec.toNat = clusters.map (demand iterations parallelizable) ∧ last ≤ iterations) := by
  induction given with
  | done assigned => exact Or.inr ⟨rfl, inside⟩
  | spent clusters => exact Or.inl ⟨rfl, Nat.le_add_right _ _⟩
  | share shareIs positive later inductionHypothesis =>
      rw [List.map_cons, List.map_cons, List.sum_cons]
      rcases inductionHypothesis (by omega) with ⟨all, short⟩ | ⟨met, bounded⟩
      · exact Or.inl ⟨all, by omega⟩
      · have total := later.sum
        rw [met] at total
        rcases Nat.le_total (demand iterations parallelizable _) (iterations - _) with room | scarce
        · rw [Nat.min_eq_right room] at shareIs
          exact Or.inr ⟨by rw [shareIs, met], bounded⟩
        · rw [Nat.min_eq_left scarce] at shareIs
          exact Or.inl ⟨by omega, by omega⟩

/-- As long as something is left, the next cluster gets a share. -/
theorem next {cluster : Cluster bits} {rest : List (Cluster bits)}
    (given : Shares iterations parallelizable assigned (cluster :: rest) shares last) (unfinished : assigned < iterations) :
    Exists fun share => Exists fun others => shares = share :: others ∧ 0 < share.toNat ∧
      Shares iterations parallelizable (assigned + share.toNat) rest others last := by
  cases given with
  | spent => exact absurd unfinished (Nat.lt_irrefl _)
  | share shareIs positive later => exact ⟨_, _, rfl, positive, later⟩

/-- Each share in terms of what was left before it. -/
theorem share_eq (given : Shares iterations parallelizable assigned clusters shares last) :
    forall (index : Nat) (cluster : Cluster bits) (share : BitVec 32), clusters[index]? = some cluster ->
      shares[index]? = some share ->
      share.toNat = min (iterations - (assigned + ((shares.take index).map BitVec.toNat).sum))
        (demand iterations parallelizable cluster) := by
  induction given with
  | done assigned => exact nofun
  | spent clusters => exact fun _ _ _ _ => nofun
  | share shareIs positive later inductionHypothesis =>
      intro index cluster share here given
      cases index with
      | zero =>
          cases here
          cases given
          exact shareIs
      | succ index =>
          rw [List.take_succ_cons, List.map_cons, List.sum_cons, ← Nat.add_assoc]
          exact inductionHypothesis index cluster share here given

end Shares

/-- Shares that can be dispatched from `base` on: all cores of a cluster get
something, unless it is the last one to be served. -/
inductive Serves (iterations : Nat) : Nat -> List (Cluster bits × BitVec 32) -> Prop
  | done : Serves iterations iterations []
  | share {base : Nat} {cluster : Cluster bits} {share : BitVec 32} {rest : List (Cluster bits × BitVec 32)} :
      0 < share.toNat -> cluster.cores.toNat ≤ share.toNat ∨ base + share.toNat = iterations ->
      Serves iterations (base + share.toNat) rest -> Serves iterations base ((cluster, share) :: rest)

theorem Serves.le {iterations base : Nat} {pairs : List (Cluster bits × BitVec 32)}
    (serves : Serves iterations base pairs) : base ≤ iterations := by
  induction serves with
  | done => exact Nat.le_refl _
  | share positive enough later inductionHypothesis => omega

/-- The shares after the first one, when `remaining` iterations have been added to that. -/
theorem Shares.serves {iterations parallelizable assigned last remaining : Nat} {clusters : List (Cluster bits)}
    {shares : List (BitVec 32)} (given : Shares iterations parallelizable assigned clusters shares last)
    (some_ : 0 < parallelizable) (whole : last + remaining = iterations) :
    Serves iterations (assigned + remaining) (clusters.zip shares) := by
  induction given with
  | done assigned =>
      rw [whole]
      exact .done
  | spent clusters =>
      rw [List.zip_nil_right, whole]
      exact .done
  | @share assigned last cluster rest share shares shareIs positive later inductionHypothesis =>
      have total := later.sum
      have granule := cores_le_demand iterations some_ cluster
      rw [List.zip_cons_cons]
      refine .share positive ?_ ?_
      · omega
      · rw [Nat.add_right_comm]
        exact inductionHypothesis whole

/-! ## Dispatching the shares -/

/-- How far the loop over the cores of a cluster has come. -/
structure Dispatching.Advanced (base parts : Nat) (iterationsPerPart partsWithExtraIteration : BitVec 32)
    (state : Dispatching bits) : Prop where
  inside : state.workPart.toNat ≤ parts
  position : state.iteration.toNat =
    cut base iterationsPerPart.toNat partsWithExtraIteration.toNat state.workPart.toNat
  tiles : Tiles base state.iteration.toNat ((state.dispatches.flatMap Dispatch.slices).map Chunk.bounds)
  sliced : forall dispatch, dispatch ∈ state.dispatches -> dispatch.slices ≠ []

section Dispatching

variable {base parts : Nat} {iterationsPerPart partsWithExtraIteration iterations : BitVec 32}

theorem dispatchPart_yields (sliceDiv : BitVec 8)
    (fits : cut base iterationsPerPart.toNat partsWithExtraIteration.toNat parts < 2 ^ 32)
    (small : sliceDiv.toNat < 2 ^ bits) (some_ : 0 < sliceDiv.toNat)
    (fine : sliceDiv.toNat ≤ max iterationsPerPart.toNat 1) (counted : parts < 2 ^ 32) (state : Dispatching bits)
    (holds : state.Advanced base parts iterationsPerPart partsWithExtraIteration)
    (more : state.workPart.toNat < parts)
    (nonempty : 0 < iterationsPerPart.toNat ∨ state.workPart.toNat < partsWithExtraIteration.toNat) :
    Yields (dispatchPart sliceDiv iterationsPerPart partsWithExtraIteration state) (fun next =>
      next.Advanced base parts iterationsPerPart partsWithExtraIteration ∧
        parts - next.workPart.toNat < parts - state.workPart.toNat) := by
  have value := toNat_extraIteration (decide (state.workPart < partsWithExtraIteration))
  have extra : 0 < iterationsPerPart.toNat ∨
      (extraIteration (decide (state.workPart < partsWithExtraIteration))).toNat = 1 := by
    rcases nonempty with full | early
    · exact Or.inl full
    · right
      rw [value, if_pos (decide_eq_true (BitVec.lt_def.mpr early))]
  unfold dispatchPart
  apply yields_bind (returns_partEnd fits more state.iteration holds.position
    (decide (state.workPart < partsWithExtraIteration)) (by simp only [BitVec.lt_def])).yields
  intro partIterations ending
  apply yields_bind ending.yields
  intro endIteration ⟨endAtCut, endIs⟩
  have limit := endIteration.isLt
  apply yields_bind (returns_add iterationsPerPart _ (by omega)).yields
  intro length lengthIs
  apply yields_bind (slices_returns sliceDiv state.iteration endIteration length small some_ (by omega)
    (by omega)).yields
  intro sliceIter remainder
  apply yields_bind remainder.yields
  intro firstExtra slicing
  apply yields_bind slicing.yields
  rintro sliced ⟨counting, lengthAll, tiles⟩
  apply yields_bind (returns_assume counting).yields
  intro _ _
  apply yields_bind (yields_add state.workerIndex 1)
  intro workerIndex _
  apply yields_bind (returns_increment state.workPart (by omega)).yields
  intro workPart workPartIs
  refine (returns_pure ?_).yields
  refine ⟨⟨?_, ?_, ?_, ?_⟩, ?_⟩
  · change workPart.toNat ≤ parts
    omega
  · change endIteration.toNat = cut _ _ _ workPart.toNat
    rw [workPartIs]
    exact endAtCut
  · change Tiles base endIteration.toNat (((state.dispatches ++ [_]).flatMap Dispatch.slices).map Chunk.bounds)
    rw [List.flatMap_append, List.map_append, List.flatMap_singleton]
    exact holds.tiles.append tiles
  · intro dispatch member
    rcases List.mem_append.mp member with earlier | last
    · exact holds.sliced dispatch earlier
    · rw [List.mem_singleton.mp last]
      refine List.ne_nil_of_length_pos ?_
      change 0 < sliced.slices.length
      omega
  · change parts - workPart.toNat < _
    omega

theorem sliceDivision_max (stealingDivision : BitVec 8) (iterationsPerPart : BitVec 32) :
    Returns (sliceDivision stealingDivision iterationsPerPart) (fun sliceDiv =>
      sliceDiv.toNat = min stealingDivision.toNat (max iterationsPerPart.toNat 1)) := by
  have limit := stealingDivision.isLt
  have value : (BitVec.ofNat 32 (min stealingDivision.toNat (max iterationsPerPart.toNat 1))).toNat =
      min stealingDivision.toNat (max iterationsPerPart.toNat 1) := by
    rw [BitVec.toNat_ofNat, Nat.mod_eq_of_lt (by omega)]
  apply Returns.mono (returns_narrow 8 _ (by omega))
  intro sliceDiv sliceDivIs
  rw [sliceDivIs, value]

/-- The parts of one cluster, which has an iteration for each of them or is the
last one to get any. -/
theorem dispatchWorkers_yields (stealingDivision : BitVec 8) (worker : BitVec bits) (iteration : BitVec 32)
    (maxParts : BitVec bits) {stop : Nat} (wide : 8 ≤ bits) (narrow : bits ≤ 32)
    (low : stealingDivisionMin ≤ stealingDivision.toNat) (high : stealingDivision.toNat ≤ stealingDivisionMax)
    (whole : iteration.toNat + maxParts.toNat * iterationsPerPart.toNat + partsWithExtraIteration.toNat = stop)
    (few : partsWithExtraIteration.toNat ≤ maxParts.toNat) (inside : stop ≤ iterations.toNat)
    (enough : 0 < iterationsPerPart.toNat ∨ stop = iterations.toNat) :
    Yields (dispatchWorkers stealingDivision worker iteration maxParts iterationsPerPart partsWithExtraIteration
      iterations) (fun result => result.2.iteration.toNat = stop ∧
        Tiles iteration.toNat stop ((result.2.dispatches.flatMap Dispatch.slices).map Chunk.bounds) ∧
        forall dispatch, dispatch ∈ result.2.dispatches -> dispatch.slices ≠ []) := by
  have octets : 2 ^ 8 ≤ 2 ^ bits := Nat.pow_le_pow_right (by decide) wide
  have words : 2 ^ bits ≤ 2 ^ 32 := Nat.pow_le_pow_right (by decide) narrow
  have workers := maxParts.isLt
  have limit := iterations.isLt
  have ending : cut iteration.toNat iterationsPerPart.toNat partsWithExtraIteration.toNat maxParts.toNat = stop := by
    rw [cut_last _ _ _ few, whole]
  unfold dispatchWorkers
  apply yields_bind (returns_assume low).yields
  intro _ _
  apply yields_bind (returns_assume high).yields
  intro _ _
  apply yields_bind (sliceDivision_max stealingDivision iterationsPerPart).yields
  intro sliceDiv sliceDivIs
  have octet := sliceDiv.isLt
  unfold stealingDivisionMin at low
  have start : Dispatching.Advanced iteration.toNat maxParts.toNat iterationsPerPart partsWithExtraIteration
      ({ workPart := 0, workerIndex := worker, iteration := iteration, dispatches := [] } : Dispatching bits) := by
    constructor
    · simp
    · simp [cut_zero]
    · exact .nil _
    · exact nofun
  have loops := yields_loop
    (fun state : Dispatching bits => decide (state.workPart.toNat < maxParts.toNat ∧ state.iteration ≠ iterations))
    (fun state : Dispatching bits => state.Advanced iteration.toNat maxParts.toNat iterationsPerPart
      partsWithExtraIteration)
    (fun state => maxParts.toNat - state.workPart.toNat)
    (fun state holds more => by
      obtain ⟨fewer, unfinished⟩ := of_decide_eq_true more
      refine dispatchPart_yields sliceDiv (by omega) (by omega) (by omega) (by omega) (by omega) state holds fewer ?_
      rcases enough with full | last
      · exact Or.inl full
      -- Without a full round only the parts with an extra iteration are reached.
      · by_cases none_ : iterationsPerPart.toNat = 0
        · right
          by_contra late
          refine unfinished (BitVec.eq_of_toNat_eq ?_)
          have position := holds.position
          rw [cut, none_, Nat.mul_zero, Nat.min_eq_right (by omega)] at position
          rw [none_, Nat.mul_zero] at whole
          omega
        · exact Or.inl (Nat.pos_of_ne_zero none_))
    fuel _ start (by rw [fuel_eq]; omega)
  apply yields_bind loops
  rintro final ⟨holds, done⟩
  have stopped := of_decide_eq_false done
  have position := holds.position
  have bound := cut_le_cut iteration.toNat iterationsPerPart.toNat partsWithExtraIteration.toNat _ holds.inside
  have finished : final.iteration.toNat = stop := by
    by_cases all : final.workPart.toNat = maxParts.toNat
    · rw [position, all, ending]
    · have reached : final.iteration = iterations := by
        by_contra unfinished
        exact stopped ⟨Nat.lt_of_le_of_ne holds.inside all, unfinished⟩
      rw [reached] at position ⊢
      omega
  exact (returns_pure ⟨finished, finished ▸ holds.tiles, holds.sliced⟩).yields

/-- What the loop over the clusters keeps: everything up to here has been given out. -/
structure HmpDispatching.Tiled (state : HmpDispatching bits) : Prop where
  tiles : Tiles 0 state.iteration.toNat (state.chunks.map Chunk.bounds)
  sliced : forall dispatch, dispatch ∈ state.dispatches -> dispatch.slices ≠ []

/-- The caller's part of a share. -/
theorem callerShare_splits {perCore extras share : BitVec 32} {cores : Nat} (some_ : 0 < cores) (positive : 0 < share.toNat)
    (few : extras.toNat < cores) (whole : cores * perCore.toNat + extras.toNat = share.toNat) :
    Returns (callerShare true perCore extras) (fun divided =>
      divided.1.toNat + (cores - 1) * perCore.toNat + divided.2.toNat = share.toNat ∧
        divided.2.toNat ≤ cores - 1) := by
  rcases Nat.exists_eq_succ_of_ne_zero (Nat.ne_of_gt some_) with ⟨others, rfl⟩
  rw [Nat.succ_mul] at whole
  have limit := share.isLt
  have extraIs : (extraIteration (decide (extras ≠ 0))).toNat = if extras.toNat = 0 then 0 else 1 := by
    rw [toNat_extraIteration]
    by_cases none_ : extras = 0
    · subst none_
      rfl
    · have positive : extras.toNat ≠ 0 := fun zero => none_ (BitVec.eq_of_toNat_eq zero)
      rw [if_neg positive, decide_eq_true none_, if_pos rfl]
  have bounded : (extraIteration (decide (extras ≠ 0))).toNat ≤ extras.toNat := by
    rw [extraIs]
    split <;> omega
  have idle : perCore.toNat = 0 -> others * perCore.toNat = 0 := by
    intro zero
    rw [zero, Nat.mul_zero]
  unfold callerShare
  rw [if_pos rfl]
  apply returns_bind (returns_add perCore _ (by omega))
  intro callerEnd callerIs
  apply returns_bind (returns_sub extras _ bounded)
  intro rest restIs
  apply returns_pure
  rw [Nat.succ_sub_one]
  dsimp only
  rw [extraIs] at callerIs restIs
  constructor
  · split at callerIs <;> split at restIs <;> omega
  · split at restIs <;> omega

theorem dispatchCluster_yields (useCallerThread : Bool) (stealingDivision : BitVec 8) (first : Bool)
    (cluster : Cluster bits) (share : BitVec 32) (state : HmpDispatching bits) (wide : 8 ≤ bits) (narrow : bits ≤ 32)
    (low : stealingDivisionMin ≤ stealingDivision.toNat) (high : stealingDivision.toNat ≤ stealingDivisionMax)
    (staffed : 0 < cluster.cores.toNat) (holds : state.Tiled)
    (fresh : first = true -> state.iteration = 0 ∧ state.dispatches = []) (positive : 0 < share.toNat)
    (enough : cluster.cores.toNat ≤ share.toNat ∨ state.iteration.toNat + share.toNat = iterations.toNat)
    (inside : state.iteration.toNat + share.toNat ≤ iterations.toNat) :
    Yields (dispatchCluster useCallerThread stealingDivision iterations first cluster share state) (fun next =>
      next.Tiled ∧ next.iteration.toNat = state.iteration.toNat + share.toNat) := by
  have cores : (cluster.cores.setWidth 32).toNat = cluster.cores.toNat := toNat_setWidth_of_le narrow _
  unfold dispatchCluster
  apply yields_bind (returns_div share _ (by omega)).yields
  intro perCore perCoreIs
  apply yields_bind (returns_rem share _ (by omega)).yields
  intro extras extrasIs
  rw [cores] at perCoreIs extrasIs
  have divided := Nat.div_add_mod share.toNat cluster.cores.toNat
  have few := Nat.mod_lt share.toNat staffed
  rw [← perCoreIs, ← extrasIs] at divided
  rw [← extrasIs] at few
  have full : 0 < perCore.toNat ∨ state.iteration.toNat + share.toNat = iterations.toNat := by
    rcases enough with each | last
    · left
      rw [perCoreIs]
      exact Nat.div_pos each staffed
    · exact Or.inr last
  by_cases callers : useCallerThread = true ∧ first = true
  · obtain ⟨start, empty⟩ := fresh callers.2
    have zero : state.iteration.toNat = 0 := by
      rw [start]
      rfl
    rw [if_pos callers]
    apply yields_bind (returns_assume start).yields
    intro _ _
    apply yields_bind (callerShare_splits staffed positive few divided).yields
    rintro ⟨callerEnd, others⟩ ⟨whole, fewer⟩
    dsimp only at whole fewer
    have one : (1 : BitVec bits).toNat = 1 := by
      rw [BitVec.ofNat_eq_ofNat, BitVec.toNat_ofNat]
      exact Nat.mod_eq_of_lt (Nat.one_lt_two_pow (by omega))
    apply yields_bind (returns_sub cluster.cores 1 (by omega)).yields
    intro rest restIs
    rw [one] at restIs
    rw [← restIs] at whole fewer
    apply yields_bind (dispatchWorkers_yields stealingDivision state.worker callerEnd rest wide narrow low high
      whole fewer (by omega) (by omega))
    rintro ⟨sliceDiv, final⟩ ⟨reached, tiles, sliced⟩
    refine (returns_pure ⟨⟨?_, ?_⟩, ?_⟩).yields
    · change Tiles 0 final.iteration.toNat ((Plan.callerChunk callerEnd ++
        (state.dispatches ++ final.dispatches).flatMap Dispatch.slices).map Chunk.bounds)
      rw [empty, List.nil_append, List.map_append, reached]
      exact (tiles_callerChunk callerEnd).append tiles
    · change forall dispatch, dispatch ∈ state.dispatches ++ final.dispatches -> dispatch.slices ≠ []
      rw [empty, List.nil_append]
      exact sliced
    · change final.iteration.toNat = _
      rw [reached, zero, Nat.zero_add]
  · have whole : state.iteration.toNat + cluster.cores.toNat * perCore.toNat + extras.toNat =
        state.iteration.toNat + share.toNat := by
      rw [Nat.add_assoc, divided]
    rw [if_neg callers]
    apply yields_bind (dispatchWorkers_yields stealingDivision state.worker state.iteration cluster.cores wide narrow low
      high whole (Nat.le_of_lt few) inside full)
    rintro ⟨sliceDiv, final⟩ ⟨reached, tiles, sliced⟩
    refine (returns_pure ⟨⟨?_, ?_⟩, reached⟩).yields
    · change Tiles 0 final.iteration.toNat ((Plan.callerChunk state.callerThreadEndIteration ++
        (state.dispatches ++ final.dispatches).flatMap Dispatch.slices).map Chunk.bounds)
      rw [List.flatMap_append, ← List.append_assoc, List.map_append, reached]
      exact holds.tiles.append tiles
    · intro dispatch member
      rcases List.mem_append.mp member with earlier | later
      · exact holds.sliced dispatch earlier
      · exact sliced dispatch later

theorem dispatchClusters_yields (useCallerThread : Bool) (stealingDivision : BitVec 8) (wide : 8 ≤ bits)
    (narrow : bits ≤ 32) (low : stealingDivisionMin ≤ stealingDivision.toNat)
    (high : stealingDivision.toNat ≤ stealingDivisionMax) {pairs : List (Cluster bits × BitVec 32)} {from_ : Nat}
    (serves : Serves iterations.toNat from_ pairs) (staffed : forall pair, pair ∈ pairs -> 0 < pair.1.cores.toNat)
    (first : Bool) (state : HmpDispatching bits) (here : state.iteration.toNat = from_) (holds : state.Tiled)
    (fresh : first = true -> state.iteration = 0 ∧ state.dispatches = []) :
    Yields (dispatchClusters useCallerThread stealingDivision iterations first pairs state) (fun final =>
      final.Tiled ∧ final.iteration.toNat = iterations.toNat) := by
  induction serves generalizing first state with
  | done => exact (returns_pure ⟨holds, here⟩).yields
  | @share from_ cluster share rest positive enough later inductionHypothesis =>
      have inside := later.le
      rw [dispatchClusters]
      apply yields_bind (dispatchCluster_yields useCallerThread stealingDivision first cluster share state wide narrow
        low high (staffed _ (List.mem_cons_self ..)) holds fresh positive (by rw [here]; exact enough)
        (by rw [here]; exact inside))
      rintro next ⟨tiled, reached⟩
      exact inductionHypothesis (fun pair member => staffed pair (List.mem_cons_of_mem _ member)) false next
        (by rw [reached, here]) tiled nofun

end Dispatching

/-! ## The whole branch -/

/-- What the shares are required to be. -/
structure Distribution.Exact (config : HmpConfig bits) (iterations : BitVec 32) (distribution : Distribution) :
    Prop where
  positive : forall share, share ∈ distribution.hmpDistributions -> 0 < share.toNat
  whole : (distribution.hmpDistributions.map BitVec.toNat).sum = iterations.toNat
  /-- the cluster's weight, or all that was left when its turn came -/
  weighted : forall (index : Nat) (cluster : Cluster bits) (share : BitVec 32),
    config.clusters[index]? = some cluster -> distribution.hmpDistributions[index]? = some share ->
    min (iterations.toNat - ((distribution.shares.take index).map BitVec.toNat).sum)
      (iterations.toNat * cluster.power.toNat / maxPower) ≤ share.toNat
  remainder : distribution.remainingIterations < distribution.shares.getLastD 0

/-- The shares are exact, and the chunks of the caller and of the workers tile the iterations. -/
def Distributes (useCallerThread : Bool) (stealingDivision : BitVec 8) (config : HmpConfig bits)
    (iterations parallelizable : BitVec 32) : Prop :=
  Yields (spreadOverClusters useCallerThread stealingDivision config iterations parallelizable) (fun outcome =>
    outcome.1.Exact config iterations ∧
      Tiles 0 iterations.toNat (outcome.2.chunks.map Chunk.bounds) ∧
      forall dispatch, dispatch ∈ outcome.2.dispatches -> dispatch.slices ≠ [])

/-- What all clusters together demand. -/
def HmpConfig.demands (config : HmpConfig bits) (iterations parallelizable : Nat) : List Nat :=
  config.clusters.map (demand iterations parallelizable)

section Whole

variable {config : HmpConfig bits} {iterations parallelizable : BitVec 32}

theorem getLastD_mem {α : Type} {entries : List α} (some_ : entries ≠ []) (fallback : α) :
    entries.getLastD fallback ∈ entries := by
  cases entries with
  | nil => exact absurd rfl some_
  | cons head tail =>
      rw [List.getLastD_cons]
      exact List.getLastD_mem_cons

theorem HmpConfig.demand_pos (divisible : 0 < parallelizable.toNat) {cluster : Cluster bits}
    (member : cluster ∈ config.clusters) : 0 < demand iterations.toNat parallelizable.toNat cluster :=
  Nat.lt_of_lt_of_le (Nat.mul_pos divisible (config.staffed cluster member)) (Nat.le_max_right _ _)

/-- The assertion about the remainder, in terms of the demands. -/
theorem Shares.remainder_iff {shares : List (BitVec 32)} {last : Nat}
    (given : Shares iterations.toNat parallelizable.toNat 0 config.clusters shares last) (some_ : 0 < iterations.toNat)
    (divisible : 0 < parallelizable.toNat) :
    iterations.toNat - last < (shares.getLastD 0).toNat ↔
      iterations.toNat < (config.demands iterations.toNat parallelizable.toNat).sum +
        (config.demands iterations.toNat parallelizable.toNat).getLastD 0 := by
  have total := given.sum
  rcases given.all_or_met (Nat.zero_le _) with ⟨all, short⟩ | ⟨met, bounded⟩
  · have served : shares ≠ [] := by
      rintro rfl
      change 0 + 0 = last at total
      omega
    have positive := given.positive _ (getLastD_mem served 0)
    have wanted : 0 < (config.demands iterations.toNat parallelizable.toNat).getLastD 0 := by
      have asked : config.demands iterations.toNat parallelizable.toNat ≠ [] := by
        intro none_
        exact config.configured (List.map_eq_nil_iff.mp none_)
      have member := getLastD_mem asked 0
      obtain ⟨cluster, clusterIn, clusterIs⟩ := List.mem_map.mp member
      rw [← clusterIs]
      exact config.demand_pos divisible clusterIn
    rw [HmpConfig.demands] at wanted ⊢
    omega
  · have lasts : (shares.getLastD 0).toNat = (config.demands iterations.toNat parallelizable.toNat).getLastD 0 := by
      rw [HmpConfig.demands, ← met]
      exact List.getLastD_map.symm
    rw [met] at total
    rw [lasts, HmpConfig.demands]
    omega

theorem HmpConfig.distribute_yields (narrow : bits ≤ 32) (divisible : 0 < parallelizable.toNat)
    (fit : ProductsFit iterations.toNat parallelizable.toNat 0 config.clusters) :
    Yields (distribute iterations parallelizable config.clusters 0) (fun result =>
      Shares iterations.toNat parallelizable.toNat 0 config.clusters result.1 result.2.toNat) :=
  Spread.distribute_yields narrow fit (fun cluster member => Nat.mul_pos divisible (config.staffed cluster member))
    (Nat.zero_le _)

/-- The assertion about the remainder holds of every result. -/
theorem hmpDistributions_ensures (narrow : bits ≤ 32) (some_ : 0 < iterations.toNat)
    (divisible : 0 < parallelizable.toNat) (fit : ProductsFit iterations.toNat parallelizable.toNat 0 config.clusters) :
    Ensures (hmpDistributions config iterations parallelizable) (fun _ =>
      iterations.toNat < (config.demands iterations.toNat parallelizable.toNat).sum +
        (config.demands iterations.toNat parallelizable.toNat).getLastD 0) := by
  unfold hmpDistributions
  refine ensures_bind (config.distribute_yields narrow divisible fit).ensures ?_
  rintro ⟨shares, iteration⟩ given
  refine ensures_bind (ensures_assume (iteration ≤ iterations)) ?_
  intro _ inside
  refine ensures_bind (ensures_assume (0 < shares.length ∧ shares.length ≤ maxClusters)) ?_
  intro _ _
  refine ensures_bind (returns_sub iterations iteration (BitVec.le_def.mp inside)).ensures ?_
  intro remaining remainingIs
  refine ensures_bind (ensures_assume (remaining < shares.getLastD 0)) ?_
  intro _ less
  rw [BitVec.lt_def, remainingIs] at less
  exact fun _ _ _ => (given.remainder_iff some_ divisible).mp less

/-- With the assertion about the remainder the shares are exact, and they can be dispatched. -/
theorem hmpDistributions_yields (narrow : bits ≤ 32) (some_ : 0 < iterations.toNat)
    (divisible : 0 < parallelizable.toNat) (fit : ProductsFit iterations.toNat parallelizable.toNat 0 config.clusters)
    (small : iterations.toNat < (config.demands iterations.toNat parallelizable.toNat).sum +
      (config.demands iterations.toNat parallelizable.toNat).getLastD 0) :
    Yields (hmpDistributions config iterations parallelizable) (fun distribution =>
      distribution.Exact config iterations ∧
        Serves iterations.toNat 0 (config.clusters.zip distribution.hmpDistributions)) := by
  unfold hmpDistributions
  apply yields_bind (config.distribute_yields narrow divisible fit)
  rintro ⟨shares, iteration⟩ given
  dsimp only at given
  have inside : iteration.toNat ≤ iterations.toNat := by
    rcases given.all_or_met (Nat.zero_le _) with ⟨all, _⟩ | ⟨_, bounded⟩
    · exact Nat.le_of_eq all
    · exact bounded
  apply yields_bind (returns_assume (BitVec.le_def.mpr inside)).yields
  intro _ _
  have total := given.sum
  obtain ⟨cluster, rest, clustersAre⟩ := List.exists_cons_of_ne_nil config.configured
  have first := given
  rw [clustersAre] at first
  obtain ⟨strongest, others, rfl, positive, later⟩ := first.next some_
  apply yields_bind (returns_assume ⟨Nat.succ_pos _, Nat.le_trans given.length_le config.few⟩).yields
  intro _ _
  apply yields_bind (returns_sub iterations iteration inside).yields
  intro remaining remainingIs
  have less := (given.remainder_iff some_ divisible).mpr small
  rw [← remainingIs] at less
  apply yields_bind (returns_assume (BitVec.lt_def.mpr less)).yields
  intro _ _
  have total := given.sum
  rw [List.map_cons, List.sum_cons, Nat.zero_add] at total
  have limit := iterations.isLt
  have room : strongest.toNat + remaining.toNat < 2 ^ 32 := by omega
  apply yields_bind (returns_add strongest remaining room).yields
  intro share shareIs
  refine (returns_pure ?_).yields
  refine ⟨⟨?_, ?_, ?_, BitVec.lt_def.mpr less⟩, ?_⟩
  · intro other member
    rcases List.mem_cons.mp member with rfl | member
    · omega
    · exact later.positive other member
  · change ((share :: others).map BitVec.toNat).sum = _
    rw [List.map_cons, List.sum_cons]
    omega
  · intro index owner part ownerIs partIs
    have weight : iterations.toNat * owner.power.toNat / maxPower ≤ demand iterations.toNat parallelizable.toNat owner :=
      Nat.le_max_left _ _
    cases index with
    | zero =>
        cases partIs
        have own : strongest.toNat = min (iterations.toNat - 0) (demand iterations.toNat parallelizable.toNat owner) :=
          given.share_eq 0 owner strongest ownerIs rfl
        change min (iterations.toNat - 0) _ ≤ _
        omega
    | succ index =>
        have own := given.share_eq (index + 1) owner part ownerIs partIs
        rw [Nat.zero_add] at own
        change min (iterations.toNat - (((strongest :: others).take (index + 1)).map BitVec.toNat).sum) _ ≤ _
        omega
  · change Serves _ 0 (config.clusters.zip (share :: others))
    rw [clustersAre, List.zip_cons_cons]
    have own : strongest.toNat = min (iterations.toNat - 0) (demand iterations.toNat parallelizable.toNat cluster) :=
      given.share_eq 0 cluster strongest (by rw [clustersAre]; rfl) rfl
    have granule := cores_le_demand iterations.toNat divisible cluster
    refine .share (by omega) (by omega) ?_
    · rw [shareIs, ← Nat.add_assoc]
      exact later.serves divisible (by omega)

end Whole

/-- As long as no product leaves its 32 bits while iterations are left, the
distribution is exact if and only if the demands leave less than the last of
them. -/
theorem hmp_distribution_exact_iff (concurrency : HardwareConcurrency) (useCallerThread : Bool)
    (stealingDivision : BitVec 8) (config : HmpConfig concurrency.bits) (iterations parallelizable : BitVec 32)
    (some_ : 0 < iterations.toNat) (divisible : 0 < parallelizable.toNat)
    (low : stealingDivisionMin ≤ stealingDivision.toNat) (high : stealingDivision.toNat ≤ stealingDivisionMax)
    (fit : ProductsFit iterations.toNat parallelizable.toNat 0 config.clusters) :
    Distributes useCallerThread stealingDivision config iterations parallelizable ↔
      iterations.toNat < (config.demands iterations.toNat parallelizable.toNat).sum +
        (config.demands iterations.toNat parallelizable.toNat).getLastD 0 := by
  have wide : 8 ≤ concurrency.bits := by cases concurrency <;> decide
  have narrow : concurrency.bits ≤ 32 := by cases concurrency <;> decide
  constructor
  · intro distributes
    have told : Ensures (spreadOverClusters useCallerThread stealingDivision config iterations parallelizable) (fun _ =>
        iterations.toNat < (config.demands iterations.toNat parallelizable.toNat).sum +
          (config.demands iterations.toNat parallelizable.toNat).getLastD 0) := by
      unfold spreadOverClusters
      refine ensures_bind (hmpDistributions_ensures narrow some_ divisible fit) ?_
      exact fun _ small _ _ _ => small
    obtain ⟨_, _, small⟩ := distributes.and_ensures told
    exact small
  · intro small
    unfold Distributes spreadOverClusters
    apply yields_bind (hmpDistributions_yields narrow some_ divisible fit small)
    rintro distribution ⟨exact_, serves⟩
    have staffed : forall pair, pair ∈ config.clusters.zip distribution.hmpDistributions -> 0 < pair.1.cores.toNat :=
      fun pair member => config.staffed _ (List.of_mem_zip member).1
    apply yields_bind (dispatchClusters_yields useCallerThread stealingDivision wide narrow low high serves staffed true
      { callerThreadEndIteration := 0, iteration := 0, worker := 0, dispatches := [] } rfl ⟨.nil _, nofun⟩
      (fun _ => ⟨rfl, rfl⟩))
    rintro dispatched ⟨tiled, reached⟩
    exact (returns_pure ⟨exact_, reached ▸ tiled.tiles, tiled.sliced⟩).yields

/-- One fast core, three medium ones and four slow ones. -/
def bigMediumLittle : HmpConfig HardwareConcurrency.uint8.bits where
  clusters := [⟨1, 64⟩, ⟨3, 40⟩, ⟨4, 24⟩]
  configured := by decide
  few := by decide
  staffed := by decide
  normalized := by decide

theorem hmp_distribution_exact_thousand : Distributes true 4 bigMediumLittle 1000 10 :=
  (hmp_distribution_exact_iff .uint8 true 4 bigMediumLittle 1000 10 (by decide) (by decide) (by decide) (by decide)
    (by decide)).mpr (by decide)

/-- Two clusters of equal power. -/
def halves (cores : BitVec HardwareConcurrency.uint8.bits) (staffed : 0 < cores.toNat) :
    HmpConfig HardwareConcurrency.uint8.bits where
  clusters := [⟨cores, 64⟩, ⟨cores, 64⟩]
  configured := List.cons_ne_nil _ _
  few := Nat.le_succ 2
  staffed := by
    intro cluster member
    rcases List.mem_pair.mp member with rfl | rfl
    · exact staffed
    · exact staffed
  normalized := rfl

/-- Three iterations for two cores of equal power leave one to add to the first
share, which is no less than the last share.  And `2 ^ 26` iterations have a
weight of zero, since the product wraps. -/
theorem hmp_distribution_breaks_assertion :
    ¬Distributes true 4 (halves 1 (by decide)) 3 1 ∧ ¬Distributes true 4 (halves 4 (by decide)) (2 ^ 26) 1 := by
  have stops : forall (config : HmpConfig HardwareConcurrency.uint8.bits) (iterations : BitVec 32),
      hmpDistributions config iterations 1 = none -> ¬Distributes true 4 config iterations 1 := by
    rintro config iterations failed ⟨_, _, same, _⟩
    unfold spreadOverClusters at same
    rw [failed] at same
    cases same
  exact ⟨stops _ _ rfl, stops _ _ rfl⟩

end Spread
end Sweater
