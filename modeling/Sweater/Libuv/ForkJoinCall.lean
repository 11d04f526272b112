import Sweater.Interleaving.ForkJoin
import Sweater.Libuv.Contract

namespace Sweater
namespace Libuv

open Interleaving

/-!
# A libuv spread is a fork and a join

A call of `spread_impl` as a pool of threads sees it: its chunks are announced
when it begins, each is executed once by the caller, by the queuer or by a
worker of the pool, and the call returns when none is left.  The node, the
requests, the latch and the lists of nodes are how it gets there.

With the chunks gone, nobody uses the latch any more, which is a local variable
of the call, nor the functor.
-/

variable {program : Program} {cancelMayFail onLoop begun : Bool} {node node' : Node} {point : Point}
  {points gone come : List Point} {rest : Multiset Point} {index : Nat}

/-! ## What has become of a chunk -/

namespace Point

theorem executes_uniform (index : Nat) : Uniform (executes index) := ⟨fun _ => rfl, fun _ => rfl⟩

/-- A chunk that is executed is in the functor, or about to be counted down. -/
theorem executes_le (index : Nat) (points : Multiset Point) :
    tally (executes index) points ≤ tally (runs index) points + tally (leaves index) points := by
  induction points using Multiset.induction with
  | empty => exact Nat.le_refl _
  | cons point rest inductionHypothesis =>
      have single : [point].countP (executes index) ≤ [point].countP (runs index) + [point].countP (leaves index) := by
        cases point with
        | executing host other phase =>
            cases phase with
            | running => exact Nat.le_add_right _ _
            | leaving => exact Nat.le_add_left _ _
        | _ => exact Nat.zero_le _
      have executing := tally_add (executes index) [point] rest
      have running := tally_add (runs index) [point] rest
      have leaving := tally_add (leaves index) [point] rest
      change tally (executes index) (point ::ₘ rest) = _ at executing
      change tally (runs index) (point ::ₘ rest) = _ at running
      change tally (leaves index) (point ::ₘ rest) = _ at leaving
      omega

end Point

/-- How often a chunk has been finished.  A serial call has no latch. -/
def Node.finishes (node : Node) (index : Nat) : Nat :=
  if node.parallel then node.counted.count index else node.calls.count index

namespace Call

def stage (call : Call) (index : Nat) : TaskStage :=
  if call.node.chunks ≤ index then .unknown
  else if 0 < call.node.finishes index then .done
  else if 0 < tally (Point.executes index) call.points then .running
  else .waiting

def callStage (call : Call) : CallStage :=
  if call.begun = false then .unbegun
  else if 0 < tally Point.ofCaller call.points then .live
  else .returned

/-- The call and its chunks. -/
def forkJoin (call : Call) : ForkJoin Nat Unit := ⟨call.stage, fun _ => call.callStage⟩

end Call

/-! ## What a step does to the chunks -/

/-- A step leaves the chunks as they are, starts one that has been claimed, or
finishes one. -/
inductive Effect (node : Node) (gone : List Point) (node' : Node) (come : List Point) : Prop
  | keeps :
      (forall index, come.countP (Point.executes index) = gone.countP (Point.executes index)) ->
      (forall index, node'.finishes index = node.finishes index) -> Effect node gone node' come
  | starts (claimed : Nat) :
      node.parallel = true -> 0 < gone.countP (Point.runs claimed) + node.unclaimed claimed ->
      (forall index, gone.countP (Point.executes index) = 0) ->
      (forall index, come.countP (Point.executes index) = if decide (claimed = index) = true then 1 else 0) ->
      (forall index, node'.finishes index = node.finishes index) -> Effect node gone node' come
  | completes (finished : Nat) :
      (if node.parallel then 0 < gone.countP (Point.leaves finished) else 0 < gone.countP (Point.runs finished)) ->
      (forall index, gone.countP (Point.executes index) = if decide (finished = index) = true then 1 else 0) ->
      (forall index, come.countP (Point.executes index) = 0) ->
      (forall index, node'.finishes index = node.finishes index + if decide (finished = index) = true then 1 else 0) ->
      Effect node gone node' come

theorem Node.finishes_of_same (parallel : node'.parallel = node.parallel) (counted : node'.counted = node.counted)
    (calls : node'.calls = node.calls) (index : Nat) : node'.finishes index = node.finishes index := by
  rw [finishes, finishes, parallel, counted, calls]

theorem count_append_singleton (list : List Nat) (item index : Nat) :
    (list ++ [item]).count index = list.count index + if decide (item = index) = true then 1 else 0 := by
  rw [List.count_append, List.count_singleton]
  rfl

theorem countP_own {property : Point -> Bool} (holds : property point = true) : 0 < [point].countP property :=
  List.countP_pos_iff.mpr ⟨point, List.mem_singleton_self point, holds⟩

theorem NodeStep.effect (step : NodeStep cancelMayFail onLoop node point node' points) (placed : point.Placed node)
    (counts : forall index, point ≠ .executing .serial index .leaving) : Effect node [point] node' points := by
  cases step with
  | queueHere queuedChunks =>
      refine .keeps (fun index => ?_) (Node.finishes_of_same rfl rfl rfl)
      rw [List.countP_cons, (Point.executes_uniform index).queue]
      rfl
  | tail queuedChunks =>
      exact .starts queuedChunks placed.1 (Nat.add_pos_left (countP_own (decide_eq_true rfl)) _) (fun _ => rfl)
        (fun index => List.countP_singleton) (Node.finishes_of_same rfl rfl rfl)
  | returnSerial index =>
      have serial : node.parallel = false := placed.1
      refine .completes index ?_ (fun index => List.countP_singleton) (fun _ => rfl) (fun other => ?_)
      · rw [serial]
        exact countP_own (decide_eq_true rfl)
      · rw [Node.finishes, Node.finishes]
        change (if node.parallel then _ else (node.calls ++ [index]).count other) = _
        rw [serial]
        exact count_append_singleton node.calls index other
  | returnChunk host index chunked =>
      have parallel : node.parallel = true := by
        cases host with
        | serial => exact absurd rfl chunked
        | tail | claimer | pool => exact placed.1
      refine .keeps (fun _ => rfl) (fun other => ?_)
      rw [Node.finishes, Node.finishes]
      change (if node.parallel then _ else _) = _
      rw [parallel]
      rfl
  | countDown host index =>
      have parallel : node.parallel = true := by
        cases host with
        | serial => exact absurd rfl (counts index)
        | tail | claimer | pool => exact placed.1
      refine .completes index ?_ (fun index => List.countP_singleton) (fun other => ?_) (fun other => ?_)
      · rw [parallel]
        exact countP_own (decide_eq_true rfl)
      · apply (countP_point ((Point.executes_uniform other).resume _ index host)).trans
        cases host with
        | claimer claimer => cases claimer <;> rfl
        | _ => rfl
      · rw [Node.finishes, Node.finishes]
        change (if node.parallel then (node.counted ++ [index]).count other else _) = _
        rw [parallel]
        exact count_append_singleton node.counted index other
  | unlock claimer index runInline =>
      cases runInline with
      | true =>
          exact .starts index placed.1 (Nat.add_pos_left (countP_own (decide_eq_true rfl)) _) (fun _ => rfl)
            (fun index => List.countP_singleton) (Node.finishes_of_same rfl rfl rfl)
      | false =>
          refine .keeps (fun other => ?_) (Node.finishes_of_same rfl rfl rfl)
          apply (countP_point ((Point.executes_uniform other).next _ index claimer)).trans
          cases claimer <;> rfl
  | _ => exact .keeps (fun _ => rfl) (Node.finishes_of_same rfl rfl rfl)

theorem NodeChange.effect (change : NodeChange program true node gone node' come)
    (outlined : Outlined node ((gone : Multiset Point) + rest))
    (counts : forall index, .executing .serial index .leaving ∉ gone) : Effect node gone node' come := by
  cases change with
  | step onLoop point points step =>
      have member : point ∈ ([point] : Multiset Point) + rest :=
        Multiset.mem_add.mpr (Or.inl (List.mem_singleton.mpr rfl))
      apply step.effect (outlined.placed point member)
      rintro index rfl
      exact counts index (List.mem_singleton_self _)
  | dequeue index queued =>
      have used := outlined.used index (by rw [queued]; exact nofun)
      refine .starts index used.1 ?_ (fun _ => rfl) (fun other => List.countP_singleton)
        (Node.finishes_of_same rfl rfl rfl)
      rw [Node.unclaimed_queued used.2 queued]
      exact Nat.one_pos
  | drain =>
      refine .keeps (fun other => ?_) (Node.finishes_of_same rfl rfl rfl)
      rw [countP_point ((Point.executes_uniform other).queue _ _)]
      rfl
  | _ => exact .keeps (fun _ => rfl) (Node.finishes_of_same rfl rfl rfl)

/-! ## Serial calls and callers -/

/-- A serial call that counts down, which none does. -/
def Point.miscounts : Point -> Bool
  | executing .serial _ .leaving => true
  | _ => false

theorem Point.miscounts_uniform : Uniform miscounts := ⟨fun _ => rfl, fun _ => rfl⟩

theorem NodeStep.miscounts (step : NodeStep cancelMayFail onLoop node point node' points) :
    points.countP Point.miscounts = 0 := by
  cases step with
  | queueHere =>
      rw [List.countP_cons, Point.miscounts_uniform.queue]
      rfl
  | returnChunk host index chunked =>
      cases host with
      | serial => exact absurd rfl chunked
      | tail | claimer | pool => rfl
  | countDown host index =>
      apply (countP_point (Point.miscounts_uniform.resume _ index host)).trans
      cases host with
      | claimer claimer => cases claimer <;> rfl
      | _ => rfl
  | unlock claimer index runInline =>
      cases runInline with
      | true => rfl
      | false =>
          apply (countP_point (Point.miscounts_uniform.next _ index claimer)).trans
          cases claimer <;> rfl
  | _ => rfl

theorem NodeChange.miscounts (change : NodeChange program begun node gone node' come) :
    come.countP Point.miscounts = 0 := by
  cases change with
  | step onLoop point points step => exact step.miscounts
  | drain => exact countP_point (Point.miscounts_uniform.queue _ _)
  | _ => rfl

theorem never_miscounts {call : Call} (reachable : (callSystem program).Reachable call) :
    tally Point.miscounts call.points = 0 := by
  refine @call_invariant _ _ (fun _ points => tally Point.miscounts points = 0) rfl ?_ reachable
  intro begun node node' gone come rest _ _ change earlier
  rw [tally_add] at earlier ⊢
  rw [change.miscounts]
  omega

/-- The caller stays in the call until it returns. -/
theorem NodeStep.caller_cases (step : NodeStep cancelMayFail onLoop node point node' points) :
    points.countP Point.ofCaller = [point].countP Point.ofCaller ∨
      (point = .finished .caller ∧ points = [] ∧ node' = node) := by
  cases step with
  | queueHere queuedChunks =>
      left
      rw [List.countP_cons, Point.ofCaller_uniform.queue]
      rfl
  | countDown host index =>
      left
      rw [countP_point (Point.ofCaller_uniform.resume _ index host)]
      cases host with
      | claimer claimer => cases claimer <;> rfl
      | _ => rfl
  | unlock claimer index runInline =>
      left
      cases runInline with
      | true => cases claimer <;> rfl
      | false =>
          rw [if_neg nofun, countP_point (Point.ofCaller_uniform.next _ index claimer)]
          cases claimer <;> rfl
  | returnChunk host =>
      left
      cases host with
      | claimer claimer => cases claimer <;> rfl
      | _ => rfl
  | lock claimer => exact Or.inl (by cases claimer <;> rfl)
  | release owner | releaseLast owner | delete owner => exact Or.inl (by cases owner <;> rfl)
  | finished owner =>
      cases owner with
      | caller => exact Or.inr ⟨rfl, rfl, rfl⟩
      | queuer | callback => exact Or.inl rfl
  | _ => exact Or.inl rfl

theorem NodeChange.caller_cases (change : NodeChange program true node gone node' come) :
    come.countP Point.ofCaller = gone.countP Point.ofCaller ∨
      (gone = [.finished .caller] ∧ come = [] ∧ node' = node) := by
  cases change with
  | step onLoop point points step =>
      rcases step.caller_cases with same | ⟨rfl, rfl, rfl⟩
      · exact Or.inl same
      · exact Or.inr ⟨rfl, rfl, rfl⟩
  | drain =>
      left
      rw [countP_point (Point.ofCaller_uniform.queue _ _)]
      rfl
  | _ => exact Or.inl rfl

/-! ## The simulation -/

namespace Call

theorem stage_congr {before after : Call} (chunks : after.node.chunks = before.node.chunks)
    (finishes : after.node.finishes index = before.node.finishes index)
    (executes : tally (Point.executes index) after.points = tally (Point.executes index) before.points) :
    after.stage index = before.stage index := by
  rw [stage, stage, chunks, finishes, executes]

theorem stage_done {call : Call} (inside : index < call.node.chunks) (finished : 0 < call.node.finishes index) :
    call.stage index = .done := by
  rw [stage, if_neg (Nat.not_le.mpr inside), if_pos finished]

theorem stage_running {call : Call} (inside : index < call.node.chunks) (unfinished : call.node.finishes index = 0)
    (executing : 0 < tally (Point.executes index) call.points) : call.stage index = .running := by
  rw [stage, if_neg (Nat.not_le.mpr inside), unfinished, if_neg (Nat.lt_irrefl 0), if_pos executing]

theorem stage_waiting {call : Call} (inside : index < call.node.chunks) (unfinished : call.node.finishes index = 0)
    (unexecuted : tally (Point.executes index) call.points = 0) : call.stage index = .waiting := by
  rw [stage, if_neg (Nat.not_le.mpr inside), unfinished, unexecuted, if_neg (Nat.lt_irrefl 0), if_neg (Nat.lt_irrefl 0)]

theorem stage_unknown {call : Call} (outside : call.node.chunks ≤ index) : call.stage index = .unknown :=
  if_pos outside

end Call

/-- When the caller returns, every chunk has been finished. -/
theorem stage_of_returning {call : Call} (reachable : (callSystem program).Reachable call)
    (returning : .finished .caller ∈ call.points) (index : Nat) : call.stage index = .done ∨ call.stage index = .unknown := by
  by_cases inside : index < call.node.chunks
  · left
    apply Call.stage_done inside
    have called := (calls_perm_of_returned reachable returning).count_eq index
    rw [List.count_range, if_pos inside] at called
    cases parallel : call.node.parallel with
    | false =>
        rw [Node.finishes, parallel]
        change 0 < call.node.calls.count index
        omega
    | true =>
        have own := account reachable
        have leaves : tally (Point.leaves index) call.points = 0 :=
          own.none_leaves parallel (waited reachable parallel _ returning rfl)
        have counted := own.counted parallel index
        rw [Node.finishes, parallel]
        change 0 < call.node.counted.count index
        omega
  · exact Or.inr (Call.stage_unknown (Nat.not_lt.mp inside))

section Simulation

variable (reachable : (callSystem program).Reachable ⟨true, node, (gone : Multiset Point) + rest⟩)
  (change : NodeChange program true node gone node' come)

include reachable

theorem chunk_count (index : Nat) :
    node.calls.count index + (tally (Point.runs index) ((gone : Multiset Point) + rest) + node.unclaimed index) =
      if index < node.chunks then 1 else 0 :=
  (account reachable).chunk index

theorem counted_count (parallel : node.parallel = true) (index : Nat) :
    node.counted.count index + tally (Point.leaves index) ((gone : Multiset Point) + rest) = node.calls.count index :=
  (account reachable).counted parallel index

theorem inside_of_runs (runs : 0 < tally (Point.runs index) ((gone : Multiset Point) + rest) + node.unclaimed index) :
    index < node.chunks ∧ node.calls.count index = 0 := by
  have chunk := chunk_count reachable index
  by_cases inside : index < node.chunks
  · rw [if_pos inside] at chunk
    exact ⟨inside, by omega⟩
  · rw [if_neg inside] at chunk
    omega

/-- A chunk that is about to be started waits. -/
theorem stage_of_claimed (parallel : node.parallel = true)
    (claim : 0 < gone.countP (Point.runs index) + node.unclaimed index)
    (none : gone.countP (Point.executes index) = 0) :
    index < node.chunks ∧ node.finishes index = 0 ∧
      tally (Point.executes index) ((gone : Multiset Point) + rest) = 0 := by
  have split := tally_add (Point.runs index) gone rest
  have claimed : index < node.chunks ∧ node.calls.count index = 0 := inside_of_runs reachable (by omega)
  have chunk := chunk_count reachable index
  have counted := counted_count reachable parallel index
  rw [if_pos claimed.1] at chunk
  refine ⟨claimed.1, ?_, ?_⟩
  · rw [Node.finishes, parallel]
    change node.counted.count index = 0
    omega
  · have few := Point.executes_le index rest
    have leaves := tally_add (Point.leaves index) gone rest
    rw [tally_add, none]
    omega

/-- A chunk that is about to be finished runs. -/
theorem stage_of_finished
    (finished : if node.parallel then 0 < gone.countP (Point.leaves index) else 0 < gone.countP (Point.runs index)) :
    index < node.chunks ∧ node.finishes index = 0 := by
  have chunk := chunk_count reachable index
  cases parallel : node.parallel with
  | true =>
      rw [parallel] at finished
      have counted := counted_count reachable parallel index
      rw [tally_add] at counted
      rw [Node.finishes, parallel]
      change 0 < gone.countP (Point.leaves index) at finished
      change _ ∧ node.counted.count index = 0
      split at chunk <;> omega
  | false =>
      rw [parallel] at finished
      change 0 < gone.countP (Point.runs index) at finished
      have split := tally_add (Point.runs index) gone rest
      rw [Node.finishes, parallel]
      exact inside_of_runs reachable (by omega)

include change

/-- A step of a call that has begun is at most one move of the pool. -/
theorem forkJoin_change :
    ForkJoin.Step (fun _ => some ()) (Call.mk true node ((gone : Multiset Point) + rest)).forkJoin
      (Call.mk true node' ((come : Multiset Point) + rest)).forkJoin := by
  have silent : forall index, Point.executing .serial index .leaving ∉ gone := by
    intro index member
    have counted := tally_add Point.miscounts gone rest
    have none : tally Point.miscounts ((gone : Multiset Point) + rest) = 0 := never_miscounts reachable
    have some : 0 < gone.countP Point.miscounts := List.countP_pos_iff.mpr ⟨_, member, rfl⟩
    omega
  rcases change.caller_cases with calls | ⟨rfl, rfl, same⟩
  · have calls' : (Call.mk true node' ((come : Multiset Point) + rest)).callStage =
        (Call.mk true node ((gone : Multiset Point) + rest)).callStage := by
      rw [Call.callStage, Call.callStage]
      simp only [tally_add, calls]
    have here : forall stage : Nat -> TaskStage, (Call.mk true node' ((come : Multiset Point) + rest)).stage = stage ->
        (Call.mk true node' ((come : Multiset Point) + rest)).forkJoin =
          { (Call.mk true node ((gone : Multiset Point) + rest)).forkJoin with stage := stage } := by
      intro stage same
      exact ForkJoin.ext same (funext fun _ => calls')
    cases change.effect (outlined reachable) silent with
    | keeps executes finishes =>
        rw [here (Call.mk true node ((gone : Multiset Point) + rest)).stage]
        · exact .pause
        · funext index
          apply Call.stage_congr change.same.chunks (finishes index)
          rw [tally_add, tally_add, executes]
    | starts claimed parallel claim none new finishes =>
        obtain ⟨inside, unfinished, unexecuted⟩ := stage_of_claimed reachable parallel claim (none claimed)
        rw [here (fun index => if index ∈ [claimed] then .running
          else (Call.mk true node ((gone : Multiset Point) + rest)).stage index)]
        · exact .start claimed (Call.stage_waiting inside unfinished unexecuted)
        · funext index
          by_cases same : index ∈ [claimed]
          · rw [if_pos same, List.mem_singleton.mp same]
            apply Call.stage_running (Nat.lt_of_lt_of_eq inside change.same.chunks.symm) ((finishes claimed).trans unfinished)
            rw [tally_add, new, if_pos (decide_eq_true rfl)]
            exact Nat.add_pos_left Nat.one_pos _
          · rw [if_neg same]
            apply Call.stage_congr change.same.chunks (finishes index)
            rw [tally_add, tally_add, new, none]
            have different : ¬ decide (claimed = index) = true :=
              fun equal => same (List.mem_singleton.mpr (of_decide_eq_true equal).symm)
            rw [if_neg different]
    | completes finished leaving old none finishes =>
        obtain ⟨inside, unfinished⟩ := stage_of_finished reachable leaving
        rw [here (fun index => if index ∈ [finished] then .done
          else (Call.mk true node ((gone : Multiset Point) + rest)).stage index)]
        · refine .complete finished (Call.stage_running inside unfinished ?_)
          rw [tally_add, old, if_pos (decide_eq_true rfl)]
          exact Nat.add_pos_left Nat.one_pos _
        · funext index
          by_cases same : index ∈ [finished]
          · rw [if_pos same, List.mem_singleton.mp same]
            apply Call.stage_done (Nat.lt_of_lt_of_eq inside change.same.chunks.symm)
            change 0 < node'.finishes finished
            rw [finishes, if_pos (decide_eq_true rfl)]
            exact Nat.succ_pos _
          · rw [if_neg same]
            have different : ¬ decide (finished = index) = true :=
              fun equal => same (List.mem_singleton.mpr (of_decide_eq_true equal).symm)
            apply Call.stage_congr change.same.chunks
            · rw [finishes, if_neg different, Nat.add_zero]
            · rw [tally_add, tally_add, old, none, if_neg different]
  · -- the caller returns
    obtain rfl : node = node' := same.symm
    have returning : .finished .caller ∈ ((([.finished .caller] : List Point) : Multiset Point) + rest) :=
      Multiset.mem_add.mpr (Or.inl (List.mem_singleton_self _))
    have alone : tally Point.ofCaller rest = 0 := by
      have once : tally Point.ofCaller ((([.finished .caller] : List Point) : Multiset Point) + rest) ≤ 1 :=
        (parties reachable).caller
      rw [tally_add] at once
      change 1 + _ ≤ 1 at once
      omega
    have stages : (Call.mk true node ((([] : List Point) : Multiset Point) + rest)).stage =
        (Call.mk true node ((([.finished .caller] : List Point) : Multiset Point) + rest)).stage := by
      funext index
      refine Call.stage_congr ?_ ?_ ?_
      · rfl
      · rfl
      · rw [tally_add, tally_add]
        rfl
    have live : (Call.mk true node ((([.finished .caller] : List Point) : Multiset Point) + rest)).callStage = .live := by
      rw [Call.callStage, if_neg nofun]
      exact if_pos (tally_pos_iff.mpr ⟨_, returning, rfl⟩)
    have returned : (Call.mk true node ((([] : List Point) : Multiset Point) + rest)).callStage = .returned := by
      rw [Call.callStage, if_neg nofun, tally_add, alone]
      exact if_neg (Nat.lt_irrefl 0)
    have joined : (Call.mk true node ((([] : List Point) : Multiset Point) + rest)).forkJoin =
        (Call.mk true node ((([.finished .caller] : List Point) : Multiset Point) + rest)).forkJoin.setCall () .returned := by
      apply ForkJoin.ext stages
      funext call
      exact returned.trans (ForkJoin.calls_setCall _ () .returned).symm
    rw [joined]
    refine .join () live ?_
    intro index _ unfinished
    rcases stage_of_returning reachable returning index with done | unknown
    · rcases unfinished with waits | runs
      · cases done.symm.trans waits
      · cases done.symm.trans runs
    · rcases unfinished with waits | runs
      · cases unknown.symm.trans waits
      · cases unknown.symm.trans runs

end Simulation

/-! ## How a call begins -/

theorem stage_blank (begun : Bool) (points : Multiset Point) (index : Nat) :
    (Call.mk begun .blank points).stage index = .unknown :=
  if_pos (Nat.zero_le index)

theorem callStage_single (node : Node) (point : Point) (caller : point.ofCaller = true) :
    (Call.mk true node ((([point] : List Point) : Multiset Point) + 0)).callStage = .live := by
  rw [Call.callStage, if_neg nofun]
  exact if_pos (tally_pos_iff.mpr ⟨point, Multiset.mem_add.mpr (Or.inl (List.mem_singleton_self point)), caller⟩)

theorem unbegun_forkJoin : (Call.mk false .blank 0).forkJoin = .unbegun := by
  apply ForkJoin.ext
  · funext index
    exact stage_blank false 0 index
  · rfl

theorem forkJoin_begins (change : NodeChange program false node gone node' come) :
    Relation.ReflTransGen (ForkJoin.Step (fun _ => some ())) (Call.mk false .blank 0).forkJoin
      (Call.mk true node' ((come : Multiset Point) + 0)).forkJoin := by
  have waiting := ForkJoin.run_announced (List.range node'.chunks)
  rw [← unbegun_forkJoin] at waiting
  cases change with
  | callEmpty =>
      have same : (Call.mk true .blank ((([.finished .caller] : List Point) : Multiset Point) + 0)).forkJoin =
          .announced (List.range 0) := by
        apply ForkJoin.ext
        · funext index
          exact stage_blank true ((([.finished .caller] : List Point) : Multiset Point) + 0) index
        · funext call
          exact callStage_single .blank (.finished .caller) rfl
      rw [same]
      exact waiting
  | callSerial iterations some =>
      have same : (Call.mk true (.serial iterations) ((([.executing .serial 0 .running] : List Point) : Multiset Point) + 0)).forkJoin =
          (ForkJoin.announced (List.range 1)).assign [0] .running := by
        apply ForkJoin.ext
        · funext index
          by_cases first : index = 0
          · subst first
            have executing : 0 < tally (Point.executes 0) ((([.executing .serial 0 .running] : List Point) : Multiset Point) + 0) :=
              tally_pos_iff.mpr ⟨.executing .serial 0 .running,
                Multiset.mem_add.mpr (Or.inl (List.mem_singleton_self _)), rfl⟩
            exact @Call.stage_running 0
              (Call.mk true (.serial iterations) ((([.executing .serial 0 .running] : List Point) : Multiset Point) + 0))
              Nat.one_pos rfl executing
          · have outside : index ∉ List.range 1 := fun inside => first (Nat.lt_one_iff.mp (List.mem_range.mp inside))
            rw [ForkJoin.stage_assign_of_notMem _ (fun single => first (List.mem_singleton.mp single)), ForkJoin.announced]
            exact (Call.stage_unknown (Nat.pos_of_ne_zero first)).trans (if_neg outside).symm
        · funext call
          exact callStage_single (.serial iterations) (.executing .serial 0 .running) rfl
      rw [same]
      exact waiting.tail (.start 0 rfl)
  | callParallel iterations several =>
      have same : (Call.mk true (.create program iterations) ((([.publish ((program.numChunks iterations).toNat - 1) .created] :
          List Point) : Multiset Point) + 0)).forkJoin = .announced (List.range (Node.create program iterations).chunks) := by
        apply ForkJoin.ext
        · funext index
          by_cases inside : index < (Node.create program iterations).chunks
          · exact (Call.stage_waiting inside rfl (tally_add _ _ _)).trans (if_pos (List.mem_range.mpr inside)).symm
          · exact (Call.stage_unknown (Nat.not_lt.mp inside)).trans
              (if_neg (fun member => inside (List.mem_range.mp member))).symm
        · funext call
          exact callStage_single (.create program iterations)
            (.publish ((program.numChunks iterations).toNat - 1) .created) rfl
      rw [same]
      exact waiting

/-- What a call sees of a step is a run of the pool. -/
theorem forkJoin_callStep {before after : Call} (reached : (callSystem program).Reachable before)
    (move : CallStep program before after) :
    Relation.ReflTransGen (ForkJoin.Step (fun _ => some ())) before.forkJoin after.forkJoin := by
  rcases move with _ | @⟨begun, node, node', gone, come, rest, change⟩
  · exact .refl
  · cases begun with
    | true => exact .single (forkJoin_change reached change)
    | false =>
        obtain ⟨blank, none⟩ := blank_of_unbegun reached rfl
        obtain ⟨noPoints, noRest⟩ := add_eq_zero.mp none
        change node = .blank at blank
        subst blank
        subst noRest
        rw [noPoints]
        exact forkJoin_begins change

theorem call_refines_forkJoin {call : Call} (reachable : (callSystem program).Reachable call) :
    (forkJoin (fun _ : Nat => some ())).Reachable call.forkJoin := by
  apply reachable.simulates_by_runs Call.forkJoin
  · rintro _ rfl
    apply ForkJoin.ext
    · funext index
      exact stage_blank false 0 index
    · rfl
  · intro before after reached move
    exact forkJoin_callStep reached move

/-! ## When the caller has returned -/

section Returned

variable {call before after : Call} (reachable : (callSystem program).Reachable call)

include reachable

/-- A chunk that is being executed runs. -/
theorem stage_of_executing {host : Host} {phase : Phase} (executing : .executing host index phase ∈ call.points) :
    call.stage index = .running := by
  have executes : 0 < tally (Point.executes index) call.points :=
    tally_pos_iff.mpr ⟨_, executing, decide_eq_true rfl⟩
  have few := Point.executes_le index call.points
  have own := account reachable
  have chunk := own.chunk index
  have inside : index < call.node.chunks ∧ call.node.finishes index = 0 := by
    cases parallel : call.node.parallel with
    | true =>
        have counted := own.counted parallel index
        rw [Node.finishes, parallel]
        change index < call.node.chunks ∧ call.node.counted.count index = 0
        split at chunk <;> omega
    | false =>
        have placed := (outlined reachable).placed _ executing
        rw [Node.finishes, parallel]
        change index < call.node.chunks ∧ call.node.calls.count index = 0
        cases phase with
        | running =>
            have runs : 0 < tally (Point.runs index) call.points :=
              tally_pos_iff.mpr ⟨_, executing, decide_eq_true rfl⟩
            split at chunk <;> omega
        | leaving =>
            cases host with
            | serial =>
                have never := tally_eq_zero_iff.mp (never_miscounts reachable) _ executing
                cases never
            | tail | claimer | pool =>
                have never : call.node.parallel = true := placed.1
                cases parallel.symm.trans never
  exact Call.stage_running inside.1 inside.2 executes

/-- A chunk whose request is queued is not finished. -/
theorem stage_of_queued (queued : call.node.request index = .queued) : (call.stage index).Unfinished := by
  have used := (outlined reachable).used index (by rw [queued]; exact nofun)
  have own := account reachable
  have chunk := own.chunk index
  have counted := own.counted used.1 index
  have unclaimed := Node.unclaimed_queued used.2 queued
  have unfinished : call.node.finishes index = 0 := by
    rw [Node.finishes, used.1]
    change call.node.counted.count index = 0
    split at chunk <;> omega
  have inside : index < call.node.chunks := by
    split at chunk <;> omega
  by_cases executing : 0 < tally (Point.executes index) call.points
  · exact Or.inr (Call.stage_running inside unfinished executing)
  · exact Or.inl (Call.stage_waiting inside unfinished (Nat.eq_zero_of_not_pos executing))

theorem live_of_unfinished (unfinished : (call.stage index).Unfinished) : call.callStage = .live :=
  forkJoin_live (call_refines_forkJoin reachable) index () unfinished rfl

end Returned

/-- The latch and the calls of the functor are changed by who executes a chunk. -/
theorem NodeChange.quiet (change : NodeChange program true node gone node' come)
    (silent : forall host index phase, .executing host index phase ∉ gone) :
    node'.latch = node.latch ∧ node'.calls = node.calls ∧ node'.counted = node.counted := by
  cases change with
  | step onLoop point points step =>
      cases step with
      | returnSerial | returnChunk | countDown => exact absurd (List.mem_singleton_self _) (silent _ _ _)
      | _ => exact ⟨rfl, rfl, rfl⟩
  | _ => exact ⟨rfl, rfl, rfl⟩

theorem CallStep.kept {before after : Call} (reachable : (callSystem program).Reachable before)
    (returned : before.callStage = .returned) (move : CallStep program before after) :
    after.callStage = .returned ∧ after.node.latch = before.node.latch ∧ after.node.calls = before.node.calls ∧
      after.node.counted = before.node.counted := by
  rcases move with _ | @⟨begun, node, node', gone, come, rest, change⟩
  · exact ⟨returned, rfl, rfl, rfl⟩
  · cases begun with
    | false => cases returned
    | true =>
        have still : (Call.mk true node' ((come : Multiset Point) + rest)).forkJoin.calls () = .returned :=
          (forkJoin_change reachable change).returned returned
        refine ⟨still, change.quiet ?_⟩
        intro host index phase executing
        have member : .executing host index phase ∈ ((gone : Multiset Point) + rest) :=
          Multiset.mem_add.mpr (Or.inl executing)
        have live := live_of_unfinished reachable (Or.inr (stage_of_executing reachable member))
        cases live.symm.trans returned

/-! ## The calls of a program -/

section Calls

variable {Thread : Type} [Fintype Thread] [DecidableEq Thread] {role : Thread -> Role}
  {state before after later : Stacked Thread Frame Shared}

omit [Fintype Thread] [DecidableEq Thread] in
/-- A step is one of a single call, or of none. -/
theorem LibuvStep.single {callStack : Thread -> List Frame} {thread : Thread} {shared shared' : Shared} {frame : Frame}
    {frames : List Frame} (move : LibuvStep program role callStack thread shared frame shared' frames) :
    Exists fun target => forall call, call ≠ target -> frames.flatMap (Frame.pointsOf call) = frame.pointsOf call ∧
      shared'.nodes call = shared.nodes call ∧ (call < shared'.nextCall ↔ call < shared.nextCall) := by
  have begins : forall (node : Node) (point : Point) (call : Nat), call ≠ shared.nextCall ->
      [Frame.spread shared.nextCall point, frame].flatMap (Frame.pointsOf call) = frame.pointsOf call ∧
      Function.update shared.nodes shared.nextCall node call = shared.nodes call ∧
      (call < shared.nextCall + 1 ↔ call < shared.nextCall) := by
    intro node point call different
    refine ⟨?_, Function.update_of_ne different _ _, by omega⟩
    rw [List.flatMap_cons, List.flatMap_singleton, pointsOf_other different.symm]
    rfl
  have goes : forall (target : Nat) (points : List Point) (point : Point) (node : Node) (call : Nat), call ≠ target ->
      (points.map (Frame.spread target)).flatMap (Frame.pointsOf call) = (Frame.spread target point).pointsOf call ∧
      Function.update shared.nodes target node call = shared.nodes call ∧
      (call < shared.nextCall ↔ call < shared.nextCall) := by
    intro target points point node call different
    refine ⟨?_, Function.update_of_ne different _ _, Iff.rfl⟩
    rw [flatMap_pointsOf_map_other different.symm, pointsOf_other different.symm]
  have comes : forall (target : Nat) (point : Point) (top below : Frame) (node : Node) (call : Nat), call ≠ target ->
      top.pointsOf call = [] -> below.pointsOf call = [] ->
      [Frame.spread target point, below].flatMap (Frame.pointsOf call) = top.pointsOf call ∧
      Function.update shared.nodes target node call = shared.nodes call ∧
      (call < shared.nextCall ↔ call < shared.nextCall) := by
    intro target point top below node call different none noneBelow
    refine ⟨?_, Function.update_of_ne different _ _, Iff.rfl⟩
    rw [List.flatMap_cons, List.flatMap_singleton, pointsOf_other different.symm, none, noneBelow]
    rfl
  cases move with
  | node target point node points step => exact ⟨target, goes target points point node⟩
  | callEmpty => exact ⟨shared.nextCall, begins .blank (.finished .caller)⟩
  | callSerial frame iterations => exact ⟨shared.nextCall, begins (.serial iterations) (.executing .serial 0 .running)⟩
  | callParallel frame iterations address =>
      exact ⟨shared.nextCall, begins (.create program iterations) (.publish _ .created)⟩
  | push target queuedChunks expected => exact ⟨target, goes target [.publish queuedChunks .send] _ _⟩
  | loadHead target queuedChunks | pushFails target queuedChunks | send target queuedChunks =>
      refine ⟨target, fun call different => ⟨?_, rfl, Iff.rfl⟩⟩
      rw [List.flatMap_singleton, pointsOf_other different.symm, pointsOf_other different.symm]
  | task frame kind =>
      refine ⟨0, fun call _ => ⟨?_, rfl, Iff.rfl⟩⟩
      rcases kind with rfl | rfl <;> rfl
  | taskReturns | serve | exchange | drained => exact ⟨0, fun call _ => ⟨rfl, rfl, Iff.rfl⟩⟩
  | dequeue target index | report target index =>
      exact ⟨target, fun call different => comes target _ _ _ _ call different rfl rfl⟩
  | drain address chain =>
      exact ⟨shared.resident address, fun call different => comes _ _ _ _ _ call different rfl rfl⟩

theorem callStep (reached : (libuvSystem program role).Reachable before)
    (move : Stacked.Step (LibuvStep program role) before after) (call : Nat) :
    CallStep program (callIn before call) (callIn after call) := by
  cases move with
  | top thread frame below shared frames place step =>
      have member : frame ∈ before.callStack thread := by
        rw [place]
        exact List.mem_cons_self
      have numbered := numbered_of_reachable reached
      obtain ⟨lists, calls⟩ := lists_and_calls reached
      rcases Stacked.gather_replaceTop (Frame.pointsOf call) before place shared frames with ⟨rest, old, new⟩
      rw [callIn, callIn, old, new]
      apply call_of_step numbered.blank (numbered.frames thread frame member) ?_ step
      rintro address chain rfl
      exact lists.drain_known numbered calls member

/-- The calls of a program as a pool sees them. -/
def forkJoinView (state : Stacked Thread Frame Shared) : ForkJoin (Nat × Nat) Nat :=
  .sideBySide fun call => (callIn state call).forkJoin

theorem forkJoinView_step (move : Stacked.Step (LibuvStep program role) before after) :
    Exists fun target => forkJoinView after =
      .sideBySide (Function.update (fun call => (callIn before call).forkJoin) target (callIn after target).forkJoin) := by
  cases move with
  | top thread frame below shared frames place step =>
      obtain ⟨target, others⟩ := step.single
      refine ⟨target, congrArg ForkJoin.sideBySide ?_⟩
      funext call
      by_cases same : call = target
      · subst same
        rw [Function.update_self]
      · rw [Function.update_of_ne same]
        obtain ⟨points, node, made⟩ := others call same
        rcases Stacked.gather_replaceTop (Frame.pointsOf call) before place shared frames with ⟨rest, old, new⟩
        rw [callIn, callIn, old, new, points]
        change Call.forkJoin ⟨decide (call < shared.nextCall), shared.nodes call, _⟩ = _
        rw [node, decide_eq_decide.mpr made]
        rfl

/-- Whatever the threads do, the calls of the shop are calls of a pool: each
chunk is executed once, within its call, and no call returns before the last of
its chunks has been counted down. -/
theorem libuv_refines_forkJoin (state : Stacked Thread Frame Shared) (reachable : (libuvSystem program role).Reachable state) :
    (forkJoin fun task : Nat × Nat => some task.1).Reachable (forkJoinView state) := by
  apply reachable.simulates_by_runs forkJoinView
  · intro first start
    have calls := (lists_and_calls (.initial start : (libuvSystem program role).Reachable first)).2
    have none : first.shared.nextCall = 0 := congrArg (fun state => state.shared.nextCall) start
    have unbegun : forall call, (callIn first call).begun = false := by
      intro call
      apply decide_eq_false
      rw [none]
      exact Nat.not_lt_zero call
    apply ForkJoin.ext
    · funext task
      have blank := (blank_of_unbegun (calls task.1) (unbegun task.1)).1
      apply Call.stage_unknown
      rw [blank]
      exact Nat.zero_le _
    · funext call
      exact if_pos (unbegun call)
  · intro before after reached move
    obtain ⟨target, same⟩ := forkJoinView_step move
    rw [same]
    apply ForkJoin.run_sideBySide
    exact forkJoin_callStep ((lists_and_calls reached).2 target) (callStep reached move target)

/-- The caller of a spread has returned. -/
def SpreadReturned (call : Nat) (state : Stacked Thread Frame Shared) : Prop :=
  call < state.shared.nextCall ∧
    forall thread point, .spread call point ∈ state.callStack thread -> point.ofCaller = false

omit [DecidableEq Thread] in
theorem spreadReturned_iff (state : Stacked Thread Frame Shared) (call : Nat) :
    (callIn state call).callStage = .returned ↔ SpreadReturned call state := by
  have none : tally Point.ofCaller (callIn state call).points = 0 ↔
      forall thread point, .spread call point ∈ state.callStack thread -> point.ofCaller = false := by
    rw [tally_eq_zero_iff]
    constructor
    · intro none thread point member
      exact none point (point_mem member)
    · intro none point member
      rcases exists_thread member with ⟨thread, there⟩
      exact none thread point there
  rw [SpreadReturned, ← none, Call.callStage]
  change (if decide (call < state.shared.nextCall) = false then _ else _) = _ ↔ _
  by_cases begun : call < state.shared.nextCall
  · rw [if_neg (fun unbegun => of_decide_eq_false unbegun begun)]
    by_cases some : 0 < tally Point.ofCaller (callIn state call).points
    · rw [if_pos some]
      exact ⟨nofun, fun gone => absurd gone.2 (Nat.ne_of_gt some)⟩
    · rw [if_neg some]
      exact ⟨fun _ => ⟨begun, Nat.eq_zero_of_not_pos some⟩, fun _ => rfl⟩
  · rw [if_pos (decide_eq_false begun)]
    exact ⟨nofun, fun gone => absurd gone.1 begun⟩

/-- While a chunk is executed, its caller is still in `spread_impl`.  After the
call has returned, whatever else happens, no thread is inside the user's function
for it or on the way to its latch, the pool has no request of it, and the latch
is left as it is. -/
theorem chunks_do_not_outlive_spreads (state later : Stacked Thread Frame Shared)
    (reachable : (libuvSystem program role).Reachable state) (continues : (libuvSystem program role).Continues state later) :
    (forall thread call host index phase, .spread call (.executing host index phase) ∈ state.callStack thread ->
      Exists fun caller => Exists fun point => .spread call point ∈ state.callStack caller ∧ point.ofCaller = true) ∧
    (forall call, SpreadReturned call state -> SpreadReturned call later ∧
      (later.shared.nodes call).latch = (state.shared.nodes call).latch ∧
      (later.shared.nodes call).calls = (state.shared.nodes call).calls ∧
      (forall thread host index phase, .spread call (.executing host index phase) ∉ later.callStack thread) ∧
      forall index, (later.shared.nodes call).request index ≠ .queued) := by
  constructor
  · intro thread call host index phase executing
    have own := (lists_and_calls reachable).2 call
    have live := live_of_unfinished own (Or.inr (stage_of_executing own (point_mem executing)))
    by_contra alone
    have returned : SpreadReturned call state := by
      constructor
      · exact (numbered_of_reachable reachable).frames thread _ executing
      · intro caller point member
        cases caller' : point.ofCaller with
        | false => rfl
        | true => exact absurd ⟨caller, point, member, caller'⟩ alone
    cases live.symm.trans ((spreadReturned_iff state call).mpr returned)
  · intro call returned
    have kept : (callIn later call).callStage = .returned ∧
        (callIn later call).node.latch = (callIn state call).node.latch ∧
        (callIn later call).node.calls = (callIn state call).node.calls := by
      apply continues.invariant reachable ⟨(spreadReturned_iff state call).mpr returned, rfl, rfl⟩
      rintro middle next reached ⟨still, latch, calls⟩ move
      have step := (callStep reached move call).kept ((lists_and_calls reached).2 call) still
      exact ⟨step.1, step.2.1.trans latch, step.2.2.1.trans calls⟩
    have own := (lists_and_calls (reachable.continues continues)).2 call
    refine ⟨(spreadReturned_iff later call).mp kept.1, kept.2.1, kept.2.2, ?_, ?_⟩
    · intro thread host index phase executing
      have live := live_of_unfinished own (Or.inr (stage_of_executing own (point_mem executing)))
      cases live.symm.trans kept.1
    · intro index queued
      have live := live_of_unfinished own (stage_of_queued own queued)
      cases live.symm.trans kept.1

end Calls

/-! ## The end of a run of one call -/

/-- The caller of two chunks, one of them executed by a worker, has returned. -/
theorem returned_run : Exists fun state : Stacked Role Frame Shared => smallSystem.Reachable state ∧
    SpreadReturned 0 state ∧ (state.shared.nodes 0).latch = 0 ∧ (forkJoinView state).stage (0, 0) = .done ∧
      (forkJoinView state).stage (0, 1) = .done := by
  obtain ⟨state, reachable, begun, idle, chunks, parallel, latch, counted⟩ := small_run.2.2
  have done : forall index, index < 2 -> (forkJoinView state).stage (0, index) = .done := by
    intro index inside
    change (callIn state 0).stage index = .done
    have node : (callIn state 0).node = state.shared.nodes 0 := rfl
    have finished : 0 < (state.shared.nodes 0).finishes index := by
      rw [Node.finishes, if_pos parallel, counted]
      rcases (by omega : index = 0 ∨ index = 1) with rfl | rfl
      · decide
      · decide
    rw [Call.stage, node, chunks, if_neg (by omega), if_pos finished]
  refine ⟨state, reachable, ⟨?_, ?_⟩, latch, done 0 (by decide), done 1 (by decide)⟩
  · rw [begun]
    exact Nat.one_pos
  · intro thread point member
    rw [idle] at member
    cases thread <;> cases List.mem_singleton.mp member

theorem libuv_refines_forkJoin_two : Exists fun state : Stacked Role Frame Shared =>
    (forkJoin fun task : Nat × Nat => some task.1).Reachable (forkJoinView state) ∧
      (forkJoinView state).stage (0, 0) = .done ∧ (forkJoinView state).stage (0, 1) = .done ∧
        (forkJoinView state).calls 0 = .returned := by
  obtain ⟨state, reachable, returned, _, first, second⟩ := returned_run
  exact ⟨state, libuv_refines_forkJoin state reachable, first, second, (spreadReturned_iff state 0).mpr returned⟩

theorem chunks_do_not_outlive_spreads_two : Exists fun state : Stacked Role Frame Shared =>
    SpreadReturned 0 state ∧ (state.shared.nodes 0).latch = 0 ∧
      (forall thread host index phase, .spread 0 (.executing host index phase) ∉ state.callStack thread) ∧
      forall index, (state.shared.nodes 0).request index ≠ .queued := by
  obtain ⟨state, reachable, returned, latch, _⟩ := returned_run
  have kept := ((chunks_do_not_outlive_spreads state state reachable .refl).2 0 returned).2.2.2
  exact ⟨state, returned, latch, kept⟩

end Libuv
end Sweater
