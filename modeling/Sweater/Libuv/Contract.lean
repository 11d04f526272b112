import Sweater.Libuv.PendingList
import Sweater.Libuv.StealBack

namespace Sweater
namespace Libuv

open Machine
open Interleaving

/-!
# What the libuv shop promises

The results about one call, for every call in every interleaving of any number
of threads.
-/

variable {Thread : Type} [Fintype Thread] [DecidableEq Thread] {program : Program} {role : Thread -> Role}
  {state : Stacked Thread Frame Shared}

omit [DecidableEq Thread] in
/-- A point of a call is the point of some thread. -/
theorem exists_thread {call : Nat} {point : Point} (member : point ∈ (callIn state call).points) :
    Exists fun thread => .spread call point ∈ state.callStack thread := by
  rcases Stacked.mem_gather.mp member with ⟨thread, frame, place, held⟩
  rw [mem_pointsOf.mp held] at place
  exact ⟨thread, place⟩

/-- The user's function is called for no chunk twice, and when `spread_impl`
returns, the calls make up the iterations and each chunk has been counted down
once.  The latch never goes below zero. -/
theorem spread_runs_chunks_once (reachable : (libuvSystem program role).Reachable state) (call : Nat) :
    (state.shared.nodes call).calls.Nodup ∧
      ((state.shared.nodes call).parallel = true -> 0 ≤ (state.shared.nodes call).latch) ∧
      forall thread, .spread call (.finished .caller) ∈ state.callStack thread ->
        Partitions 0 (state.shared.nodes call).iterations.toNat
          ((state.shared.nodes call).calls.map fun index => ((state.shared.nodes call).range index).bounds) ∧
        ((state.shared.nodes call).parallel = true ->
          (state.shared.nodes call).counted.length = (program.numChunks (state.shared.nodes call).iterations).toNat ∧
          (state.shared.nodes call).counted.Nodup ∧ (state.shared.nodes call).latch = 0) := by
  have own := (lists_and_calls reachable).2 call
  have account := account own
  refine ⟨?_, account.latch_nonneg, ?_⟩
  · apply List.nodup_iff_count_le_one.mpr
    intro index
    have chunk : (state.shared.nodes call).calls.count index + _ = _ := account.chunk index
    split at chunk <;> omega
  · intro thread returned
    have point := point_mem returned
    refine ⟨partitions_of_returned own point, ?_⟩
    intro parallel
    have zero := waited own parallel _ point rfl
    have counted := account.counted_perm parallel zero
    refine ⟨?_, counted.nodup_iff.mpr List.nodup_range, zero⟩
    change (callIn state call).node.counted.length = _
    rw [counted.length_eq, List.length_range]
    rcases made_of_reachable own with ⟨origin, made, same⟩
    change (callIn state call).node.chunks = (program.numChunks (callIn state call).node.iterations).toNat
    rw [same.chunks, same.iterations]
    have kind := same.parallel.symm.trans parallel
    cases made with
    | create => rfl
    | _ => cases kind

/-- If `uv_cancel` fails only for requests that a worker has dequeued, then, while
a caller waits, each chunk of its spread has finished or is being executed, and
none is pending or in the queue of the pool. -/
theorem spread_waits_for_running_chunks (strict : program.cancelMayFail = false)
    (reachable : (libuvSystem program role).Reachable state) {call : Nat} {thread : Thread}
    (waiting : .spread call .wait ∈ state.callStack thread) :
    (forall index, index < (state.shared.nodes call).chunks ->
      index ∈ (state.shared.nodes call).counted ∨
        Exists fun worker => Exists fun host => Exists fun phase =>
          .spread call (.executing host index phase) ∈ state.callStack worker) ∧
      forall index, index < (state.shared.nodes call).count ->
        (state.shared.nodes call).chunkState index ≠ .pending ∧ (state.shared.nodes call).request index ≠ .queued := by
  have own := (lists_and_calls reachable).2 call
  have point := point_mem waiting
  constructor
  · intro index inside
    rcases executed_of_waiting strict own point inside with counted | ⟨place, member, executes⟩
    · exact Or.inl counted
    · right
      rcases exists_thread member with ⟨worker, there⟩
      cases place with
      | executing host other phase =>
          have same : other = index := of_decide_eq_true executes
          subst same
          exact ⟨worker, host, phase, there⟩
      | _ => cases executes
  · intro index inside
    have closed := closed_of_waiting strict own point inside
    exact ⟨closed.state, closed.request⟩

/-! ## The life of a node -/

/-- The caller, if it has not released the node. -/
def callersHolding (state : Stacked Thread Frame Shared) (call : Nat) : Nat :=
  tally Point.callerHolds (callIn state call).points

/-- The queuer, if it has not released the node.  It may still be to come: the
caller is going to begin it, or to push the node, or the node is in a list. -/
def queuersHolding (state : Stacked Thread Frame Shared) (call : Nat) : Nat :=
  tally Point.unhanded (callIn state call).points + (state.shared.nodes call).listed +
    tally Point.queuerHolds (callIn state call).points

/-- The requests that are queued, or being queued, and whose after-work callback
has not run. -/
def callbacksHolding (state : Stacked Thread Frame Shared) (call : Nat) : Nat :=
  tally Point.queuing (callIn state call).points + (state.shared.nodes call).requests Request.weight +
    tally Point.reports (callIn state call).points

structure NodeLifetime (state : Stacked Thread Frame Shared) (call : Nat) : Prop where
  /-- the node is given to `queue_chunks` once: until then its caller has it, or a list does -/
  handedOnce : tally Point.unhanded (callIn state call).points + (state.shared.nodes call).listed +
    (state.shared.nodes call).handed = 1
  /-- it is in the list that `pending_` leads to, or in one that a drain has taken -/
  listed : (state.shared.nodes call).listed =
    state.shared.chain.count call + (state.gather Frame.drained).count call
  /-- a drain of `pending_` is to come -/
  announced : call ∈ state.shared.chain -> state.shared.async = true ∨
    Exists fun thread => Exists fun frame => frame ∈ state.callStack thread ∧ frame.announces = true
  refs : (state.shared.nodes call).refs.toNat =
    callersHolding state call + queuersHolding state call + callbacksHolding state call
  callers : callersHolding state call ≤ 1
  queuers : queuersHolding state call ≤ 1
  /-- it is freed once, when nobody refers to it any more -/
  deletedOnce : (state.shared.nodes call).deletions + tally Point.deletes (callIn state call).points +
    (if (state.shared.nodes call).refs = 0 then 0 else 1) = 1
  /-- no thread is inside the call with a freed node -/
  untouched : forall thread point, .spread call point ∈ state.callStack thread ->
    (forall owner, point ≠ .finished owner) -> (state.shared.nodes call).deletions = 0
  /-- no drain reads `next` of a freed node -/
  unread : forall thread address chain, .drain (some address) chain ∈ state.callStack thread ->
    state.shared.resident address = call -> (state.shared.nodes call).deletions = 0
  /-- libuv has no request of a freed node -/
  unreported : forall index, ((state.shared.nodes call).request index).outstanding = true ->
    (state.shared.nodes call).deletions = 0

/-- Any number of callers push and any number of drains take their nodes: each
node is handed on once, counted by its references, and freed once and last. -/
theorem node_lifetime (reachable : (libuvSystem program role).Reachable state) {call : Nat}
    (parallel : (state.shared.nodes call).parallel = true) : NodeLifetime state call := by
  obtain ⟨lists, calls⟩ := lists_and_calls reachable
  have own := calls call
  have parties := parties own
  have handed : tally Point.unhanded (callIn state call).points + (state.shared.nodes call).listed +
      (state.shared.nodes call).handed = 1 := parties.handed.trans (if_pos parallel)
  have refs := refs_eq own
  constructor
  · exact handed
  · exact lists.listed call
  · intro member
    exact announced reachable (List.ne_nil_of_mem member)
  · exact refs
  · exact Nat.le_trans (tally_le_tally (fun _ => Point.ofCaller_of_callerHolds)) parties.caller
  · have queuers : tally Point.queuerHolds (callIn state call).points ≤ tally Point.ofQueuer (callIn state call).points :=
      tally_le_tally (fun _ => Point.ofQueuer_of_queuerHolds)
    have queuer : tally Point.ofQueuer (callIn state call).points ≤ (state.shared.nodes call).handed := parties.queuer
    rw [queuersHolding]
    omega
  · have once := deletedOnce own parallel
    have zero : (state.shared.nodes call).refs = 0 ↔ (callIn state call).node.total (load (callIn state call).points) = 0 :=
      refs_eq_zero_iff own
    by_cases none : (state.shared.nodes call).refs = 0
    · rw [if_pos none]
      rw [if_pos (zero.mp none)] at once
      exact once
    · rw [if_neg none]
      rw [if_neg (fun total => none (zero.mpr total))] at once
      exact once
  · intro thread point member returned
    exact undeleted_of_point own parallel (point_mem member) returned
  · intro thread address chain member same
    have listed := (lists.drain_known (numbered_of_reachable reachable) calls member).2
    rw [same] at listed
    exact undeleted_of_listed own parallel listed
  · intro index outstanding
    exact undeleted_of_outstanding own parallel outstanding

/-! ## A run of one call -/

section OneRun

/-- A pool of one thread. -/
def smallPool : Program where
  concurrency := .uint16
  workers := 1
  bound := true
  cancelMayFail := false

instance : Fintype Role := ⟨{.external, .worker, .loop}, fun role => by cases role <;> decide⟩

/-- One thread of each kind. -/
def smallSystem : System (Stacked Role Frame Shared) := libuvSystem smallPool fun thread => thread

variable {state : Stacked Role Frame Shared}

theorem small_step (reachable : smallSystem.Reachable state) (thread : Role) {frame : Frame} {rest frames : List Frame}
    {shared : Shared} (place : state.callStack thread = frame :: rest)
    (move : LibuvStep smallPool (fun thread => thread) state.callStack thread state.shared frame shared frames) :
    smallSystem.Reachable (state.replaceTop thread shared (frames ++ rest)) :=
  .step reachable (.top thread frame rest shared frames place move)

theorem small_node (reachable : smallSystem.Reachable state) (thread : Role) {point : Point} {points : List Point}
    {rest : List Frame} {node : Node} (place : state.callStack thread = .spread 0 point :: rest)
    (step : NodeStep false (decide (thread = .loop)) (state.shared.nodes 0) point node points) :
    smallSystem.Reachable (state.replaceTop thread (state.shared.onNode 0 node) (points.map (Frame.spread 0) ++ rest)) :=
  small_step reachable thread place (.node 0 point node points step)

/-- Of two chunks the loop queues the first one and a worker executes it, while the
caller runs the second one.  The caller waits, and later it has returned. -/
theorem small_run :
    (Exists fun state => smallSystem.Reachable state ∧
      state.callStack .external = [.spread 0 .wait, .outside] ∧
      state.callStack .worker = [.spread 0 (.executing .pool 0 .running), .worker] ∧
      (state.shared.nodes 0).chunks = 2 ∧ (state.shared.nodes 0).counted = [1]) ∧
    (Exists fun state => smallSystem.Reachable state ∧
      state.callStack .external = [.spread 0 (.finished .caller), .outside] ∧
      (state.shared.nodes 0).parallel = true ∧ (state.shared.nodes 0).iterations = 2 ∧
      (state.shared.nodes 0).calls = [1, 0] ∧ (state.shared.nodes 0).refs = 1 ∧
      (state.shared.nodes 0).request 0 = .done) ∧
    Exists fun state => smallSystem.Reachable state ∧ state.shared.nextCall = 1 ∧
      (forall thread, state.callStack thread = [thread.frame]) ∧ (state.shared.nodes 0).chunks = 2 ∧
      (state.shared.nodes 0).parallel = true ∧ (state.shared.nodes 0).latch = 0 ∧
      (state.shared.nodes 0).counted = [1, 0] := by
  have start : smallSystem.Reachable ⟨.fresh, fun thread => [thread.frame]⟩ := .initial rfl
  have created := small_step start .external rfl
    (.callParallel .outside 2 0 rfl rfl (by decide) (fun call made => absurd made (Nat.not_lt_zero call)))
  have away := small_node created .external rfl (.publish _ (by decide))
  have loaded := small_step away .external rfl (.loadHead 0 _)
  have linked := small_node loaded .external rfl (.link _ _)
  have pushed := small_step linked .external rfl (.push 0 _ _ rfl)
  have sent := small_step pushed .external rfl (.send 0 _)
  have served := small_step sent .loop rfl (.serve rfl)
  have exchanged := small_step served .loop rfl .exchange
  have drains := small_step exchanged .loop rfl (.drain _ _)
  have locked := small_node drains .loop rfl (.lock .queuer 0 rfl)
  have pending := small_node locked .loop rfl (.queuePending 0 rfl)
  have added := small_node pending .loop rfl (.addRef 0)
  have submitted := small_node added .loop rfl (.submit 0)
  have marked := small_node submitted .loop rfl (.mark 0)
  have unlocked := small_node marked .loop rfl (.unlock .queuer 0 false)
  have released := small_node unlocked .loop rfl (.release .queuer (by decide))
  have handed := small_node released .loop rfl (.finished .queuer)
  have drained := small_step handed .loop rfl (.drained _)
  have dequeued := small_step drained .worker rfl (.dequeue 0 0 rfl)
  have tail := small_node dequeued .external rfl (.tail _)
  have tailReturns := small_node tail .external rfl (.returnChunk .tail _ (by decide))
  have tailCounted := small_node tailReturns .external rfl (.countDown .tail _)
  have claims := small_node tailCounted .external rfl (.lock .thief 0 rfl)
  have fails := small_node claims .external rfl (.cancelFails 0 rfl (Or.inl (by decide)))
  have waits := small_node fails .external rfl (.unlock .thief 0 false)
  have poolReturns := small_node waits .worker rfl (.returnChunk .pool 0 (by decide))
  have poolCounted := small_node poolReturns .worker rfl (.countDown .pool 0)
  have poolDone := small_node poolCounted .worker rfl (.finish 0)
  have woken := small_node poolDone .external rfl (.wait rfl)
  have left := small_node woken .external rfl (.release .caller (by decide))
  have returned := small_node left .external rfl (.finished .caller)
  refine ⟨⟨_, waits, rfl, rfl, rfl, rfl⟩, ⟨_, left, rfl, rfl, rfl, rfl, rfl, rfl⟩,
    ⟨_, returned, rfl, ?_, rfl, rfl, rfl, rfl⟩⟩
  intro thread
  cases thread <;> rfl

theorem spread_runs_chunks_once_two : Exists fun state : Stacked Role Frame Shared =>
    .spread 0 (.finished .caller) ∈ state.callStack .external ∧ (state.shared.nodes 0).iterations = 2 ∧
      (state.shared.nodes 0).calls = [1, 0] ∧
      Partitions 0 2 ((state.shared.nodes 0).calls.map fun index => ((state.shared.nodes 0).range index).bounds) := by
  obtain ⟨state, reachable, finished, _, iterations, calls, _⟩ := small_run.2.1
  have member : Frame.spread 0 (.finished .caller) ∈ state.callStack .external := by
    rw [finished]
    exact List.mem_cons_self
  have tiled := ((spread_runs_chunks_once reachable 0).2.2 .external member).1
  rw [iterations] at tiled
  exact ⟨state, member, iterations, calls, tiled⟩

theorem spread_waits_for_running_chunks_two : Exists fun state : Stacked Role Frame Shared =>
    .spread 0 .wait ∈ state.callStack .external ∧
      .spread 0 (.executing .pool 0 .running) ∈ state.callStack .worker ∧
      (state.shared.nodes 0).chunks = 2 ∧ (state.shared.nodes 0).counted = [1] ∧
      (forall index, index < (state.shared.nodes 0).chunks ->
        index ∈ (state.shared.nodes 0).counted ∨
          Exists fun thread => Exists fun host => Exists fun phase =>
            .spread 0 (.executing host index phase) ∈ state.callStack thread) ∧
      forall index, index < (state.shared.nodes 0).count ->
        (state.shared.nodes 0).chunkState index ≠ .pending ∧ (state.shared.nodes 0).request index ≠ .queued := by
  obtain ⟨state, reachable, waits, executes, chunks, counted⟩ := small_run.1
  have waiting : Frame.spread 0 .wait ∈ state.callStack .external := by
    rw [waits]
    exact List.mem_cons_self
  have executing : Frame.spread 0 (.executing .pool 0 .running) ∈ state.callStack .worker := by
    rw [executes]
    exact List.mem_cons_self
  exact ⟨state, waiting, executing, chunks, counted, spread_waits_for_running_chunks rfl reachable waiting⟩

/-- The last reference is that of the callback to come. -/
theorem node_lifetime_two : Exists fun state : Stacked Role Frame Shared =>
    (state.shared.nodes 0).refs = 1 ∧ (state.shared.nodes 0).request 0 = .done ∧ NodeLifetime state 0 := by
  obtain ⟨state, reachable, _, parallel, _, _, refs, request⟩ := small_run.2.1
  exact ⟨state, refs, request, node_lifetime reachable parallel⟩

end OneRun

end Libuv
end Sweater
