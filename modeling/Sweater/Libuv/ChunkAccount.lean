import Sweater.Libuv.CriticalSection

namespace Sweater
namespace Libuv

open Machine
open Spread
open Threading
open Interleaving

/-!
# Where the chunks are

A chunk is unclaimed, or one thread is about to run it or runs it, or the
user's function has been called for it, and after that one thread is about to
count it down.  The four ways to claim a chunk exclude each other.
-/

namespace Point

/-- The thread is going to call the user's function for the chunk, or is in it. -/
def runs (index : Nat) : Point -> Bool
  | publish queuedChunks _ => decide (queuedChunks = index)
  | unlock _ other true => decide (other = index)
  | takeBack other => decide (other = index)
  | markInline other => decide (other = index)
  | executing _ other .running => decide (other = index)
  | _ => false

/-- The thread is going to count the chunk down. -/
def leaves (index : Nat) : Point -> Bool
  | executing _ other .leaving => decide (other = index)
  | _ => false

theorem runs_uniform (index : Nat) : Uniform (runs index) := ⟨fun _ => rfl, fun _ => rfl⟩

theorem leaves_uniform (index : Nat) : Uniform (leaves index) := ⟨fun _ => rfl, fun _ => rfl⟩

end Point

namespace Node

/-- The caller may still steal the chunk, or a worker dequeue it. -/
def unclaimed (node : Node) (index : Nat) : Nat :=
  if index < node.count ∧
      (node.request index = .queued ∨ node.request index = .idle ∧ node.chunkState index = .pending) then 1
  else 0

variable {node node' : Node} {index : Nat}

theorem unclaimed_congr (count : node'.count = node.count) (request : node'.request index = node.request index)
    (state : node'.chunkState index = node.chunkState index) : node'.unclaimed index = node.unclaimed index := by
  rw [unclaimed, unclaimed, count, request, state]

theorem unclaimed_pending (inside : index < node.count) (state : node.chunkState index = .pending)
    (request : node.request index = .idle) : node.unclaimed index = 1 :=
  if_pos ⟨inside, Or.inr ⟨request, state⟩⟩

theorem unclaimed_queued (inside : index < node.count) (request : node.request index = .queued) :
    node.unclaimed index = 1 :=
  if_pos ⟨inside, Or.inl request⟩

theorem unclaimed_of_request (idle : node.request index ≠ .idle) (queued : node.request index ≠ .queued) :
    node.unclaimed index = 0 := by
  apply if_neg
  intro ⟨_, waiting⟩
  rcases waiting with request | ⟨request, _⟩
  · exact queued request
  · exact idle request

theorem unclaimed_of_state (pending : node.chunkState index ≠ .pending) (queued : node.request index ≠ .queued) :
    node.unclaimed index = 0 := by
  apply if_neg
  intro ⟨_, waiting⟩
  rcases waiting with request | ⟨_, state⟩
  · exact queued request
  · exact pending state

theorem setRequest_ne {request other : Request} (different : request ≠ other) :
    (node.setRequest index request).request index ≠ other := by
  rw [setRequest_self]
  exact different

theorem setState_ne {state other : ChunkState} (different : state ≠ other) :
    (node.setState index state).chunkState index ≠ other := by
  rw [setState_self]
  exact different

/-- A chunk is claimed, and the others stay as they are. -/
theorem claim {claimed : Nat} (before : node.unclaimed claimed = 1) (after : node'.unclaimed claimed = 0)
    (others : forall index, index ≠ claimed -> node'.unclaimed index = node.unclaimed index) (index : Nat) :
    (if decide (claimed = index) = true then 1 else 0) + node'.unclaimed index = node.unclaimed index := by
  by_cases here : claimed = index
  · rw [decide_eq_true here, ← here, before, after]
    rfl
  · rw [decide_eq_false here, others index (Ne.symm here)]
    exact Nat.zero_add _

end Node

variable {program : Program} {cancelMayFail onLoop begun : Bool} {node node' : Node} {point : Point}
  {points gone come : List Point} {rest : Multiset Point}

theorem NodeStep.account (step : NodeStep cancelMayFail onLoop node point node' points)
    (locked : Locked node (([point] : Multiset Point) + rest)) (placed : point.Placed node) (index : Nat) :
    node'.calls.count index + (points.countP (Point.runs index) + node'.unclaimed index) =
      node.calls.count index + ([point].countP (Point.runs index) + node.unclaimed index) := by
  have member : point ∈ ([point] : Multiset Point) + rest :=
    Multiset.mem_add.mpr (Or.inl (List.mem_singleton.mpr rfl))
  have claims : point.Claims node := locked.claims point member
  -- the step neither claims a chunk nor calls the function
  have keeps : points.countP (Point.runs index) = [point].countP (Point.runs index) -> node'.calls = node.calls ->
      node'.unclaimed index = node.unclaimed index -> node'.calls.count index +
        (points.countP (Point.runs index) + node'.unclaimed index) =
      node.calls.count index + ([point].countP (Point.runs index) + node.unclaimed index) := by
    intro runs calls unclaimed
    rw [runs, calls, unclaimed]
  -- the step claims a chunk for its own thread
  have takes : forall claimed, node.unclaimed claimed = 1 -> node'.unclaimed claimed = 0 ->
      (forall other, other ≠ claimed -> node'.unclaimed other = node.unclaimed other) ->
      [point].countP (Point.runs index) = 0 ->
      points.countP (Point.runs index) = (if decide (claimed = index) = true then 1 else 0) ->
      node'.calls = node.calls -> node'.calls.count index +
        (points.countP (Point.runs index) + node'.unclaimed index) =
      node.calls.count index + ([point].countP (Point.runs index) + node.unclaimed index) := by
    intro claimed before after others runs runs' calls
    rw [runs, runs', calls, Node.claim before after others, Nat.zero_add]
  cases step with
  | queueHere queuedChunks =>
      refine keeps ?_ rfl rfl
      rw [List.countP_cons, (Point.runs_uniform index).queue]
      rfl
  | returnSerial other | returnChunk _ other _ =>
      change (node.calls ++ [other]).count index + (0 + node.unclaimed index) = _
      rw [List.count_append, List.count_singleton, List.countP_singleton, Point.runs, Nat.add_assoc, Nat.zero_add]
      rfl
  | countDown host other =>
      refine keeps ((countP_point ((Point.runs_uniform index).resume _ other host)).trans ?_) rfl rfl
      cases host with
      | claimer claimer => cases claimer <;> rfl
      | _ => rfl
  | unlock claimer other runInline =>
      refine keeps ?_ rfl rfl
      cases runInline with
      | true => rfl
      | false =>
          apply (countP_point ((Point.runs_uniform index).next _ other claimer)).trans
          cases claimer <;> rfl
  | finish other =>
      refine keeps rfl rfl ?_
      by_cases here : index = other
      · subst here
        have started := locked.started member (decide_eq_true rfl)
        have before : node.unclaimed index = 0 := by
          apply Node.unclaimed_of_request
          · rw [started]
            exact nofun
          · rw [started]
            exact nofun
        rw [before]
        apply Node.unclaimed_of_request
        · exact Node.setRequest_ne nofun
        · exact Node.setRequest_ne nofun
      · exact Node.unclaimed_congr rfl (setRequest_of_ne node here _) rfl
  | steal other pending =>
      have idle := (locked.settled_of_critical rfl rfl).pending pending
      refine takes other (Node.unclaimed_pending placed.2 pending idle) ?_ ?_ rfl List.countP_singleton rfl
      · apply Node.unclaimed_of_state
        · exact Node.setState_ne nofun
        · change node.request other ≠ .queued
          rw [idle]
          exact nofun
      · intro index different
        exact Node.unclaimed_congr rfl rfl (setState_of_ne node different _)
  | cancel other queued request =>
      refine takes other (Node.unclaimed_queued placed.2 request) ?_ ?_ rfl List.countP_singleton rfl
      · apply Node.unclaimed_of_request
        · change (node.setRequest other .done).request other ≠ .idle
          exact Node.setRequest_ne nofun
        · change (node.setRequest other .done).request other ≠ .queued
          exact Node.setRequest_ne nofun
      · intro index different
        exact Node.unclaimed_congr rfl (setRequest_of_ne node different _) (setState_of_ne _ different _)
  | submit other =>
      refine keeps rfl rfl ?_
      by_cases here : index = other
      · subst here
        have after : (node.setRequest index .queued).unclaimed index = 1 :=
          Node.unclaimed_queued placed.2 (setRequest_self node index .queued)
        rw [after, Node.unclaimed_pending placed.2 claims.1 claims.2]
      · exact Node.unclaimed_congr rfl (setRequest_of_ne node here _) rfl
  | submitFails other =>
      refine takes other (Node.unclaimed_pending placed.2 claims.1 claims.2) ?_ ?_ rfl List.countP_singleton rfl
      · apply Node.unclaimed_of_request
        · exact Node.setRequest_ne nofun
        · exact Node.setRequest_ne nofun
      · intro index different
        exact Node.unclaimed_congr rfl (setRequest_of_ne node different _) rfl
  | mark other =>
      refine keeps rfl rfl ?_
      by_cases here : index = other
      · subst here
        have submitted : node.request index ≠ .idle := by
          intro idle
          have accepted := claims.2
          rw [idle] at accepted
          cases accepted
        unfold Node.unclaimed
        apply if_congr _ rfl rfl
        apply and_congr_right
        intro _
        apply or_congr_right
        exact ⟨fun waiting => absurd waiting.1 submitted, fun waiting => absurd waiting.1 submitted⟩
      · exact Node.unclaimed_congr rfl rfl (setState_of_ne node here _)
  | markInline other =>
      refine keeps rfl rfl ?_
      by_cases here : index = other
      · subst here
        have idle : node.request index ≠ .idle := by
          rw [claims.2]
          exact nofun
        have queued : node.request index ≠ .queued := by
          rw [claims.2]
          exact nofun
        rw [Node.unclaimed_of_request idle queued]
        exact Node.unclaimed_of_request idle queued
      · exact Node.unclaimed_congr rfl rfl (setState_of_ne node here _)
  | _ => exact keeps rfl rfl rfl

theorem NodeChange.account (change : NodeChange program true node gone node' come)
    (locked : Locked node ((gone : Multiset Point) + rest)) (outlined : Outlined node ((gone : Multiset Point) + rest))
    (index : Nat) :
    node'.calls.count index + (come.countP (Point.runs index) + node'.unclaimed index) =
      node.calls.count index + (gone.countP (Point.runs index) + node.unclaimed index) := by
  cases change with
  | step onLoop point points step =>
      apply step.account locked
      exact outlined.placed point (Multiset.mem_add.mpr (Or.inl (List.mem_singleton.mpr rfl)))
  | dequeue other queued =>
      have inside : other < node.count := by
        apply (outlined.used other _).2
        rw [queued]
        exact nofun
      rw [List.countP_singleton, List.countP_nil, Nat.zero_add]
      apply congrArg (node.calls.count index + ·)
      refine Node.claim (Node.unclaimed_queued inside queued) ?_ ?_ index
      · apply Node.unclaimed_of_request
        · exact Node.setRequest_ne nofun
        · exact Node.setRequest_ne nofun
      · intro index different
        exact Node.unclaimed_congr rfl (setRequest_of_ne node different _) rfl
  | report other done =>
      have same : (node.setRequest other .reported).unclaimed index = node.unclaimed index := by
        by_cases here : index = other
        · subst here
          have before : node.unclaimed index = 0 := by
            apply Node.unclaimed_of_request
            · rw [done]
              exact nofun
            · rw [done]
              exact nofun
          rw [before]
          apply Node.unclaimed_of_request
          · exact Node.setRequest_ne nofun
          · exact Node.setRequest_ne nofun
        · exact Node.unclaimed_congr rfl (setRequest_of_ne node here _) rfl
      rw [same]
      rfl
  | drain =>
      rw [countP_point ((Point.runs_uniform index).queue _ _)]
      rfl
  | _ => rfl

/-- What is counted down has been called before. -/
theorem NodeStep.counting (step : NodeStep cancelMayFail onLoop node point node' points) (placed : point.Placed node)
    (parallel : node.parallel = true) (index : Nat) :
    node'.counted.count index + points.countP (Point.leaves index) + node.calls.count index =
      node.counted.count index + [point].countP (Point.leaves index) + node'.calls.count index := by
  cases step with
  | queueHere queuedChunks =>
      rw [List.countP_cons, (Point.leaves_uniform index).queue]
      rfl
  | returnSerial other =>
      have serial := placed.1
      rw [parallel] at serial
      cases serial
  | returnChunk host other =>
      have called : (node.called other).calls.count index =
          node.calls.count index + [Point.executing host other .leaving].countP (Point.leaves index) := by
        change (node.calls ++ [other]).count index = _
        rw [List.count_append, List.count_singleton, List.countP_singleton]
        rfl
      rw [called]
      change node.counted.count index + _ + _ = node.counted.count index + 0 + _
      omega
  | countDown host other =>
      have none : [Point.resume node.count other host].countP (Point.leaves index) = 0 := by
        apply (countP_point ((Point.leaves_uniform index).resume _ other host)).trans
        cases host with
        | claimer claimer => cases claimer <;> rfl
        | _ => rfl
      rw [none]
      change (node.counted ++ [other]).count index + 0 + _ = _
      rw [List.count_append, List.count_singleton, List.countP_singleton]
      rfl
  | unlock claimer other runInline =>
      have none : [if runInline then .executing (.claimer claimer) other .running
          else .next node.count other claimer].countP (Point.leaves index) = 0 := by
        cases runInline with
        | true => rfl
        | false =>
            apply (countP_point ((Point.leaves_uniform index).next _ other claimer)).trans
            cases claimer <;> rfl
      rw [none]
      rfl
  | _ => rfl

theorem NodeChange.counting (change : NodeChange program true node gone node' come)
    (placed : forall point, point ∈ gone -> point.Placed node) (parallel : node.parallel = true) (index : Nat) :
    node'.counted.count index + come.countP (Point.leaves index) + node.calls.count index =
      node.counted.count index + gone.countP (Point.leaves index) + node'.calls.count index := by
  cases change with
  | step onLoop point points step => exact step.counting (placed point List.mem_cons_self) parallel index
  | drain =>
      rw [countP_point ((Point.leaves_uniform index).queue _ _)]
      rfl
  | _ => rfl

theorem NodeStep.latch (step : NodeStep cancelMayFail onLoop node point node' points) :
    node'.latch + node'.counted.length = node.latch + node.counted.length := by
  cases step with
  | countDown host index =>
      change node.latch - 1 + ((node.counted ++ [index]).length : Int) = _
      rw [List.length_append, List.length_singleton]
      omega
  | _ => rfl

theorem NodeChange.latch (change : NodeChange program true node gone node' come) :
    node'.latch + node'.counted.length = node.latch + node.counted.length := by
  cases change with
  | step onLoop point points step => exact step.latch
  | _ => rfl

/-- Every chunk is in one place, and the latch knows how many are not done. -/
structure Account (node : Node) (points : Multiset Point) : Prop where
  chunk : forall index, node.calls.count index + (tally (Point.runs index) points + node.unclaimed index) =
    if index < node.chunks then 1 else 0
  counted : node.parallel = true -> forall index,
    node.counted.count index + tally (Point.leaves index) points = node.calls.count index
  latch : node.parallel = true -> node.latch + node.counted.length = node.chunks

theorem account_begin (change : NodeChange program false node gone node' come) :
    Account node' ((come : Multiset Point) + 0) := by
  cases change with
  | callEmpty => exact ⟨fun _ => rfl, nofun, nofun⟩
  | callSerial iterations =>
      refine ⟨fun index => ?_, nofun, nofun⟩
      rw [tally_add, List.countP_singleton]
      cases index with
      | zero => rfl
      | succ index => rfl
  | callParallel iterations several =>
      refine ⟨fun index => ?_, fun _ _ => rfl, fun _ => Int.add_zero _⟩
      rw [tally_add, List.countP_singleton, tally_zero, Point.runs]
      change 0 + ((if decide ((program.numChunks iterations).toNat - 1 = index) = true then 1 else 0) + 0 +
        (Node.create program iterations).unclaimed index) = if index < (program.numChunks iterations).toNat then 1 else 0
      by_cases queued : index < (program.numChunks iterations).toNat - 1
      · have waiting : (Node.create program iterations).unclaimed index = 1 := Node.unclaimed_pending queued rfl rfl
        rw [waiting, decide_eq_false (by omega), if_pos (by omega : index < (program.numChunks iterations).toNat)]
        rfl
      · have none : (Node.create program iterations).unclaimed index = 0 := if_neg (fun waiting => queued waiting.1)
        rw [none]
        by_cases last : (program.numChunks iterations).toNat - 1 = index
        · rw [decide_eq_true last, if_pos (by omega : index < (program.numChunks iterations).toNat)]
          rfl
        · rw [decide_eq_false last, if_neg (by omega : Not (index < (program.numChunks iterations).toNat))]
          rfl

theorem account {call : Call} (reachable : (callSystem program).Reachable call) : Account call.node call.points := by
  refine call_invariant ⟨fun _ => rfl, nofun, nofun⟩ ?_ reachable
  intro begun node node' gone come rest reached unbegun change earlier
  cases begun with
  | false =>
      rw [unbegun rfl]
      exact account_begin change
  | true =>
      have outlined := outlined reached
      have same := change.same
      constructor
      · intro index
        have moved := change.account (locked reached) outlined index
        have before := earlier.chunk index
        rw [tally_add] at before ⊢
        rw [same.chunks]
        omega
      · intro parallel index
        rw [same.parallel] at parallel
        have moved := change.counting (fun point member => outlined.placed point (Multiset.mem_add.mpr (Or.inl member)))
          parallel index
        have before := earlier.counted parallel index
        rw [tally_add] at before ⊢
        omega
      · intro parallel
        rw [same.parallel] at parallel
        rw [same.chunks, change.latch]
        exact earlier.latch parallel

/-! ## When the call returns -/

section Counted

variable {points : Multiset Point} {index : Nat}

theorem Account.counted_subperm (account : Account node points) (parallel : node.parallel = true) :
    node.counted.Subperm (List.range node.chunks) := by
  apply List.subperm_iff_count.mpr
  intro index
  rw [List.count_range]
  have chunk := account.chunk index
  have counted := account.counted parallel index
  omega

/-- The latch is not decremented below zero. -/
theorem Account.latch_nonneg (account : Account node points) (parallel : node.parallel = true) : 0 ≤ node.latch := by
  have few := (account.counted_subperm parallel).length_le
  rw [List.length_range] at few
  have latch := account.latch parallel
  omega

/-- When the latch is at zero, every chunk has been counted down once. -/
theorem Account.counted_perm (account : Account node points) (parallel : node.parallel = true) (zero : node.latch = 0) :
    node.counted.Perm (List.range node.chunks) := by
  apply (account.counted_subperm parallel).perm_of_length_le
  rw [List.length_range]
  have latch := account.latch parallel
  omega

/-- Then no thread has a chunk that is not counted down. -/
theorem Account.none_leaves (account : Account node points) (parallel : node.parallel = true) (zero : node.latch = 0) :
    tally (Point.leaves index) points = 0 := by
  have all := (account.counted_perm parallel zero).count_eq index
  rw [List.count_range] at all
  have chunk := account.chunk index
  have counted := account.counted parallel index
  omega

end Counted

/-- `sync.wait()` has returned. -/
def Point.afterWait : Point -> Bool
  | release .caller => true
  | delete .caller => true
  | finished .caller => true
  | _ => false

theorem Point.afterWait_uniform : Uniform afterWait := ⟨fun _ => rfl, fun _ => rfl⟩

/-- Only a latch at zero lets the caller through. -/
def Waited (node : Node) (points : Multiset Point) : Prop :=
  node.parallel = true -> forall point, point ∈ points -> point.afterWait = true -> node.latch = 0

theorem NodeStep.waited (step : NodeStep cancelMayFail onLoop node point node' points) (placed : point.Placed node)
    (parallel : node.parallel = true) {next : Point} (member : next ∈ points) (past : next.afterWait = true) :
    point.afterWait = true ∨ node.latch = 0 := by
  cases step with
  | wait zero => exact Or.inr zero
  | release owner | releaseLast owner | delete owner =>
      rw [List.mem_singleton.mp member] at past
      cases owner with
      | caller => exact Or.inl rfl
      | _ => cases past
  | returnSerial index =>
      have serial := placed.1
      rw [parallel] at serial
      cases serial
  | countDown host index =>
      rw [List.mem_singleton.mp member, Point.afterWait_uniform.resume] at past
      cases host with
      | serial =>
          have serial := placed.1
          rw [parallel] at serial
          cases serial
      | claimer claimer => cases claimer <;> cases past
      | _ => cases past
  | unlock claimer index runInline =>
      rw [List.mem_singleton.mp member] at past
      cases runInline with
      | true => cases past
      | false =>
          change (Point.next node.count index claimer).afterWait = true at past
          rw [Point.afterWait_uniform.next] at past
          cases claimer <;> cases past
  | queueHere queuedChunks =>
      rcases List.mem_cons.mp member with here | last
      · rw [here, Point.afterWait_uniform.queue] at past
        cases past
      · rw [List.mem_singleton.mp last] at past
        cases past
  | finish | finished => cases member
  | _ =>
      rw [List.mem_singleton.mp member] at past
      cases past

theorem NodeChange.waited (change : NodeChange program true node gone node' come)
    (placed : forall point, point ∈ gone -> point.Placed node) (parallel : node.parallel = true) {next : Point}
    (member : next ∈ come) (past : next.afterWait = true) :
    (Exists fun point => point ∈ gone ∧ point.afterWait = true) ∨ node.latch = 0 := by
  cases change with
  | step onLoop point points step =>
      rcases step.waited (placed point List.mem_cons_self) parallel member past with before | zero
      · exact Or.inl ⟨point, List.mem_cons_self, before⟩
      · exact Or.inr zero
  | drain =>
      rw [List.mem_singleton.mp member, Point.afterWait_uniform.queue] at past
      cases past
  | _ =>
      rw [List.mem_singleton.mp member] at past
      cases past

/-- The latch stays at zero, because there is nothing left to count down. -/
theorem NodeChange.latch_zero (change : NodeChange program true node gone node' come)
    (account : Account node ((gone : Multiset Point) + rest)) (parallel : node.parallel = true) (zero : node.latch = 0) :
    node'.latch = 0 := by
  cases change with
  | step onLoop point points step =>
      cases step with
      | countDown host index =>
          have nobody : tally (Point.leaves index) (([Point.executing host index .leaving] : Multiset Point) + rest) = 0 :=
            account.none_leaves parallel zero
          have own := tally_eq_zero_iff.mp nobody (.executing host index .leaving)
            (Multiset.mem_add.mpr (Or.inl (List.mem_singleton.mpr rfl)))
          rw [Point.leaves, decide_eq_true rfl] at own
          cases own
      | _ => exact zero
  | _ => exact zero

theorem waited {call : Call} (reachable : (callSystem program).Reachable call) : Waited call.node call.points := by
  refine call_invariant nofun ?_ reachable
  intro begun node node' gone come rest reached unbegun change earlier parallel point member past
  cases begun with
  | false =>
      rw [unbegun rfl, add_zero] at member
      cases change with
      | callEmpty | callSerial => cases parallel
      | callParallel =>
          rw [List.mem_singleton.mp member] at past
          cases past
  | true =>
      rw [change.same.parallel] at parallel
      have placed : forall point, point ∈ gone -> point.Placed node :=
        fun point member => (outlined reached).placed point (Multiset.mem_add.mpr (Or.inl member))
      apply change.latch_zero (account reached) parallel
      rcases Multiset.mem_add.mp member with new | kept
      · rcases change.waited placed parallel new past with ⟨before, old, already⟩ | zero
        · exact earlier parallel before (Multiset.mem_add.mpr (Or.inl old)) already
        · exact zero
      · exact earlier parallel point (Multiset.mem_add.mpr (Or.inr kept)) past

section Returned

variable {call : Call} (reachable : (callSystem program).Reachable call)

include reachable

/-- When `spread_impl` returns, the function has been called for every chunk once. -/
theorem calls_perm_of_returned (returned : .finished .caller ∈ call.points) :
    call.node.calls.Perm (List.range call.node.chunks) := by
  have account := account reachable
  cases parallel : call.node.parallel with
  | true =>
      have counted := account.counted_perm parallel (waited reachable parallel _ returned rfl)
      apply List.perm_iff_count.mpr
      intro index
      have all := counted.count_eq index
      have chunk := account.chunk index
      have called := account.counted parallel index
      rw [List.count_range] at all ⊢
      omega
  | false =>
      -- the caller alone works on a serial call
      have alone : forall index, tally (Point.runs index) call.points = 0 := by
        intro index
        apply tally_eq_zero_iff.mpr
        intro point member
        apply Bool.eq_false_iff.mpr
        intro runs
        have placed := (outlined reachable).placed point member
        have serial : point.ofCaller = true := by
          unfold Point.Placed at placed
          rw [parallel] at placed
          cases point with
          | executing host other phase =>
              cases host with
              | serial => rfl
              | _ => cases placed.1
          | lock | examine | unlock | addRef | submit | mark | takeBack | markInline | finish => cases placed.1
          | publish => rfl
          | _ => cases runs
        have same := eq_of_tally_le_one (parties reachable).caller member returned serial rfl
        rw [same] at runs
        cases runs
      have bundles : call.node.count = 0 := by
        rcases made_of_reachable reachable with ⟨origin, made, same⟩
        rw [same.count]
        rw [same.parallel] at parallel
        cases made with
        | create => cases parallel
        | _ => rfl
      apply List.perm_iff_count.mpr
      intro index
      have chunk := account.chunk index
      have none : call.node.unclaimed index = 0 := by
        apply if_neg
        intro ⟨inside, _⟩
        omega
      rw [alone, none] at chunk
      rw [List.count_range]
      exact chunk

end Returned

/-! ## What the chunks are -/

/-- The chunks of a call tile its iterations. -/
theorem Node.Made.tiles (made : node.Made program) :
    Tiles 0 node.iterations.toNat ((List.range node.chunks).map fun index => (node.range index).bounds) := by
  cases made with
  | blank => exact .nil 0
  | serial iterations some =>
      apply Tiles.single
      exact Nat.pos_of_ne_zero (fun none => some (BitVec.eq_of_toNat_eq none))
  | create iterations several =>
      have bounded := numChunks_le program iterations
      have extras : iterations.toNat % (program.numChunks iterations).toNat < (program.numChunks iterations).toNat :=
        Nat.mod_lt _ (Nat.lt_of_succ_lt several)
      have setup : Tiles 0 iterations.toNat
          (((chunkedSpread iterations (program.numChunks iterations) : ChunkedSpread program.concurrency.bits).chunks
            (min (program.numChunks iterations).toNat iterations.toNat)).map Chunk.bounds) :=
        chunks_tile (Nat.lt_of_succ_lt several) (by omega) (by omega)
      rw [Nat.min_eq_left bounded.1, ChunkedSpread.chunks, List.map_map] at setup
      exact setup

/-- When `spread_impl` returns, the ranges that the function was called with make
up the iterations. -/
theorem partitions_of_returned {call : Call} (reachable : (callSystem program).Reachable call)
    (returned : .finished .caller ∈ call.points) :
    Partitions 0 call.node.iterations.toNat (call.node.calls.map fun index => (call.node.range index).bounds) := by
  rcases made_of_reachable reachable with ⟨origin, made, same⟩
  have tiles : Tiles 0 call.node.iterations.toNat
      ((List.range call.node.chunks).map fun index => (call.node.range index).bounds) := by
    rw [same.iterations, same.chunks, same.range]
    exact made.tiles
  exact tiles.partitions.perm ((calls_perm_of_returned reachable returned).symm.map _)

end Libuv
end Sweater
