import Sweater.Libuv.ChunkAccount

namespace Sweater
namespace Libuv

open Interleaving

/-!
# The steal-back pass

The steal-back pass goes through the bundles from the last one to the first,
and leaves none behind that is still to be started: each is stolen, cancelled,
or left to a thread that has begun to run it.  Whatever the queuer does later,
it finds these chunks claimed.  So the caller waits for running chunks only.
-/

namespace Point

/-- The steal-back pass is done with the bundle. -/
def passed (index : Nat) : Point -> Bool
  | lock .thief other => decide (other < index)
  | examine .thief other => decide (other < index)
  | unlock .thief other _ => decide (other ≤ index)
  | executing (.claimer .thief) other _ => decide (other ≤ index)
  | wait => true
  | _ => false

/-- The thread is in the user's function for the chunk, or about to count it down. -/
def executes (index : Nat) : Point -> Bool
  | executing _ other _ => decide (other = index)
  | _ => false

variable {index other count : Nat}

theorem passed_steal (passed : (steal other).passed index = true) : other ≤ index := by
  cases other with
  | zero => exact Nat.zero_le index
  | succ other => exact of_decide_eq_true passed

theorem passed_queue : (queue count other).passed index = false := by
  unfold queue
  split
  · rfl
  · rfl

end Point

/-- A chunk that nobody will start any more. -/
structure Closed (node : Node) (points : Multiset Point) (index : Nat) : Prop where
  state : node.chunkState index ≠ .pending
  request : node.request index ≠ .queued
  queuer : .unlock .queuer index true ∉ points

variable {program : Program} {cancelMayFail onLoop begun : Bool} {node node' : Node} {point next : Point}
  {points gone come : List Point} {rest : Multiset Point} {index : Nat}

/-! ## Closed chunks stay closed -/

theorem NodeChange.pending (change : NodeChange program true node gone node' come)
    (pending : node'.chunkState index = .pending) : node.chunkState index = .pending := by
  -- no step sets a state back
  have sets : forall target state, state ≠ .pending -> (node.setState target state).chunkState index = .pending ->
      node.chunkState index = .pending := by
    intro target state different after
    by_cases here : index = target
    · rw [here, setState_self] at after
      exact absurd after different
    · rwa [setState_of_ne node here] at after
  cases change with
  | step onLoop point points step =>
      cases step with
      | steal other => exact sets other .doneInline nofun pending
      | cancel other => exact sets other .doneInline nofun pending
      | mark other => exact sets other .queued nofun pending
      | markInline other => exact sets other .doneInline nofun pending
      | _ => exact pending
  | _ => exact pending

theorem NodeChange.queued (change : NodeChange program true node gone node' come)
    (queued : node'.request index = .queued) : node.request index = .queued ∨ .submit index ∈ gone := by
  have sets : forall target request, request ≠ .queued -> (node.setRequest target request).request index = .queued ->
      node.request index = .queued := by
    intro target request different after
    by_cases here : index = target
    · rw [here, setRequest_self] at after
      exact absurd after different
    · rwa [setRequest_of_ne node here] at after
  cases change with
  | step onLoop point points step =>
      cases step with
      | finish other => exact Or.inl (sets other .done nofun queued)
      | cancel other => exact Or.inl (sets other .done nofun queued)
      | submitFails other => exact Or.inl (sets other .refused nofun queued)
      | submit other =>
          by_cases here : index = other
          · rw [here]
            exact Or.inr List.mem_cons_self
          · rw [setRequest_of_ne node here] at queued
            exact Or.inl queued
      | _ => exact Or.inl queued
  | dequeue other => exact Or.inl (sets other .started nofun queued)
  | report other => exact Or.inl (sets other .reported nofun queued)
  | _ => exact Or.inl queued

theorem NodeChange.runsInline (change : NodeChange program true node gone node' come)
    (member : .unlock .queuer index true ∈ come) : .markInline index ∈ gone := by
  have queue : forall count other, Point.unlock .queuer index true ≠ .queue count other := by
    intro count other
    unfold Point.queue
    split <;> exact nofun
  have steal : forall other, Point.unlock .queuer index true ≠ .steal other := by
    intro other
    cases other <;> exact nofun
  cases change with
  | step onLoop point points step =>
      cases step with
      | queueHere =>
          rcases List.mem_cons.mp member with here | last
          · exact absurd here (queue _ _)
          · cases List.mem_singleton.mp last
      | countDown host other =>
          have here := List.mem_singleton.mp member
          cases host with
          | serial | pool => cases here
          | tail => exact absurd here (steal _)
          | claimer claimer =>
              cases claimer with
              | thief => exact absurd here (steal _)
              | queuer => exact absurd here (queue _ _)
      | unlock claimer other runInline =>
          have here := List.mem_singleton.mp member
          cases runInline with
          | true => cases here
          | false =>
              cases claimer with
              | thief => exact absurd here (steal _)
              | queuer => exact absurd here (queue _ _)
      | markInline other =>
          cases List.mem_singleton.mp member
          exact List.mem_cons_self
      | finish | finished => cases member
      | _ => cases List.mem_singleton.mp member
  | drain => exact absurd (List.mem_singleton.mp member) (queue _ _)
  | _ => cases List.mem_singleton.mp member

theorem Closed.change (closed : Closed node ((gone : Multiset Point) + rest) index)
    (locked : Locked node ((gone : Multiset Point) + rest)) (change : NodeChange program true node gone node' come) :
    Closed node' ((come : Multiset Point) + rest) index := by
  have claims : forall point, point ∈ gone -> point.Claims node :=
    fun point member => locked.claims point (Multiset.mem_add.mpr (Or.inl member))
  constructor
  · intro pending
    exact closed.state (change.pending pending)
  · intro queued
    rcases change.queued queued with before | submits
    · exact closed.request before
    · exact closed.state (claims _ submits).1
  · intro member
    rcases Multiset.mem_add.mp member with new | kept
    · exact closed.state (claims _ (change.runsInline new)).1
    · exact closed.queuer (Multiset.mem_add.mpr (Or.inr kept))

/-! ## What the pass leaves behind -/

/-- Every bundle that the pass is done with is closed. -/
def Passed (node : Node) (points : Multiset Point) : Prop :=
  forall point, point ∈ points -> forall index, point.passed index = true -> index < node.count -> Closed node points index

/-- A bundle has been passed before, or it is the one that is examined. -/
theorem NodeStep.passed (step : NodeStep cancelMayFail onLoop node point node' points) (placed : point.Placed node)
    (member : next ∈ points) (passed : next.passed index = true) (inside : index < node.count) :
    point.passed index = true ∨ point = .examine .thief index := by
  -- the examination of a bundle comes after those of the later ones
  have examined : forall {other}, other ≤ index ->
      (Point.examine .thief other).passed index = true ∨ Point.examine .thief other = .examine .thief index := by
    intro other reached
    rcases Nat.lt_or_eq_of_le reached with before | same
    · exact Or.inl (decide_eq_true before)
    · exact Or.inr (by rw [same])
  cases step with
  | queueHere =>
      rcases List.mem_cons.mp member with here | last
      · rw [here, Point.passed_queue] at passed
        cases passed
      · rw [List.mem_singleton.mp last] at passed
        cases passed
  | countDown host other =>
      rw [List.mem_singleton.mp member] at passed
      cases host with
      | serial | pool => cases passed
      | tail =>
          have reached := Point.passed_steal passed
          rw [placed.2] at reached
          exact absurd inside (Nat.not_lt.mpr reached)
      | claimer claimer =>
          cases claimer with
          | thief => exact Or.inl (decide_eq_true (Point.passed_steal passed))
          | queuer =>
              change (Point.queue node.count (other + 1)).passed index = true at passed
              rw [Point.passed_queue] at passed
              cases passed
  | unlock claimer other runInline =>
      rw [List.mem_singleton.mp member] at passed
      cases claimer with
      | thief =>
          cases runInline with
          | true => exact Or.inl passed
          | false => exact Or.inl (decide_eq_true (Point.passed_steal passed))
      | queuer =>
          cases runInline with
          | true => cases passed
          | false =>
              change (Point.queue node.count (other + 1)).passed index = true at passed
              rw [Point.passed_queue] at passed
              cases passed
  | lock claimer other =>
      rw [List.mem_singleton.mp member] at passed
      cases claimer with
      | thief => exact Or.inl passed
      | queuer => cases passed
  | returnChunk host other =>
      rw [List.mem_singleton.mp member] at passed
      cases host with
      | claimer claimer =>
          cases claimer with
          | thief => exact Or.inl passed
          | queuer => cases passed
      | _ => cases passed
  | steal other | cancel other | cancelFails other | stealDone other =>
      rw [List.mem_singleton.mp member] at passed
      exact examined (of_decide_eq_true passed)
  | finish | finished => cases member
  | release owner | releaseLast owner | delete owner | _ =>
      rw [List.mem_singleton.mp member] at passed
      cases passed

/-- If `uv_cancel` fails only for requests that a worker has dequeued, the pass
closes the bundle that it examines. -/
theorem NodeStep.closes (step : NodeStep false onLoop node (.examine .thief index) node' points)
    (locked : Locked node (([.examine .thief index] : List Point) + rest)) :
    Closed node' ((points : Multiset Point) + rest) index := by
  have settled : node.Settled index := locked.settled_of_critical rfl rfl
  have queuer : forall runInline, .unlock .queuer index true ∉
      (([Point.unlock .thief index runInline] : Multiset Point) + rest) := by
    intro runInline member
    rcases Multiset.mem_add.mp member with new | kept
    · cases List.mem_singleton.mp new
    · cases (locked.alone rfl).2 _ kept
  cases step with
  | steal _ pending =>
      refine ⟨Node.setState_ne nofun, ?_, queuer true⟩
      change node.request index ≠ .queued
      rw [settled.pending pending]
      exact nofun
  | cancel _ queued =>
      refine ⟨Node.setState_ne nofun, ?_, queuer true⟩
      change (node.setRequest index .done).request index ≠ .queued
      exact Node.setRequest_ne nofun
  | cancelFails _ queued request =>
      refine ⟨?_, ?_, queuer false⟩
      · rw [queued]
        exact nofun
      · rcases request with dequeued | mayFail
        · exact dequeued
        · cases mayFail
  | stealDone _ doneInline =>
      refine ⟨?_, ?_, queuer false⟩
      · rw [doneInline]
        exact nofun
      · intro queued
        have finished := settled.doneInline doneInline
        rw [queued] at finished
        cases finished

theorem passed_change (strict : program.cancelMayFail = false) (unbegun : begun = false -> rest = 0)
    (change : NodeChange program begun node gone node' come) (locked : Locked node ((gone : Multiset Point) + rest))
    (outlined : Outlined node ((gone : Multiset Point) + rest)) (passed : Passed node ((gone : Multiset Point) + rest)) :
    Passed node' ((come : Multiset Point) + rest) := by
  intro next member index past inside
  cases begun with
  | false =>
      rw [unbegun rfl, add_zero] at member
      cases change <;> cases List.mem_singleton.mp member <;> cases past
  | true =>
      rw [change.same.count] at inside
      -- who was past the bundle has closed it
      have before : forall point, point ∈ (gone : Multiset Point) + rest -> point.passed index = true ->
          Closed node' ((come : Multiset Point) + rest) index :=
        fun point old already => (passed point old index already inside).change locked change
      rcases Multiset.mem_add.mp member with new | kept
      · cases change with
        | step onLoop point points step =>
            have here : point ∈ (([point] : List Point) : Multiset Point) + rest :=
              Multiset.mem_add.mpr (Or.inl (List.mem_singleton.mpr rfl))
            rcases step.passed (outlined.placed point here) new past inside with already | examines
            · exact before point here already
            · subst examines
              rw [strict] at step
              exact step.closes locked
        | drain =>
            rw [List.mem_singleton.mp new, Point.passed_queue] at past
            cases past
        | _ =>
            rw [List.mem_singleton.mp new] at past
            cases past
      · exact before next (Multiset.mem_add.mpr (Or.inr kept)) past

section Waiting

variable {call : Call} (strict : program.cancelMayFail = false) (reachable : (callSystem program).Reachable call)

include strict reachable

theorem passed : Passed call.node call.points := by
  refine call_invariant (fun _ impossible => absurd impossible (Multiset.notMem_zero _)) ?_ reachable
  intro begun node node' gone come rest reached unbegun change earlier
  exact passed_change strict unbegun change (locked reached) (outlined reached) earlier

/-- While the caller waits, no chunk is pending, and none is in the queue of the pool. -/
theorem closed_of_waiting (waiting : .wait ∈ call.points) {index : Nat} (inside : index < call.node.count) :
    Closed call.node call.points index :=
  passed strict reachable .wait waiting index rfl inside

/-- While the caller waits, each chunk has been counted down, or a thread is at it. -/
theorem executed_of_waiting (waiting : .wait ∈ call.points) {index : Nat} (inside : index < call.node.chunks) :
    index ∈ call.node.counted ∨ Exists fun point => point ∈ call.points ∧ point.executes index = true := by
  have account := account reachable
  have outlined := outlined reachable
  have parallel : call.node.parallel = true := outlined.placed .wait waiting
  have caller : forall point, point ∈ call.points -> point.ofCaller = true -> point = .wait :=
    fun point member own => eq_of_tally_le_one (parties reachable).caller member waiting own rfl
  have chunk := account.chunk index
  rw [if_pos inside] at chunk
  have none : call.node.unclaimed index = 0 := by
    by_cases bundle : index < call.node.count
    · have closed := closed_of_waiting strict reachable waiting bundle
      exact Node.unclaimed_of_state closed.state closed.request
    · exact if_neg (fun claim => bundle claim.1)
  by_cases called : 0 < tally (Point.runs index) call.points
  · rcases tally_pos_iff.mp called with ⟨point, member, runs⟩
    have placed := outlined.placed point member
    have claims := (locked reachable).claims point member
    cases point with
    | executing host other phase =>
        cases phase with
        | running => exact Or.inr ⟨_, member, runs⟩
        | leaving => cases runs
    | publish queuedChunks place => cases caller _ member rfl
    | unlock claimer other runInline =>
        cases claimer with
        | thief => cases caller _ member rfl
        | queuer =>
            cases runInline with
            | true =>
                have same : other = index := of_decide_eq_true runs
                subst same
                exact absurd member (closed_of_waiting strict reachable waiting placed.2).queuer
            | false => cases runs
    | takeBack other | markInline other =>
        have same : other = index := of_decide_eq_true runs
        subst same
        exact absurd claims.1 (closed_of_waiting strict reachable waiting placed.2).state
    | _ => cases runs
  · by_cases leaving : 0 < tally (Point.leaves index) call.points
    · rcases tally_pos_iff.mp leaving with ⟨point, member, leaves⟩
      refine Or.inr ⟨point, member, ?_⟩
      cases point with
      | executing host other phase =>
          cases phase with
          | running => cases leaves
          | leaving => exact leaves
      | _ => cases leaves
    · have counted := account.counted parallel index
      exact Or.inl (List.count_pos_iff.mp (by omega))

end Waiting

end Libuv
end Sweater
