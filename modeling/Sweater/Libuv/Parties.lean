import Sweater.Libuv.OneCall

namespace Sweater
namespace Libuv

open Spread

/-!
# The parties of a call

A call has one caller; it hands its node to `queue_chunks` at most once, itself
or through the list of nodes, and so has at most one queuer.  The points tell
the parties apart, and each point belongs to a chunk of the right kind.
-/

namespace Point

/-- `spread_impl` itself. -/
def ofCaller : Point -> Bool
  | publish _ _ => true
  | lock .thief _ => true
  | examine .thief _ => true
  | unlock .thief _ _ => true
  | executing .serial _ _ => true
  | executing .tail _ _ => true
  | executing (.claimer .thief) _ _ => true
  | wait => true
  | release .caller => true
  | delete .caller => true
  | finished .caller => true
  | _ => false

/-- `queue_chunks` -/
def ofQueuer : Point -> Bool
  | lock .queuer _ => true
  | examine .queuer _ => true
  | unlock .queuer _ _ => true
  | addRef _ => true
  | submit _ => true
  | mark _ => true
  | takeBack _ => true
  | markInline _ => true
  | executing (.claimer .queuer) _ _ => true
  | release .queuer => true
  | delete .queuer => true
  | finished .queuer => true
  | _ => false

/-- The caller has neither queued the chunks nor pushed the node. -/
def unhanded : Point -> Bool
  | publish _ .created => true
  | publish _ .loadHead => true
  | publish _ (.link _) => true
  | publish _ (.push _) => true
  | _ => false

/-! ### Where a loop goes on -/

/-- A property that does not tell apart how far the loops over the bundles are. -/
structure Uniform {Value : Type} (property : Point -> Value) : Prop where
  thief : forall index, property (lock .thief index) = property wait
  queuer : forall index, property (lock .queuer index) = property (release .queuer)

/-- Where a thread is after a chunk, as far as such a property can tell. -/
def after (index : Nat) : Host -> Point
  | .serial => finished .caller
  | .tail => wait
  | .claimer .thief => wait
  | .claimer .queuer => release .queuer
  | .pool => finish index

section Continuations

variable {Value : Type} {property : Point -> Value} (uniform : Uniform property) (count index : Nat)

include uniform in
theorem Uniform.steal : property (steal index) = property wait := by
  cases index with
  | zero => rfl
  | succ index => exact uniform.thief index

include uniform in
theorem Uniform.queue : property (queue count index) = property (release .queuer) := by
  unfold Point.queue
  split
  · exact uniform.queuer index
  · rfl

include uniform in
theorem Uniform.next (claimer : Claimer) : property (next count index claimer) = property (after index (.claimer claimer)) := by
  cases claimer with
  | thief => exact uniform.steal index
  | queuer => exact uniform.queue count (index + 1)

include uniform in
theorem Uniform.resume (host : Host) : property (resume count index host) = property (after index host) := by
  cases host with
  | serial | pool => rfl
  | tail => exact uniform.steal index
  | claimer claimer => exact uniform.next count index claimer

theorem ofCaller_uniform : Uniform ofCaller := ⟨fun _ => rfl, fun _ => rfl⟩

theorem ofQueuer_uniform : Uniform ofQueuer := ⟨fun _ => rfl, fun _ => rfl⟩

theorem unhanded_uniform : Uniform unhanded := ⟨fun _ => rfl, fun _ => rfl⟩

end Continuations

end Point

/-! ## What never changes -/

/-- The two nodes are of the same call. -/
structure Node.Same (node node' : Node) : Prop where
  iterations : node'.iterations = node.iterations
  chunks : node'.chunks = node.chunks
  parallel : node'.parallel = node.parallel
  range : node'.range = node.range
  count : node'.count = node.count

theorem Node.Same.refl (node : Node) : node.Same node := ⟨rfl, rfl, rfl, rfl, rfl⟩

variable {program : Program} {cancelMayFail onLoop begun : Bool} {node node' : Node} {point : Point}
  {points gone come : List Point}

theorem NodeStep.same (step : NodeStep cancelMayFail onLoop node point node' points) : node.Same node' := by
  cases step <;> exact ⟨rfl, rfl, rfl, rfl, rfl⟩

theorem NodeChange.same (change : NodeChange program true node gone node' come) : node.Same node' := by
  cases change with
  | step onLoop point points step => exact step.same
  | _ => exact ⟨rfl, rfl, rfl, rfl, rfl⟩

/-- What a node is made for. -/
inductive Node.Made (program : Program) : Node -> Prop
  | blank : Made program .blank
  | serial (iterations : BitVec 32) : iterations ≠ 0 -> Made program (.serial iterations)
  | create (iterations : BitVec 32) : 1 < (program.numChunks iterations).toNat -> Made program (.create program iterations)

theorem NodeChange.made (change : NodeChange program false node gone node' come) : node'.Made program := by
  cases change with
  | callEmpty => exact .blank
  | callSerial iterations some => exact .serial iterations some
  | callParallel iterations several => exact .create iterations several

/-- A node is one of those that are made, except for what the parties write. -/
theorem made_of_reachable {call : Call} (reachable : (callSystem program).Reachable call) :
    Exists fun origin : Node => origin.Made program ∧ origin.Same call.node := by
  refine @call_invariant _ _ (fun node _ => Exists fun origin : Node => origin.Made program ∧ origin.Same node)
    ?_ ?_ reachable
  · exact ⟨.blank, .blank, .refl _⟩
  · intro begun node node' gone come rest _ _ change earlier
    cases begun with
    | false => exact ⟨node', change.made, .refl _⟩
    | true =>
        rcases earlier with ⟨origin, made, same⟩
        have kept := change.same
        exact ⟨origin, made, kept.iterations.trans same.iterations, kept.chunks.trans same.chunks,
          kept.parallel.trans same.parallel, kept.range.trans same.range, kept.count.trans same.count⟩

theorem toNat_least (first second : BitVec 32) : (least first second).toNat = min first.toNat second.toNat := by
  rw [least]
  split
  · rename_i less
    exact (Nat.min_eq_right (Nat.le_of_lt less)).symm
  · rename_i atLeast
    exact (Nat.min_eq_left (Nat.not_lt.mp atLeast)).symm

theorem numChunks_le (program : Program) (iterations : BitVec 32) :
    (program.numChunks iterations).toNat ≤ iterations.toNat ∧
      (program.numChunks iterations).toNat < 2 ^ program.concurrency.bits := by
  have fits : 2 ^ program.concurrency.bits - 1 < 2 ^ 32 := by
    cases program.concurrency <;> decide
  rw [Program.numChunks, toNat_least, toNat_least, BitVec.toNat_ofNat, BitVec.toNat_ofNat, Nat.mod_eq_of_lt fits]
  have positive := Nat.two_pow_pos program.concurrency.bits
  omega

/-! ## Counting the parties -/

theorem countP_point {property : Point -> Bool} {first second : Point} (same : property first = property second) :
    [first].countP property = [second].countP property := by
  rw [List.countP_singleton, List.countP_singleton, same]

theorem NodeStep.caller (step : NodeStep cancelMayFail onLoop node point node' points) :
    points.countP Point.ofCaller ≤ [point].countP Point.ofCaller := by
  cases step with
  | queueHere queuedChunks =>
      rw [List.countP_cons, Point.ofCaller_uniform.queue]
      exact Nat.le_refl _
  | countDown host index =>
      rw [countP_point (Point.ofCaller_uniform.resume _ index host)]
      cases host with
      | claimer claimer => cases claimer <;> exact Nat.le_refl _
      | _ => exact Nat.le_of_ble_eq_true rfl
  | unlock claimer index runInline =>
      cases runInline with
      | true => cases claimer <;> exact Nat.le_refl _
      | false =>
          apply Nat.le_trans (Nat.le_of_eq (countP_point (Point.ofCaller_uniform.next _ index claimer)))
          cases claimer <;> exact Nat.le_refl _
  | lock claimer => cases claimer <;> exact Nat.le_refl _
  | release owner | releaseLast owner | delete owner => cases owner <;> exact Nat.le_refl _
  | returnChunk host =>
      cases host with
      | claimer claimer => cases claimer <;> exact Nat.le_refl _
      | _ => exact Nat.le_refl _
  | _ => exact Nat.le_of_ble_eq_true rfl

theorem NodeStep.queuer (step : NodeStep cancelMayFail onLoop node point node' points) :
    points.countP Point.ofQueuer + node.handed ≤ [point].countP Point.ofQueuer + node'.handed := by
  cases step with
  | queueHere queuedChunks =>
      rw [List.countP_cons, Point.ofQueuer_uniform.queue]
      change 1 + node.handed ≤ 0 + (node.handed + 1)
      omega
  | countDown host index =>
      rw [countP_point (Point.ofQueuer_uniform.resume _ index host)]
      cases host with
      | claimer claimer => cases claimer <;> exact Nat.le_refl _
      | _ => exact Nat.le_refl _
  | unlock claimer index runInline =>
      apply Nat.add_le_add_right
      cases runInline with
      | true => cases claimer <;> exact Nat.le_refl _
      | false =>
          apply Nat.le_trans (Nat.le_of_eq (countP_point (Point.ofQueuer_uniform.next _ index claimer)))
          cases claimer <;> exact Nat.le_refl _
  | lock claimer => cases claimer <;> exact Nat.le_refl _
  | release owner | releaseLast owner | delete owner => cases owner <;> exact Nat.le_refl _
  | returnChunk host =>
      cases host with
      | claimer claimer => cases claimer <;> exact Nat.le_refl _
      | _ => exact Nat.le_refl _
  | finished owner => exact Nat.add_le_add_right (Nat.zero_le _) _
  | _ => exact Nat.le_refl _

theorem NodeStep.handing (step : NodeStep cancelMayFail onLoop node point node' points) :
    points.countP Point.unhanded + node'.listed + node'.handed =
      [point].countP Point.unhanded + node.listed + node.handed := by
  cases step with
  | queueHere queuedChunks =>
      rw [List.countP_cons, Point.unhanded_uniform.queue]
      change 0 + node.listed + (node.handed + 1) = 1 + node.listed + node.handed
      omega
  | countDown host index =>
      rw [countP_point (Point.unhanded_uniform.resume _ index host)]
      cases host with
      | claimer claimer => cases claimer <;> rfl
      | _ => rfl
  | unlock claimer index runInline =>
      have same : [if runInline then .executing (.claimer claimer) index .running
          else .next node.count index claimer].countP Point.unhanded = 0 := by
        cases runInline with
        | true => rfl
        | false =>
            apply (countP_point (Point.unhanded_uniform.next _ index claimer)).trans
            cases claimer <;> rfl
      rw [same]
      rfl
  | _ => rfl

theorem NodeChange.caller (change : NodeChange program begun node gone node' come) :
    come.countP Point.ofCaller ≤ gone.countP Point.ofCaller + if begun then 0 else 1 := by
  cases change with
  | step onLoop point points step => exact step.caller
  | drain =>
      rw [countP_point (Point.ofCaller_uniform.queue _ _)]
      exact Nat.le_refl _
  | dequeue | report => exact Nat.le_refl _
  | _ => exact Nat.le_refl _

theorem NodeChange.queuer (change : NodeChange program begun node gone node' come) :
    come.countP Point.ofQueuer + node.handed ≤ gone.countP Point.ofQueuer + node'.handed := by
  cases change with
  | step onLoop point points step => exact step.queuer
  | drain =>
      rw [countP_point (Point.ofQueuer_uniform.queue _ _)]
      change 1 + node.handed ≤ 0 + (node.handed + 1)
      omega
  | _ => exact Nat.le_refl _

theorem NodeChange.handing (change : NodeChange program true node gone node' come) :
    come.countP Point.unhanded + node'.listed + node'.handed =
      gone.countP Point.unhanded + node.listed + node.handed := by
  cases change with
  | step onLoop point points step => exact step.handing
  | drain listed =>
      rw [countP_point (Point.unhanded_uniform.queue _ _)]
      change 0 + (node.listed - 1) + (node.handed + 1) = 0 + node.listed + node.handed
      omega
  | push =>
      change 0 + (node.listed + 1) + node.handed = 1 + node.listed + node.handed
      omega
  | _ => rfl

/-- The parties, and how often the node is handed on. -/
structure Parties (node : Node) (points : Multiset Point) : Prop where
  caller : tally Point.ofCaller points ≤ 1
  queuer : tally Point.ofQueuer points ≤ node.handed
  handed : tally Point.unhanded points + node.listed + node.handed = if node.parallel then 1 else 0

theorem parties_change {rest : Multiset Point} (unbegun : begun = false -> rest = 0)
    (change : NodeChange program begun node gone node' come) (parties : Parties node ((gone : Multiset Point) + rest)) :
    Parties node' ((come : Multiset Point) + rest) := by
  obtain ⟨caller, queuer, handed⟩ := parties
  cases begun with
  | false =>
      rw [unbegun rfl]
      cases change <;> exact ⟨Nat.le_refl _, Nat.le_refl _, rfl⟩
  | true =>
      have same := change.same
      have callerStep := change.caller
      have queuerStep := change.queuer
      have handedStep := change.handing
      rw [tally_add] at caller queuer handed
      refine ⟨?_, ?_, ?_⟩
      · rw [tally_add]
        exact Nat.le_trans (Nat.add_le_add_right callerStep _) caller
      · rw [tally_add]
        omega
      · rw [tally_add, same.parallel]
        omega

theorem parties {call : Call} (reachable : (callSystem program).Reachable call) : Parties call.node call.points := by
  refine call_invariant ⟨Nat.zero_le _, Nat.zero_le _, rfl⟩ ?_ reachable
  intro begun node node' gone come rest _ unbegun change earlier
  exact parties_change unbegun change earlier

/-! ## Where the points belong -/

/-- The chunk of a point is one of the call, and the tail chunk is the caller's. -/
def Point.Placed (node : Node) : Point -> Prop
  | .publish queuedChunks _ => node.parallel = true ∧ queuedChunks = node.count
  | .lock _ index => node.parallel = true ∧ index < node.count
  | .examine _ index => node.parallel = true ∧ index < node.count
  | .unlock _ index _ => node.parallel = true ∧ index < node.count
  | .addRef index => node.parallel = true ∧ index < node.count
  | .submit index => node.parallel = true ∧ index < node.count
  | .mark index => node.parallel = true ∧ index < node.count
  | .takeBack index => node.parallel = true ∧ index < node.count
  | .markInline index => node.parallel = true ∧ index < node.count
  | .executing .serial index _ => node.parallel = false ∧ index = 0
  | .executing .tail index _ => node.parallel = true ∧ index = node.count
  | .executing (.claimer _) index _ => node.parallel = true ∧ index < node.count
  | .executing .pool index _ => node.parallel = true ∧ index < node.count
  | .finish index => node.parallel = true ∧ index < node.count
  | .wait => node.parallel = true
  | .release _ => node.parallel = true
  | .delete _ => node.parallel = true
  | .finished .caller => True
  | .finished _ => node.parallel = true

theorem Point.Placed.same (placed : point.Placed node) (same : node.Same node') : point.Placed node' := by
  unfold Point.Placed at placed ⊢
  rw [same.parallel, same.count]
  exact placed

theorem Point.placed_steal {index : Nat} (parallel : node.parallel = true) (inside : index ≤ node.count) :
    (steal index).Placed node := by
  cases index with
  | zero => exact parallel
  | succ index => exact ⟨parallel, inside⟩

theorem Point.placed_queue {index : Nat} (parallel : node.parallel = true) : (queue node.count index).Placed node := by
  unfold Point.queue
  by_cases more : index < node.count
  · rw [if_pos more]
    exact ⟨parallel, more⟩
  · rw [if_neg more]
    exact parallel

theorem Point.placed_next {index : Nat} (parallel : node.parallel = true) (inside : index < node.count)
    (claimer : Claimer) : (next node.count index claimer).Placed node := by
  cases claimer with
  | thief => exact placed_steal parallel (Nat.le_of_lt inside)
  | queuer => exact placed_queue parallel

theorem NodeStep.placed (step : NodeStep cancelMayFail onLoop node point node' points) (placed : point.Placed node) :
    forall next, next ∈ points -> next.Placed node := by
  have only : forall {next : Point}, next.Placed node -> forall other, other ∈ [next] -> other.Placed node := by
    intro next holds other member
    rw [List.mem_singleton.mp member]
    exact holds
  cases step with
  | queueHere queuedChunks =>
      intro next member
      rcases List.mem_cons.mp member with rfl | last
      · exact Point.placed_queue placed.1
      · rw [List.mem_singleton.mp last]
        exact placed
  | returnSerial index => exact only trivial
  | returnChunk host index =>
      cases host with
      | claimer claimer => exact only placed
      | _ => exact only placed
  | countDown host index =>
      apply only
      cases host with
      | serial => trivial
      | tail => exact Point.placed_steal placed.1 (Nat.le_of_eq placed.2)
      | claimer claimer => exact Point.placed_next placed.1 placed.2 claimer
      | pool => exact placed
  | finish | finished => exact nofun
  | unlock claimer index runInline =>
      apply only
      cases runInline with
      | true => exact placed
      | false => exact Point.placed_next placed.1 placed.2 claimer
  | release owner | delete owner => cases owner <;> first | exact only trivial | exact only placed
  | _ => exact only placed

/-- The requests that libuv has belong to bundles, and every point to its chunk. -/
structure Outlined (node : Node) (points : Multiset Point) : Prop where
  placed : forall point, point ∈ points -> point.Placed node
  used : forall index, node.request index ≠ .idle -> node.parallel = true ∧ index < node.count

section Requests

variable {index other : Nat} {request : Request}

@[simp] theorem setRequest_self (node : Node) (index : Nat) (request : Request) :
    (node.setRequest index request).request index = request :=
  Function.update_self _ _ _

theorem setRequest_of_ne (node : Node) (different : other ≠ index) (request : Request) :
    (node.setRequest index request).request other = node.request other :=
  Function.update_of_ne different _ _

@[simp] theorem setState_self (node : Node) (index : Nat) (state : ChunkState) :
    (node.setState index state).chunkState index = state :=
  Function.update_self _ _ _

theorem setState_of_ne (node : Node) (different : other ≠ index) (state : ChunkState) :
    (node.setState index state).chunkState other = node.chunkState other :=
  Function.update_of_ne different _ _

end Requests

/-- Only requests of the call are ever used. -/
theorem NodeChange.used (change : NodeChange program true node gone node' come)
    (placed : forall point, point ∈ gone -> point.Placed node) {index : Nat} (used : node'.request index ≠ .idle) :
    node.request index ≠ .idle ∨ (node.parallel = true ∧ index < node.count) := by
  -- the request that a step sets is one of the call
  have sets : forall target request, node'.request = (node.setRequest target request).request ->
      node.request target ≠ .idle ∨ (node.parallel = true ∧ target < node.count) ->
      node.request index ≠ .idle ∨ (node.parallel = true ∧ index < node.count) := by
    intro target request same holds
    by_cases here : index = target
    · rw [here]
      exact holds
    · rw [same, setRequest_of_ne node here] at used
      exact Or.inl used
  cases change with
  | step onLoop point points step =>
      have place := placed point List.mem_cons_self
      cases step with
      | cancel index _ queued => exact sets index .done rfl (Or.inl (by rw [queued]; exact nofun))
      | finish index => exact sets index .done rfl (Or.inr place)
      | submit index => exact sets index .queued rfl (Or.inr place)
      | submitFails index => exact sets index .refused rfl (Or.inr place)
      | _ => exact Or.inl used
  | dequeue index queued => exact sets index .started rfl (Or.inl (by rw [queued]; exact nofun))
  | report index done => exact sets index .reported rfl (Or.inl (by rw [done]; exact nofun))
  | _ => exact Or.inl used

theorem outlined_change {rest : Multiset Point} (unbegun : begun = false -> rest = 0)
    (change : NodeChange program begun node gone node' come) (parties : Parties node ((gone : Multiset Point) + rest))
    (outlined : Outlined node ((gone : Multiset Point) + rest)) : Outlined node' ((come : Multiset Point) + rest) := by
  cases begun with
  | false =>
      rw [unbegun rfl, add_zero]
      cases change with
      | callEmpty => exact ⟨fun point member => by rw [List.mem_singleton.mp member]; trivial, fun _ used => absurd rfl used⟩
      | callSerial iterations =>
          refine ⟨fun point member => ?_, fun _ used => absurd rfl used⟩
          rw [List.mem_singleton.mp member]
          exact ⟨rfl, rfl⟩
      | callParallel iterations several =>
          refine ⟨fun point member => ?_, fun _ used => absurd rfl used⟩
          rw [List.mem_singleton.mp member]
          exact ⟨rfl, rfl⟩
  | true =>
      have same := change.same
      have before : forall point, point ∈ gone -> point.Placed node :=
        fun point member => outlined.placed point (Multiset.mem_add.mpr (Or.inl member))
      constructor
      · intro point member
        apply Point.Placed.same _ same
        rcases Multiset.mem_add.mp member with new | kept
        · revert point
          cases change with
          | step onLoop point points step => exact fun next _ new => step.placed (before point List.mem_cons_self) next new
          | loadHead queuedChunks | pushFails queuedChunks | push queuedChunks | send queuedChunks =>
              intro next _ new
              rw [List.mem_singleton.mp new]
              have old := before _ List.mem_cons_self
              exact old
          | dequeue index queued =>
              intro next _ new
              rw [List.mem_singleton.mp new]
              exact outlined.used index (by rw [queued]; exact nofun)
          | report index done =>
              intro next _ new
              rw [List.mem_singleton.mp new]
              exact (outlined.used index (by rw [done]; exact nofun)).1
          | drain listed =>
              intro next _ new
              rw [List.mem_singleton.mp new]
              apply Point.placed_queue
              have handed := parties.handed
              cases parallel : node.parallel with
              | true => rfl
              | false =>
                  rw [parallel] at handed
                  have none : tally Point.unhanded (((([] : List Point) : Multiset Point)) + rest) + node.listed + node.handed = 0 := handed
                  omega
        · exact outlined.placed point (Multiset.mem_add.mpr (Or.inr kept))
      · intro index used
        rw [same.parallel, same.count]
        rcases change.used before used with earlier | inside
        · exact outlined.used index earlier
        · exact inside

theorem outlined {call : Call} (reachable : (callSystem program).Reachable call) : Outlined call.node call.points := by
  refine call_invariant ⟨fun _ impossible => absurd impossible (Multiset.notMem_zero _), fun _ used => absurd rfl used⟩
    ?_ reachable
  intro begun node node' gone come rest reached unbegun change earlier
  exact outlined_change unbegun change (parties reached) earlier

end Libuv
end Sweater
