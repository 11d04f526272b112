import Sweater.Interleaving.Census
import Sweater.Libuv.CriticalSection

namespace Sweater
namespace Libuv

open Interleaving

/-!
# The references to a node

The caller has one reference and the queuer another one, from the creation of
the node until they release it.  Each request has one from before it is queued
until its after-work callback releases it.  `refs` is their number, so that who
drops the last one is alone with the node.
-/

namespace Point

/-- The caller has not released the node. -/
def callerHolds : Point -> Bool
  | publish _ _ => true
  | lock .thief _ => true
  | examine .thief _ => true
  | unlock .thief _ _ => true
  | executing .tail _ _ => true
  | executing (.claimer .thief) _ _ => true
  | wait => true
  | release .caller => true
  | _ => false

/-- The queuer has begun, and not released the node. -/
def queuerHolds : Point -> Bool
  | lock .queuer _ => true
  | examine .queuer _ => true
  | unlock .queuer _ _ => true
  | addRef _ => true
  | submit _ => true
  | mark _ => true
  | takeBack _ => true
  | markInline _ => true
  | executing (.claimer .queuer) _ _ => true
  | release .queuer => true
  | _ => false

/-- The queuer has taken a reference for a request that libuv does not have. -/
def queuing : Point -> Bool
  | submit _ => true
  | takeBack _ => true
  | _ => false

/-- The after-work callback. -/
def reports : Point -> Bool
  | release .callback => true
  | _ => false

def deletes : Point -> Bool
  | delete _ => true
  | _ => false

/-- The references that belong to a program point; before the node is handed
on, its caller has that of the queuer too. -/
def references : Point -> Nat
  | publish _ .created => 2
  | publish _ .loadHead => 2
  | publish _ (.link _) => 2
  | publish _ (.push _) => 2
  | publish _ .send => 1
  | publish _ .tail => 1
  | lock _ _ => 1
  | examine _ _ => 1
  | unlock _ _ _ => 1
  | addRef _ => 1
  | submit _ => 2
  | mark _ => 1
  | takeBack _ => 2
  | markInline _ => 1
  | executing .serial _ _ => 0
  | executing .tail _ _ => 1
  | executing (.claimer _) _ _ => 1
  | executing .pool _ _ => 0
  | finish _ => 0
  | wait => 1
  | release _ => 1
  | delete _ => 0
  | finished _ => 0

theorem references_uniform : Uniform references := ⟨fun _ => rfl, fun _ => rfl⟩

theorem deletes_uniform : Uniform deletes := ⟨fun _ => rfl, fun _ => rfl⟩

theorem reports_uniform : Uniform reports := ⟨fun _ => rfl, fun _ => rfl⟩

theorem ofCaller_of_callerHolds {point : Point} (holds : point.callerHolds = true) : point.ofCaller = true := by
  cases point with
  | lock claimer | examine claimer | unlock claimer => cases claimer <;> first | rfl | cases holds
  | executing host =>
      cases host with
      | claimer claimer => cases claimer <;> first | rfl | cases holds
      | _ => first | rfl | cases holds
  | release owner => cases owner <;> first | rfl | cases holds
  | _ => first | rfl | cases holds

theorem ofQueuer_of_queuerHolds {point : Point} (holds : point.queuerHolds = true) : point.ofQueuer = true := by
  cases point with
  | lock claimer | examine claimer | unlock claimer => cases claimer <;> first | rfl | cases holds
  | executing host =>
      cases host with
      | claimer claimer => cases claimer <;> first | rfl | cases holds
      | _ => cases holds
  | release owner => cases owner <;> first | rfl | cases holds
  | _ => first | rfl | cases holds

/-- Who has them. -/
theorem references_eq (point : Point) : point.references =
    (if point.callerHolds = true then 1 else 0) + (if point.unhanded = true then 1 else 0) +
      (if point.queuerHolds = true then 1 else 0) + (if point.queuing = true then 1 else 0) +
      (if point.reports = true then 1 else 0) := by
  cases point with
  | publish queuedChunks place => cases place <;> rfl
  | lock claimer | examine claimer | unlock claimer => cases claimer <;> rfl
  | executing host =>
      cases host with
      | claimer claimer => cases claimer <;> rfl
      | _ => rfl
  | release owner | delete owner | finished owner => cases owner <;> rfl
  | _ => rfl

end Point

/-- All references of the program points. -/
def load (points : Multiset Point) : Nat := (points.map Point.references).sum

@[simp] theorem load_add (list : List Point) (rest : Multiset Point) :
    load ((list : Multiset Point) + rest) = (list.map Point.references).sum + load rest := by
  rw [load, Multiset.map_add, Multiset.sum_add, Multiset.map_coe, Multiset.sum_coe, load]

theorem references_le_load {point : Point} {points : Multiset Point} (member : point ∈ points) :
    point.references ≤ load points :=
  Multiset.single_le_sum (fun _ _ => Nat.zero_le _) _ (Multiset.mem_map_of_mem _ member)

theorem load_eq (points : Multiset Point) :
    load points = tally Point.callerHolds points + tally Point.unhanded points + tally Point.queuerHolds points +
      tally Point.queuing points + tally Point.reports points := by
  induction points using Multiset.induction_on with
  | empty => rfl
  | cons point rest inductionHypothesis =>
      change load (([point] : Multiset Point) + rest) = tally _ (([point] : Multiset Point) + rest) +
        tally _ (([point] : Multiset Point) + rest) + tally _ (([point] : Multiset Point) + rest) +
        tally _ (([point] : Multiset Point) + rest) + tally _ (([point] : Multiset Point) + rest)
      simp only [load_add, tally_add, List.countP_singleton, List.map_cons, List.map_nil, List.sum_cons, List.sum_nil,
        Point.references_eq point]
      omega

/-! ## Requests that are not reported -/

/-- The after-work callback has not been called. -/
def Request.weight (request : Request) : Nat := if request.outstanding then 1 else 0

/-- It has been called. -/
def Request.told (request : Request) : Nat := if request = .reported then 1 else 0

namespace Node

def requests (node : Node) (weight : Request -> Nat) : Nat :=
  census weight (fun index : Fin node.count => node.request index)

theorem requests_setRequest (node : Node) (weight : Request -> Nat) {index : Nat} (inside : index < node.count)
    (request : Request) :
    (node.setRequest index request).requests weight + weight (node.request index) =
      node.requests weight + weight request := by
  have update : (fun other : Fin node.count => (node.setRequest index request).request other) =
      Function.update (fun other : Fin node.count => node.request other) ⟨index, inside⟩ request := by
    funext other
    by_cases same : other = ⟨index, inside⟩
    · rw [same, Function.update_self]
      exact setRequest_self node index request
    · rw [Function.update_of_ne same]
      exact setRequest_of_ne node (fun equal => same (Fin.ext equal)) request
  have moved := census_update weight (fun other : Fin node.count => node.request other) ⟨index, inside⟩ request
  rw [← update] at moved
  exact moved

/-- A request is reported once. -/
theorem requests_le_count (node : Node) : node.requests Request.weight + node.requests Request.told ≤ node.count := by
  rw [requests, requests, ← census_add]
  calc census (fun request => request.weight + request.told) (fun index : Fin node.count => node.request index)
      ≤ census (fun _ => 1) (fun index : Fin node.count => node.request index) := by
        apply census_le_census
        intro index
        cases node.request index <;> exact Nat.le_of_ble_eq_true rfl
    _ = node.count := by
        rw [census, Finset.sum_const, Finset.card_univ, Fintype.card_fin, smul_eq_mul, Nat.mul_one]

end Node

variable {program : Program} {cancelMayFail onLoop begun : Bool} {node node' : Node} {point : Point}
  {points gone come : List Point} {rest : Multiset Point}

/-- All references: those of some program points, of the list of nodes and of libuv. -/
def Node.total (node : Node) (references : Nat) : Nat := references + node.listed + node.requests Request.weight

/-! ## One step -/

/-- What a step may do to the references.  The numbers are those of the points
that go and of those that come. -/
inductive Counting (node node' : Node) (gone come : List Point) : Prop
  | keeps :
      node'.total (come.map Point.references).sum = node.total (gone.map Point.references).sum ->
      node'.refs = node.refs -> node'.deletions + come.countP Point.deletes = node.deletions + gone.countP Point.deletes ->
      Counting node node' gone come
  /-- the holder of a reference takes another one -/
  | takes :
      node'.total (come.map Point.references).sum = node.total (gone.map Point.references).sum + 1 ->
      1 ≤ (gone.map Point.references).sum -> node'.refs = node.refs + 1 -> node'.deletions = node.deletions ->
      come.countP Point.deletes = 0 -> gone.countP Point.deletes = 0 -> Counting node node' gone come
  /-- and gives it back -/
  | returns :
      node'.total (come.map Point.references).sum + 1 = node.total (gone.map Point.references).sum ->
      2 ≤ (gone.map Point.references).sum -> node'.refs = node.refs - 1 -> node'.deletions = node.deletions ->
      come.countP Point.deletes = 0 -> gone.countP Point.deletes = 0 -> Counting node node' gone come
  | releases :
      node'.total (come.map Point.references).sum + 1 = node.total (gone.map Point.references).sum ->
      1 ≤ (gone.map Point.references).sum -> node'.refs = node.refs - 1 -> node'.deletions = node.deletions ->
      come.countP Point.deletes = (if node.refs = 1 then 1 else 0) -> gone.countP Point.deletes = 0 ->
      Counting node node' gone come

/-- The references of a point that takes the place of another one. -/
theorem sum_references {first second : Point} (same : first.references = second.references) :
    ([first].map Point.references).sum = ([second].map Point.references).sum := by
  rw [List.map_singleton, List.map_singleton, same]

theorem total_setRequest {index : Nat} (inside : index < node.count) (request : Request) (references : Nat) :
    (node.setRequest index request).total references + (node.request index).weight =
      node.total references + request.weight := by
  have moved := node.requests_setRequest Request.weight inside request
  change references + node.listed + (node.setRequest index request).requests Request.weight + _ =
    references + node.listed + _ + _
  omega

theorem NodeStep.counting_references (step : NodeStep cancelMayFail onLoop node point node' points)
    (locked : Locked node (([point] : Multiset Point) + rest)) (placed : point.Placed node) :
    Counting node node' [point] points := by
  have member : point ∈ ([point] : Multiset Point) + rest :=
    Multiset.mem_add.mpr (Or.inl (List.mem_singleton.mpr rfl))
  have claims : point.Claims node := locked.claims point member
  cases step with
  | queueHere queuedChunks =>
      refine .keeps ?_ rfl ?_
      · rw [List.map_cons, List.sum_cons, Point.references_uniform.queue]
        rfl
      · rw [List.countP_cons, Point.deletes_uniform.queue]
        rfl
  | countDown host index =>
      refine .keeps ?_ rfl ?_
      · rw [sum_references (Point.references_uniform.resume _ index host)]
        cases host with
        | claimer claimer => cases claimer <;> rfl
        | _ => rfl
      · rw [countP_point (Point.deletes_uniform.resume _ index host)]
        cases host with
        | claimer claimer => cases claimer <;> rfl
        | _ => rfl
  | returnChunk host index =>
      cases host <;> exact .keeps rfl rfl rfl
  | unlock claimer index runInline =>
      cases runInline with
      | true => exact .keeps rfl rfl rfl
      | false =>
          refine .keeps ?_ rfl ?_
          · change Node.total _ ([Point.next node.count index claimer].map Point.references).sum = _
            rw [sum_references (Point.references_uniform.next _ index claimer)]
            cases claimer <;> rfl
          · change _ + [Point.next node.count index claimer].countP Point.deletes = _
            rw [countP_point (Point.deletes_uniform.next _ index claimer)]
            cases claimer <;> rfl
  | finish index =>
      have started := locked.started member (show (Point.finish index).inPool index = true from decide_eq_true rfl)
      have moved := total_setRequest placed.2 .done 0
      rw [started] at moved
      exact .keeps (Nat.add_right_cancel moved) rfl rfl
  | cancel index _ queued =>
      have moved := total_setRequest placed.2 .done 1
      rw [queued] at moved
      exact .keeps (Nat.add_right_cancel moved) rfl rfl
  | submit index =>
      have moved := total_setRequest placed.2 .queued 1
      rw [claims.2] at moved
      refine .keeps ?_ rfl rfl
      change (node.setRequest index .queued).total 1 = node.total 2
      change (node.setRequest index .queued).total 1 + 0 = node.total 1 + 1 at moved
      rw [Node.total] at moved ⊢
      rw [Node.total] at moved ⊢
      omega
  | submitFails index =>
      have moved := total_setRequest placed.2 .refused 2
      rw [claims.2] at moved
      exact .keeps (Nat.add_right_cancel moved) rfl rfl
  | addRef index =>
      refine .takes ?_ (Nat.le_refl 1) rfl rfl rfl rfl
      change 2 + node.listed + node.requests Request.weight = 1 + node.listed + node.requests Request.weight + 1
      omega
  | takeBack index =>
      refine .returns ?_ (Nat.le_refl 2) rfl rfl rfl rfl
      change 1 + node.listed + node.requests Request.weight + 1 = 2 + node.listed + node.requests Request.weight
      omega
  | release owner several =>
      refine .releases ?_ (Nat.le_refl 1) rfl rfl ?_ rfl
      · change 0 + node.listed + node.requests Request.weight + 1 = 1 + node.listed + node.requests Request.weight
        omega
      · rw [if_neg several]
        rfl
  | releaseLast owner last =>
      refine .releases ?_ (Nat.le_refl 1) rfl rfl ?_ rfl
      · change 0 + node.listed + node.requests Request.weight + 1 = 1 + node.listed + node.requests Request.weight
        omega
      · rw [if_pos last]
        rfl
  | delete owner =>
      refine .keeps rfl rfl ?_
      change node.deletions + 1 + 0 = node.deletions + (0 + 1)
      omega
  | _ => exact .keeps rfl rfl rfl

theorem NodeChange.counting_references (change : NodeChange program true node gone node' come)
    (locked : Locked node ((gone : Multiset Point) + rest)) (outlined : Outlined node ((gone : Multiset Point) + rest)) :
    Counting node node' gone come := by
  cases change with
  | step onLoop point points step =>
      apply step.counting_references locked
      exact outlined.placed point (Multiset.mem_add.mpr (Or.inl (List.mem_singleton.mpr rfl)))
  | push queuedChunks expected =>
      refine .keeps ?_ rfl rfl
      change 1 + (node.listed + 1) + node.requests Request.weight = 2 + node.listed + node.requests Request.weight
      omega
  | dequeue index queued =>
      have inside := (outlined.used index (by rw [queued]; exact nofun)).2
      have moved := total_setRequest inside .started 0
      rw [queued] at moved
      exact .keeps (Nat.add_right_cancel moved) rfl rfl
  | report index done =>
      have inside := (outlined.used index (by rw [done]; exact nofun)).2
      have moved := total_setRequest inside .reported 1
      rw [done] at moved
      refine .keeps ?_ rfl rfl
      change (node.setRequest index .reported).total 1 + 1 = 1 + node.listed + node.requests Request.weight + 0 at moved
      change (node.setRequest index .reported).total 1 = 0 + node.listed + node.requests Request.weight
      omega
  | drain listed =>
      refine .keeps ?_ rfl ?_
      · rw [sum_references (Point.references_uniform.queue _ _)]
        change 1 + (node.listed - 1) + node.requests Request.weight = 0 + node.listed + node.requests Request.weight
        omega
      · rw [countP_point (Point.deletes_uniform.queue _ _)]
        rfl
  | _ => exact .keeps rfl rfl rfl

/-! ## How many there are -/

/-- A callback is for a request that is reported. -/
theorem NodeStep.reporting (step : NodeStep cancelMayFail onLoop node point node' points)
    (locked : Locked node (([point] : Multiset Point) + rest)) (placed : point.Placed node) :
    points.countP Point.reports + node.requests Request.told ≤
      [point].countP Point.reports + node'.requests Request.told := by
  have member : point ∈ ([point] : Multiset Point) + rest :=
    Multiset.mem_add.mpr (Or.inl (List.mem_singleton.mpr rfl))
  have claims : point.Claims node := locked.claims point member
  have sets : forall index request, index < node.count -> (node.request index).told = 0 -> request.told = 0 ->
      0 + node.requests Request.told ≤ 0 + (node.setRequest index request).requests Request.told := by
    intro index request inside before after
    have moved := node.requests_setRequest Request.told inside request
    omega
  cases step with
  | queueHere queuedChunks =>
      rw [List.countP_cons, Point.reports_uniform.queue]
      exact Nat.le_refl _
  | countDown host index =>
      rw [countP_point (Point.reports_uniform.resume _ index host)]
      cases host with
      | claimer claimer => cases claimer <;> exact Nat.le_refl _
      | _ => exact Nat.le_refl _
  | unlock claimer index runInline =>
      cases runInline with
      | true => exact Nat.le_refl _
      | false =>
          change [Point.next node.count index claimer].countP Point.reports + _ ≤ _
          rw [countP_point (Point.reports_uniform.next _ index claimer)]
          cases claimer <;> exact Nat.le_refl _
  | finish index =>
      have started := locked.started member (show (Point.finish index).inPool index = true from decide_eq_true rfl)
      exact sets index .done placed.2 (by rw [started]; rfl) rfl
  | cancel index _ queued => exact sets index .done placed.2 (by rw [queued]; rfl) rfl
  | submit index => exact sets index .queued placed.2 (by rw [claims.2]; rfl) rfl
  | submitFails index => exact sets index .refused placed.2 (by rw [claims.2]; rfl) rfl
  | release owner | releaseLast owner | delete owner | finished owner =>
      exact Nat.add_le_add_right (Nat.zero_le _) _
  | _ => exact Nat.le_refl _

theorem NodeChange.reporting (change : NodeChange program true node gone node' come)
    (locked : Locked node ((gone : Multiset Point) + rest)) (outlined : Outlined node ((gone : Multiset Point) + rest)) :
    come.countP Point.reports + node.requests Request.told ≤
      gone.countP Point.reports + node'.requests Request.told := by
  cases change with
  | step onLoop point points step =>
      apply step.reporting locked
      exact outlined.placed point (Multiset.mem_add.mpr (Or.inl (List.mem_singleton.mpr rfl)))
  | dequeue index queued =>
      have inside := (outlined.used index (by rw [queued]; exact nofun)).2
      have moved := node.requests_setRequest Request.told inside .started
      rw [queued] at moved
      exact Nat.le_of_eq (congrArg (0 + ·) moved.symm)
  | report index done =>
      have inside := (outlined.used index (by rw [done]; exact nofun)).2
      have moved := node.requests_setRequest Request.told inside .reported
      rw [done] at moved
      change 1 + node.requests Request.told ≤ 0 + (node.setRequest index .reported).requests Request.told
      change _ + 0 = _ + 1 at moved
      omega
  | drain listed =>
      rw [countP_point (Point.reports_uniform.queue _ _)]
      exact Nat.le_refl _
  | _ => exact Nat.le_refl _

/-- The word has the number of references, and each callback its request. -/
structure Referenced (node : Node) (points : Multiset Point) : Prop where
  refs : node.refs = BitVec.ofNat 32 (node.total (load points))
  reports : tally Point.reports points ≤ node.requests Request.told

theorem total_add (node : Node) (list : List Point) (rest : Multiset Point) :
    node.total (load ((list : Multiset Point) + rest)) = node.total (list.map Point.references).sum + load rest := by
  rw [load_add, Node.total, Node.total]
  omega

theorem ofNat_succ (number : Nat) : BitVec.ofNat 32 (number + 1) = BitVec.ofNat 32 number + 1 := BitVec.ofNat_add _ _

theorem referenced {call : Call} (reachable : (callSystem program).Reachable call) : Referenced call.node call.points := by
  refine call_invariant ⟨rfl, Nat.le_refl 0⟩ ?_ reachable
  intro begun node node' gone come rest reached unbegun change earlier
  cases begun with
  | false =>
      rw [unbegun rfl]
      cases change with
      | callEmpty | callSerial => exact ⟨rfl, Nat.zero_le _⟩
      | callParallel iterations =>
          refine ⟨?_, Nat.zero_le _⟩
          have idle : (Node.create program iterations).requests Request.weight = 0 :=
            (census_eq_zero_iff _ _).mpr (fun _ => rfl)
          rw [total_add, Node.total, idle]
          rfl
  | true =>
      constructor
      · have before := earlier.refs
        rw [total_add] at before ⊢
        cases change.counting_references (locked reached) (outlined reached) with
        | keeps total refs => rw [total, refs, before]
        | takes total _ refs => rw [total, refs, before, Nat.add_right_comm, ofNat_succ]
        | returns total _ refs | releases total _ refs =>
            rw [← total, Nat.add_right_comm] at before
            rw [refs, before, ofNat_succ, BitVec.add_sub_cancel]
      · have moved := change.reporting (locked reached) (outlined reached)
        have before := earlier.reports
        rw [tally_add] at before ⊢
        omega

/-- The references fit into the word. -/
theorem total_lt {call : Call} (reachable : (callSystem program).Reachable call) :
    call.node.total (load call.points) < 2 ^ 32 := by
  have parties := parties reachable
  have callers : tally Point.callerHolds call.points ≤ tally Point.ofCaller call.points :=
    tally_le_tally (fun _ => Point.ofCaller_of_callerHolds)
  have queuers : tally Point.queuerHolds call.points ≤ tally Point.ofQueuer call.points :=
    tally_le_tally (fun _ => Point.ofQueuer_of_queuerHolds)
  have queuing : tally Point.queuing call.points ≤ tally Point.inCritical call.points := by
    apply tally_le_tally
    intro point holds
    cases point <;> first | rfl | cases holds
  have critical : tally Point.inCritical call.points ≤ 1 := by
    rw [(locked reachable).exclusive]
    split
    · exact Nat.le_refl 1
    · exact Nat.zero_le 1
  have handed : tally Point.unhanded call.points + call.node.listed + call.node.handed ≤ 1 := by
    rw [parties.handed]
    split
    · exact Nat.le_refl 1
    · exact Nat.zero_le 1
  have count : call.node.count < 2 ^ 16 := by
    rcases made_of_reachable reachable with ⟨origin, made, same⟩
    rw [same.count]
    cases made with
    | create iterations =>
        have bounded := (numChunks_le program iterations).2
        have narrow : 2 ^ program.concurrency.bits ≤ 2 ^ 16 := by
          cases program.concurrency <;> decide
        change (program.numChunks iterations).toNat - 1 < 2 ^ 16
        omega
    | _ => exact Nat.two_pow_pos 16
  have reports := (referenced reachable).reports
  have requests := call.node.requests_le_count
  have caller := parties.caller
  have queuer := parties.queuer
  rw [Node.total, load_eq]
  omega

/-! ## The deletion -/

/-- The node of a parallel call is deleted, about to be deleted, or referenced. -/
def DeletedOnce (node : Node) (points : Multiset Point) : Prop :=
  node.parallel = true ->
    node.deletions + tally Point.deletes points + (if node.total (load points) = 0 then 0 else 1) = 1

/-- The word tells whether a reference is the last one. -/
theorem refs_eq_one_iff {call : Call} (reachable : (callSystem program).Reachable call) :
    call.node.refs = 1 ↔ call.node.total (load call.points) = 1 := by
  have refs := (referenced reachable).refs
  have fits := total_lt reachable
  rw [refs]
  constructor
  · intro one
    have number := congrArg BitVec.toNat one
    rw [BitVec.toNat_ofNat, Nat.mod_eq_of_lt fits] at number
    exact number
  · intro one
    rw [one]
    rfl

theorem refs_eq_zero_iff {call : Call} (reachable : (callSystem program).Reachable call) :
    call.node.refs = 0 ↔ call.node.total (load call.points) = 0 := by
  have refs := (referenced reachable).refs
  have fits := total_lt reachable
  rw [refs]
  constructor
  · intro zero
    have number := congrArg BitVec.toNat zero
    rw [BitVec.toNat_ofNat, Nat.mod_eq_of_lt fits] at number
    exact number
  · intro zero
    rw [zero]
    rfl

theorem deletedOnce {call : Call} (reachable : (callSystem program).Reachable call) :
    DeletedOnce call.node call.points := by
  refine call_invariant nofun ?_ reachable
  intro begun node node' gone come rest reached unbegun change earlier parallel
  cases begun with
  | false =>
      rw [unbegun rfl]
      cases change with
      | callEmpty | callSerial => cases parallel
      | callParallel iterations =>
          rw [total_add, tally_add, if_neg]
          · rfl
          · change Not (2 + 0 + _ + 0 = 0)
            omega
  | true =>
      rw [change.same.parallel] at parallel
      have before := earlier parallel
      have last := refs_eq_one_iff reached
      rw [total_add, tally_add] at before ⊢
      change node.refs = 1 ↔ node.total (load ((gone : Multiset Point) + rest)) = 1 at last
      rw [total_add] at last
      cases change.counting_references (locked reached) (outlined reached) with
      | keeps total refs deletions =>
          rw [total]
          omega
      | takes total holds refs deletions noneAfter noneBefore =>
          have some : node.total (gone.map Point.references).sum + load rest ≠ 0 := by
            rw [Node.total]
            omega
          rw [if_neg some] at before
          rw [if_neg (by omega), deletions]
          omega
      | returns total holds refs deletions noneAfter noneBefore =>
          have some : 2 ≤ node.total (gone.map Point.references).sum + load rest := by
            rw [Node.total]
            omega
          rw [if_neg (by omega)] at before
          rw [if_neg (by omega), deletions]
          omega
      | releases total holds refs deletions deletes noneBefore =>
          have some : node.total (gone.map Point.references).sum + load rest ≠ 0 := by
            rw [Node.total]
            omega
          rw [if_neg some] at before
          rw [deletes, deletions]
          by_cases one : node.refs = 1
          · rw [if_pos one, if_pos (by have := last.mp one; omega)]
            omega
          · have several : node.total (gone.map Point.references).sum + load rest ≠ 1 := fun single => one (last.mpr single)
            rw [if_neg one, if_neg (by omega)]
            omega

section Lifetime

variable {call : Call} (reachable : (callSystem program).Reachable call) (parallel : call.node.parallel = true)

include reachable parallel

/-- While there are references, the node has not been deleted. -/
theorem undeleted_of_total (some : 0 < call.node.total (load call.points)) : call.node.deletions = 0 := by
  have once := deletedOnce reachable parallel
  rw [if_neg (Nat.ne_of_gt some)] at once
  omega

theorem undeleted_of_outstanding {index : Nat} (outstanding : (call.node.request index).outstanding = true) :
    call.node.deletions = 0 := by
  apply undeleted_of_total reachable parallel
  have inside : index < call.node.count := by
    apply ((outlined reachable).used index _).2
    intro idle
    rw [idle] at outstanding
    cases outstanding
  have weight : (call.node.request index).weight = 1 := if_pos outstanding
  have some := weight_le_census Request.weight (fun other : Fin call.node.count => call.node.request other) ⟨index, inside⟩
  change (call.node.request index).weight ≤ call.node.requests Request.weight at some
  rw [Node.total]
  omega

theorem undeleted_of_listed (listed : 0 < call.node.listed) : call.node.deletions = 0 := by
  apply undeleted_of_total reachable parallel
  rw [Node.total]
  omega

/-- No step of the caller, the queuer, a worker or a callback comes to a deleted node. -/
theorem undeleted_of_point {point : Point} (member : point ∈ call.points)
    (returned : forall owner, point ≠ .finished owner) : call.node.deletions = 0 := by
  have placed := (outlined reachable).placed point member
  have locked := locked reachable
  have held : 0 < point.references -> call.node.deletions = 0 := by
    intro some
    apply undeleted_of_total reachable parallel
    have loaded := references_le_load member
    rw [Node.total]
    omega
  have started : forall index, call.node.request index = .started -> call.node.deletions = 0 := by
    intro index request
    have outstanding : (call.node.request index).outstanding = true := by
      rw [request]
      rfl
    exact undeleted_of_outstanding reachable parallel outstanding
  cases point with
  | finished owner => exact absurd rfl (returned owner)
  | delete owner =>
      have deleting : 0 < tally Point.deletes call.points := tally_pos_iff.mpr ⟨_, member, rfl⟩
      have once := deletedOnce reachable parallel
      omega
  | finish index =>
      exact started index (locked.started member (decide_eq_true rfl))
  | executing host index phase =>
      cases host with
      | serial =>
          have serial := placed.1
          rw [parallel] at serial
          cases serial
      | pool =>
          exact started index (locked.started member (decide_eq_true rfl))
      | _ => exact held (Nat.succ_pos _)
  | publish queuedChunks place => cases place <;> exact held (Nat.succ_pos _)
  | _ => exact held (Nat.succ_pos _)

end Lifetime

/-- The references by their holders: the caller, the queuer, whose reference is
the caller's before the node is handed on and that of the list meanwhile, and
the requests. -/
theorem refs_eq {call : Call} (reachable : (callSystem program).Reachable call) :
    call.node.refs.toNat = tally Point.callerHolds call.points +
      (tally Point.unhanded call.points + call.node.listed + tally Point.queuerHolds call.points) +
      (tally Point.queuing call.points + call.node.requests Request.weight + tally Point.reports call.points) := by
  rw [(referenced reachable).refs, BitVec.toNat_ofNat, Nat.mod_eq_of_lt (total_lt reachable), Node.total, load_eq]
  omega

end Libuv
end Sweater
