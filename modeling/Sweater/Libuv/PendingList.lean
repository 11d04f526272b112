import Sweater.Libuv.Changes
import Sweater.Libuv.References

namespace Sweater
namespace Libuv

open Interleaving

/-!
# The lists of nodes

`pending_` leads to the nodes that have been pushed, and what `on_spread_async`
has taken from it leads to those that it has still to give away.  A pushed node
is in one of these lists once.

The lists are linked by addresses, and an address may be used again for a new
node.  A node in a list has a reference, so that its own address is not.
-/

/-- The pointer leads to these nodes. -/
inductive Linked (shared : Shared) : Option Nat -> List Nat -> Prop
  | nil : Linked shared none []
  | cons {call rest} :
      shared.resident (shared.address call) = call -> Linked shared (shared.nodes call).next rest ->
      Linked shared (some (shared.address call)) (call :: rest)

namespace Shared

/-- The node of a call becomes the head of the list. -/
def pushed (shared : Shared) (call : Nat) : Shared :=
  { shared.onNode call { shared.nodes call with listed := (shared.nodes call).listed + 1 } with
    pending := some (shared.address call)
    chain := call :: shared.chain }

/-- A drain has taken the list. -/
def emptied (shared : Shared) : Shared :=
  { shared with
    pending := none
    chain := [] }

/-- A drain has given a node to `queue_chunks`. -/
def givenAway (shared : Shared) (call : Nat) : Shared :=
  shared.onNode call
    { shared.nodes call with
      listed := (shared.nodes call).listed - 1
      handed := (shared.nodes call).handed + 1 }

end Shared

/-- The nodes that a drain has to give away. -/
def Frame.drained : Frame -> List Nat
  | drain _ chain => chain
  | _ => []

section Lists

variable {shared shared' : Shared} {head : Option Nat} {chain : List Nat}

/-- What a list is made of. -/
theorem Linked.congr (linked : Linked shared head chain)
    (address : forall call, call ∈ chain -> shared'.address call = shared.address call)
    (resident : forall call, call ∈ chain -> shared'.resident (shared.address call) = shared.resident (shared.address call))
    (next : forall call, call ∈ chain -> (shared'.nodes call).next = (shared.nodes call).next) :
    Linked shared' head chain := by
  induction linked with
  | nil => exact .nil
  | cons here rest inductionHypothesis =>
      rename_i call others
      have tail := inductionHypothesis (fun other member => address other (List.mem_cons_of_mem _ member))
        (fun other member => resident other (List.mem_cons_of_mem _ member))
        (fun other member => next other (List.mem_cons_of_mem _ member))
      rw [← address call List.mem_cons_self]
      apply Linked.cons
      · rw [address call List.mem_cons_self, resident call List.mem_cons_self]
        exact here
      · rw [next call List.mem_cons_self]
        exact tail

/-- How often a node is in a list does not matter. -/
theorem Linked.relisted (linked : Linked shared head chain) (target listed handed : Nat)
    (nodes : shared'.nodes = (shared.onNode target
      { shared.nodes target with
        listed := listed
        handed := handed }).nodes)
    (address : shared'.address = shared.address) (resident : shared'.resident = shared.resident) :
    Linked shared' head chain := by
  refine linked.congr ?_ ?_ ?_
  · intro call _
    rw [address]
  · intro call _
    rw [resident]
  · intro call _
    rw [nodes]
    by_cases here : call = target
    · rw [here, Shared.nodes_onNode]
    · rw [Shared.nodes_onNode_of_ne _ here]

end Lists

/-! ## What a step does to the fields of the lists -/

section Fields

variable {program : Program} {cancelMayFail onLoop : Bool} {node node' : Node} {point : Point} {points : List Point}

theorem NodeStep.listed (step : NodeStep cancelMayFail onLoop node point node' points) : node'.listed = node.listed := by
  cases step <;> rfl

theorem Point.ofCaller_of_unhanded (unhanded : point.unhanded = true) : point.ofCaller = true := by
  cases point with
  | publish queuedChunks place => rfl
  | _ => cases unhanded

/-- Only a node that has not been handed on is linked. -/
theorem NodeStep.next (step : NodeStep cancelMayFail onLoop node point node' points) :
    node'.next = node.next ∨ point.unhanded = true := by
  cases step with
  | link => exact Or.inr rfl
  | _ => exact Or.inl rfl

theorem NodeStep.live (step : NodeStep cancelMayFail onLoop node point node' points)
    (live : node'.parallel = true ∧ node'.deletions = 0) : node.parallel = true ∧ node.deletions = 0 := by
  cases step with
  | delete owner => exact absurd live.2 (Nat.succ_ne_zero _)
  | _ => exact live

/-- Before the exchange. -/
def Point.pushes : Point -> Bool
  | publish _ (.push _) => true
  | _ => false

theorem Point.pushes_uniform : Uniform pushes := ⟨fun _ => rfl, fun _ => rfl⟩

/-- Only the write of the pointer leads to the exchange. -/
theorem NodeStep.links {queuedChunks : Nat} {expected : Option Nat}
    (step : NodeStep cancelMayFail onLoop node point node' points)
    (member : .publish queuedChunks (.push expected) ∈ points) :
    point = .publish queuedChunks (.link expected) ∧ node'.next = expected := by
  have only : forall {next}, Point.publish queuedChunks (.push expected) ∈ [next] -> next.pushes = true := by
    intro next here
    rw [← List.mem_singleton.mp here]
    rfl
  cases step with
  | link =>
      cases List.mem_singleton.mp member
      exact ⟨rfl, rfl⟩
  | queueHere =>
      rcases List.mem_cons.mp member with here | last
      · have pushes := Point.pushes_uniform.queue node.count 0
        rw [← here] at pushes
        cases pushes
      · cases only last
  | countDown host index =>
      have pushes := only member
      rw [Point.pushes_uniform.resume] at pushes
      cases host with
      | claimer claimer => cases claimer <;> cases pushes
      | _ => cases pushes
  | unlock claimer index runInline =>
      have pushes := only member
      cases runInline with
      | true => cases pushes
      | false =>
          change (Point.next node.count index claimer).pushes = true at pushes
          rw [Point.pushes_uniform.next] at pushes
          cases claimer <;> cases pushes
  | finish | finished => cases member
  | _ => cases only member

end Fields

variable {program : Program} {begun : Bool} {node node' : Node} {gone come : List Point} {rest : Multiset Point}

/-- Before the exchange, the node leads to the head that is expected. -/
def Pushing (node : Node) (points : Multiset Point) : Prop :=
  forall queuedChunks expected, .publish queuedChunks (.push expected) ∈ points -> node.next = expected

theorem pushing_change (unbegun : begun = false -> rest = 0) (change : NodeChange program begun node gone node' come)
    (parties : Parties node ((gone : Multiset Point) + rest)) (pushing : Pushing node ((gone : Multiset Point) + rest)) :
    Pushing node' ((come : Multiset Point) + rest) := by
  intro queuedChunks expected member
  rcases Multiset.mem_add.mp member with new | kept
  · cases change with
    | step onLoop point points step => exact (step.links new).2
    | drain =>
        have pushes := Point.pushes_uniform.queue node.count 0
        rw [← List.mem_singleton.mp new] at pushes
        cases pushes
    | _ => cases List.mem_singleton.mp new
  · have old : .publish queuedChunks (.push expected) ∈ (gone : Multiset Point) + rest :=
      Multiset.mem_add.mpr (Or.inr kept)
    cases begun with
    | false =>
        rw [unbegun rfl] at kept
        exact absurd kept (Multiset.notMem_zero _)
    | true =>
        have before := pushing queuedChunks expected old
        cases change with
        | step onLoop point points step =>
            rcases step.next with same | unhanded
            · rw [same]
              exact before
            · -- the caller is not at two places
              have caller := parties.caller
              have second : 0 < tally Point.ofCaller rest := tally_pos_iff.mpr ⟨_, kept, rfl⟩
              rw [tally_add, List.countP_singleton, if_pos (Point.ofCaller_of_unhanded unhanded)] at caller
              omega
        | _ => exact before

theorem pushing {call : Call} (reachable : (callSystem program).Reachable call) : Pushing call.node call.points := by
  refine call_invariant (fun _ _ impossible => absurd impossible (Multiset.notMem_zero _)) ?_ reachable
  intro begun node node' gone come rest reached unbegun change earlier
  exact pushing_change unbegun change (parties reached) earlier

/-! ## The lists of a state -/

section Lists

variable {Thread : Type} [Fintype Thread]

/-- A call in a state, with the points that any threads are at in it. -/
def callIn (state : Stacked Thread Frame Shared) (call : Nat) : Call :=
  state.shared.callOf call (state.gather (Frame.pointsOf call))

/-- The pointers lead to the nodes in the lists, and each pushed node is in one of them. -/
structure Lists (state : Stacked Thread Frame Shared) : Prop where
  pending : Linked state.shared state.shared.pending state.shared.chain
  drains : forall thread head chain, .drain head chain ∈ state.callStack thread -> Linked state.shared head chain
  listed : forall call, (state.shared.nodes call).listed =
    state.shared.chain.count call + (state.gather Frame.drained).count call
  resident : forall call, call < state.shared.nextCall -> state.shared.live call ->
    state.shared.resident (state.shared.address call) = call

variable {state : Stacked Thread Frame Shared}

theorem point_mem {thread : Thread} {call : Nat} {point : Point} (member : .spread call point ∈ state.callStack thread) :
    point ∈ (callIn state call).points :=
  Stacked.mem_gather.mpr ⟨thread, _, member, mem_pointsOf.mpr rfl⟩

theorem Lists.listed_of_pending (lists : Lists state) {call : Nat} (member : call ∈ state.shared.chain) :
    0 < (state.shared.nodes call).listed := by
  rw [lists.listed]
  exact Nat.add_pos_left (List.count_pos_iff.mpr member) _

theorem Lists.listed_of_drain (lists : Lists state) {thread : Thread} {head : Option Nat} {chain : List Nat}
    (place : .drain head chain ∈ state.callStack thread) {call : Nat} (member : call ∈ chain) :
    0 < (state.shared.nodes call).listed := by
  rw [lists.listed]
  apply Nat.add_pos_right
  exact Multiset.count_pos.mpr (Stacked.mem_gather.mpr ⟨thread, _, place, member⟩)

/-- A node in a list is a node, and it has not been freed. -/
theorem live_of_listed (numbered : Numbered state) {call : Nat}
    (reachable : (callSystem program).Reachable (callIn state call)) (listed : 0 < (state.shared.nodes call).listed) :
    call < state.shared.nextCall ∧ state.shared.live call := by
  have made : call < state.shared.nextCall := by
    apply Nat.lt_of_not_le
    intro unmade
    rw [numbered.blank call unmade] at listed
    exact Nat.lt_irrefl 0 listed
  have parallel : (state.shared.nodes call).parallel = true := by
    have handed := (parties reachable).handed
    change _ + (state.shared.nodes call).listed + _ = if (state.shared.nodes call).parallel then 1 else 0 at handed
    by_contra serial
    rw [if_neg serial] at handed
    omega
  exact ⟨made, parallel, undeleted_of_listed reachable parallel listed⟩

/-- What a drain takes next is the first node of its list. -/
theorem Lists.first (lists : Lists state) {thread : Thread} {address : Nat} {chain : List Nat}
    (place : .drain (some address) chain ∈ state.callStack thread) :
    Exists fun rest => chain = state.shared.resident address :: rest ∧
      Linked state.shared (state.shared.nodes (state.shared.resident address)).next rest := by
  cases lists.drains thread _ _ place with
  | cons here rest =>
      rw [here]
      exact ⟨_, rfl, rest⟩

variable [DecidableEq Thread]

def Frame.isDrain : Frame -> Bool
  | drain _ _ => true
  | _ => false

theorem drained_of_not_drain {frame : Frame} (other : frame.isDrain = false) : frame.drained = [] := by
  cases frame with
  | drain => cases other
  | _ => rfl

theorem drained_of_not_drains {frames : List Frame} (others : forall frame, frame ∈ frames -> frame.isDrain = false) :
    frames.flatMap Frame.drained = [] := by
  rw [List.flatMap_eq_nil_iff]
  intro frame member
  exact drained_of_not_drain (others frame member)

/-- A step that neither pushes nor drains, and writes to one node. -/
theorem Lists.keep (lists : Lists state) {thread : Thread} {frame : Frame} {below : List Frame}
    (place : state.callStack thread = frame :: below) {target : Nat} {node : Node} {shared : Shared} {frames : List Frame}
    (nodes : shared.nodes = (state.shared.onNode target node).nodes) (pending : shared.pending = state.shared.pending)
    (chain : shared.chain = state.shared.chain) (nextCall : shared.nextCall = state.shared.nextCall)
    (address : shared.address = state.shared.address) (resident : shared.resident = state.shared.resident)
    (listed : node.listed = (state.shared.nodes target).listed)
    (next : 0 < (state.shared.nodes target).listed -> node.next = (state.shared.nodes target).next)
    (live : node.parallel = true ∧ node.deletions = 0 -> state.shared.live target) (top : frame.drained = [])
    (others : forall frame, frame ∈ frames -> frame.isDrain = false) :
    Lists (state.replaceTop thread shared (frames ++ below)) := by
  have written : forall call, shared.nodes call = if call = target then node else state.shared.nodes call := by
    intro call
    rw [nodes]
    by_cases here : call = target
    · rw [if_pos here, here, Shared.nodes_onNode]
    · rw [if_neg here, Shared.nodes_onNode_of_ne _ here]
  have kept : forall head list, Linked state.shared head list ->
      (forall call, call ∈ list -> 0 < (state.shared.nodes call).listed) -> Linked shared head list := by
    intro head list linked positive
    refine linked.congr ?_ ?_ ?_
    · intro call _
      rw [address]
    · intro call _
      rw [resident]
    · intro call member
      rw [written]
      split
      · rename_i here
        subst here
        exact next (positive call member)
      · rfl
  rcases Stacked.gather_replaceTop Frame.drained state place shared frames with ⟨rest, before, after⟩
  rw [top] at before
  rw [drained_of_not_drains others] at after
  constructor
  · change Linked shared shared.pending shared.chain
    rw [pending, chain]
    exact kept _ _ lists.pending (fun call member => lists.listed_of_pending member)
  · intro other head list member
    rcases Stacked.mem_replaceTop place member with ⟨_, new⟩ | old
    · cases others _ new
    · have earlier := Stacked.mem_of_elsewhere place old
      exact kept _ _ (lists.drains other head list earlier) (fun call inside => lists.listed_of_drain earlier inside)
  · intro call
    have balance := lists.listed call
    rw [before] at balance
    rw [after]
    change (shared.nodes call).listed = shared.chain.count call + _
    rw [written, chain]
    split
    · rename_i here
      subst here
      rw [listed]
      exact balance
    · exact balance
  · intro call made alive
    change call < shared.nextCall at made
    change (shared.nodes call).parallel = true ∧ (shared.nodes call).deletions = 0 at alive
    change shared.resident (shared.address call) = call
    rw [nextCall] at made
    rw [written] at alive
    rw [resident, address]
    apply lists.resident call made
    split at alive
    · rename_i here
      subst here
      exact live alive
    · exact alive

section Steps

variable {role : Thread -> Role} {before after : Stacked Thread Frame Shared}

/-- A new call is in no list, and its address is that of no node in one. -/
theorem Lists.begins (lists : Lists state) (numbered : Numbered state)
    (reachable : forall call, (callSystem program).Reachable (callIn state call)) {thread : Thread} {frame : Frame}
    {below : List Frame} (place : state.callStack thread = frame :: below) {node : Node} {point : Point} {shared : Shared}
    (nodes : shared.nodes = (state.shared.begin_ node).nodes) (pending : shared.pending = state.shared.pending)
    (chain : shared.chain = state.shared.chain) (nextCall : shared.nextCall = state.shared.nextCall + 1)
    (address : forall call, call < state.shared.nextCall -> shared.address call = state.shared.address call)
    (resident : forall call, call < state.shared.nextCall -> state.shared.live call ->
      shared.resident (state.shared.address call) = state.shared.resident (state.shared.address call))
    (unlisted : node.listed = 0)
    (new : node.parallel = true -> shared.resident (shared.address state.shared.nextCall) = state.shared.nextCall)
    (top : frame.mayCall = true) :
    Lists (state.replaceTop thread shared ([.spread state.shared.nextCall point, frame] ++ below)) := by
  have kept : forall head list, Linked state.shared head list ->
      (forall call, call ∈ list -> 0 < (state.shared.nodes call).listed) -> Linked shared head list := by
    intro head list linked positive
    have known : forall call, call ∈ list -> call < state.shared.nextCall ∧ state.shared.live call :=
      fun call member => live_of_listed numbered (reachable call) (positive call member)
    refine linked.congr (fun call member => address call (known call member).1)
      (fun call member => resident call (known call member).1 (known call member).2) ?_
    intro call member
    have older : call ≠ state.shared.nextCall := Nat.ne_of_lt (known call member).1
    rw [nodes]
    change ((state.shared.onNode state.shared.nextCall node).nodes call).next = _
    rw [Shared.nodes_onNode_of_ne _ older]
  have outside : frame.isDrain = false := by
    cases frame with
    | drain => cases top
    | _ => rfl
  have others : forall other, other ∈ [Frame.spread state.shared.nextCall point, frame] -> other.isDrain = false := by
    intro other member
    rcases List.mem_cons.mp member with here | last
    · rw [here]
      rfl
    · rw [List.mem_singleton.mp last]
      exact outside
  rcases Stacked.gather_replaceTop Frame.drained state place shared [.spread state.shared.nextCall point, frame] with
    ⟨rest, before, after⟩
  rw [drained_of_not_drain outside] at before
  rw [drained_of_not_drains others] at after
  constructor
  · change Linked shared shared.pending shared.chain
    rw [pending, chain]
    exact kept _ _ lists.pending (fun call member => lists.listed_of_pending member)
  · intro other head list member
    rcases Stacked.mem_replaceTop place member with ⟨_, new⟩ | old
    · cases others _ new
    · have earlier := Stacked.mem_of_elsewhere place old
      exact kept _ _ (lists.drains other head list earlier) (fun call inside => lists.listed_of_drain earlier inside)
  · intro call
    have balance := lists.listed call
    rw [before] at balance
    rw [after]
    change (shared.nodes call).listed = shared.chain.count call + _
    rw [nodes, chain]
    change ((state.shared.onNode state.shared.nextCall node).nodes call).listed = _
    by_cases here : call = state.shared.nextCall
    · rw [here, Shared.nodes_onNode, unlisted]
      rw [here, numbered.blank _ (Nat.le_refl _)] at balance
      exact balance
    · rw [Shared.nodes_onNode_of_ne _ here]
      exact balance
  · intro call made alive
    change call < shared.nextCall at made
    change (shared.nodes call).parallel = true ∧ (shared.nodes call).deletions = 0 at alive
    change shared.resident (shared.address call) = call
    rw [nodes] at alive
    change ((state.shared.onNode state.shared.nextCall node).nodes call).parallel = true ∧
      ((state.shared.onNode state.shared.nextCall node).nodes call).deletions = 0 at alive
    by_cases here : call = state.shared.nextCall
    · rw [here, Shared.nodes_onNode] at alive
      rw [here]
      exact new alive.1
    · rw [Shared.nodes_onNode_of_ne _ here] at alive
      have older : call < state.shared.nextCall := by omega
      rw [address call older, resident call older alive]
      exact lists.resident call older alive

omit [DecidableEq Thread] in
/-- A live node stays where it is, however often it is in a list. -/
theorem resident_relisted (lists : Lists state) {target listed handed : Nat} {shared : Shared}
    (nodes : shared.nodes = (state.shared.onNode target
      { state.shared.nodes target with
        listed := listed
        handed := handed }).nodes)
    (nextCall : shared.nextCall = state.shared.nextCall) (address : shared.address = state.shared.address)
    (resident : shared.resident = state.shared.resident) {call : Nat} (made : call < shared.nextCall)
    (alive : shared.live call) : shared.resident (shared.address call) = call := by
  rw [address, resident]
  rw [nextCall] at made
  apply lists.resident call made
  rw [Shared.live, nodes] at alive
  by_cases here : call = target
  · rw [here, Shared.nodes_onNode] at alive
    rw [here]
    exact alive
  · rw [Shared.nodes_onNode_of_ne _ here] at alive
    exact alive

/-- The exchange makes the node the head of the list. -/
theorem Lists.push (lists : Lists state) {thread : Thread} {below : List Frame} {call queuedChunks : Nat}
    {expected : Option Nat} (place : state.callStack thread = .spread call (.publish queuedChunks (.push expected)) :: below)
    (made : call < state.shared.nextCall) (live : state.shared.live call)
    (next : (state.shared.nodes call).next = state.shared.pending) :
    Lists (state.replaceTop thread (state.shared.pushed call) ([.spread call (.publish queuedChunks .send)] ++ below)) := by
  rcases Stacked.gather_replaceTop Frame.drained state place (state.shared.pushed call)
    [.spread call (.publish queuedChunks .send)] with ⟨rest, before, after⟩
  have same : forall {head chain}, Linked state.shared head chain -> Linked (state.shared.pushed call) head chain :=
    fun linked => linked.relisted call _ _ rfl rfl rfl
  have own : (state.shared.pushed call).nodes call =
      { state.shared.nodes call with listed := (state.shared.nodes call).listed + 1 } :=
    Shared.nodes_onNode _ _ _
  constructor
  · have resident : (state.shared.pushed call).resident ((state.shared.pushed call).address call) = call :=
      lists.resident call made live
    apply Linked.cons resident
    rw [own]
    change Linked _ (state.shared.nodes call).next _
    rw [next]
    exact same lists.pending
  · intro other head list member
    rcases Stacked.mem_replaceTop place member with ⟨_, new⟩ | old
    · cases List.mem_singleton.mp new
    · exact same (lists.drains other head list (Stacked.mem_of_elsewhere place old))
  · intro other
    have balance := lists.listed other
    rw [before] at balance
    rw [after]
    change ((state.shared.pushed call).nodes other).listed = (call :: state.shared.chain).count other + _
    rw [List.count_cons]
    by_cases here : other = call
    · subst here
      rw [own, if_pos (beq_self_eq_true other)]
      change (state.shared.nodes other).listed + 1 = _ + Multiset.count other (0 + rest)
      change _ = _ + Multiset.count other (0 + rest) at balance
      omega
    · have kept : (state.shared.pushed call).nodes other = state.shared.nodes other := Shared.nodes_onNode_of_ne _ here _
      rw [kept, if_neg (fun same => here (beq_iff_eq.mp same).symm)]
      exact balance
  · intro other
    exact resident_relisted lists rfl rfl rfl rfl

/-- The drain takes the whole list. -/
theorem Lists.exchange (lists : Lists state) {thread : Thread} {below : List Frame}
    (place : state.callStack thread = .exchange :: below) :
    Lists (state.replaceTop thread state.shared.emptied ([.drain state.shared.pending state.shared.chain] ++ below)) := by
  rcases Stacked.gather_replaceTop Frame.drained state place state.shared.emptied
    [.drain state.shared.pending state.shared.chain] with ⟨rest, before, after⟩
  have same : forall {head chain}, Linked state.shared head chain -> Linked state.shared.emptied head chain :=
    fun linked => linked.congr (fun _ _ => rfl) (fun _ _ => rfl) (fun _ _ => rfl)
  constructor
  · exact .nil
  · intro other head list member
    rcases Stacked.mem_replaceTop place member with ⟨_, new⟩ | old
    · cases List.mem_singleton.mp new
      exact same lists.pending
    · exact same (lists.drains other head list (Stacked.mem_of_elsewhere place old))
  · intro call
    have balance := lists.listed call
    rw [before] at balance
    rw [after, Multiset.count_add, Multiset.coe_count, List.flatMap_singleton]
    change (state.shared.nodes call).listed = 0 + (state.shared.chain.count call + _)
    change _ = _ + Multiset.count call (0 + rest) at balance
    rw [zero_add] at balance
    rw [zero_add]
    exact balance
  · exact lists.resident

/-- The drain gives the first node of its list away. -/
theorem Lists.drain (lists : Lists state) {thread : Thread} {below : List Frame} {address : Nat} {chain : List Nat}
    {point : Point} (place : state.callStack thread = .drain (some address) chain :: below) :
    Lists (state.replaceTop thread (state.shared.givenAway (state.shared.resident address))
      ([.spread (state.shared.resident address) point,
        .drain (state.shared.nodes (state.shared.resident address)).next chain.tail] ++ below)) := by
  have member : Frame.drain (some address) chain ∈ state.callStack thread := by
    rw [place]
    exact List.mem_cons_self
  rcases lists.first member with ⟨others, rfl, linked⟩
  generalize state.shared.resident address = call at *
  rcases Stacked.gather_replaceTop Frame.drained state place (state.shared.givenAway call)
    [.spread call point, .drain (state.shared.nodes call).next others] with ⟨rest, before, after⟩
  have same : forall {head chain}, Linked state.shared head chain -> Linked (state.shared.givenAway call) head chain :=
    fun linked => linked.relisted call _ _ rfl rfl rfl
  constructor
  · exact same lists.pending
  · intro other head list inside
    rcases Stacked.mem_replaceTop place inside with ⟨_, new⟩ | old
    · rcases List.mem_cons.mp new with here | last
      · cases here
      · cases List.mem_singleton.mp last
        exact same linked
    · exact same (lists.drains other head list (Stacked.mem_of_elsewhere place old))
  · intro other
    have balance := lists.listed other
    rw [before, Multiset.count_add, Multiset.coe_count] at balance
    change _ = _ + ((call :: others).count other + _) at balance
    rw [List.count_cons] at balance
    have new : ([Frame.spread call point, Frame.drain (state.shared.nodes call).next others].flatMap Frame.drained) =
        others := List.append_nil _
    rw [List.tail_cons, after, new, Multiset.count_add, Multiset.coe_count]
    change ((state.shared.givenAway call).nodes other).listed = state.shared.chain.count other + _
    by_cases here : other = call
    · subst here
      have own : ((state.shared.givenAway other).nodes other).listed = (state.shared.nodes other).listed - 1 :=
        congrArg Node.listed (Shared.nodes_onNode _ _ _)
      rw [own]
      rw [if_pos (beq_self_eq_true other)] at balance
      omega
    · have kept : (state.shared.givenAway call).nodes other = state.shared.nodes other := Shared.nodes_onNode_of_ne _ here _
      rw [kept]
      rw [if_neg (fun same => here (beq_iff_eq.mp same).symm)] at balance
      exact balance
  · intro other
    exact resident_relisted lists rfl rfl rfl rfl

theorem Lists.step (lists : Lists before) (numbered : Numbered before)
    (reachable : forall call, (callSystem program).Reachable (callIn before call))
    (move : Stacked.Step (LibuvStep program role) before after) : Lists after := by
  have itself : forall target, before.shared.nodes = (before.shared.onNode target (before.shared.nodes target)).nodes :=
    fun target => (Function.update_eq_self target before.shared.nodes).symm
  cases move with
  | top thread frame below shared' frames' place step =>
      have member : frame ∈ before.callStack thread := by
        rw [place]
        exact List.mem_cons_self
      -- the steps that write no list
      have quiet : forall {frames : List Frame}, frame.drained = [] ->
          (forall frame, frame ∈ frames -> frame.isDrain = false) -> forall shared : Shared,
          shared.nodes = before.shared.nodes -> shared.pending = before.shared.pending ->
          shared.chain = before.shared.chain -> shared.nextCall = before.shared.nextCall ->
          shared.address = before.shared.address -> shared.resident = before.shared.resident ->
          Lists (before.replaceTop thread shared (frames ++ below)) := by
        intro frames top others shared nodes pending chain nextCall address resident
        exact lists.keep place (nodes.trans (itself 0)) pending chain nextCall address resident rfl (fun _ => rfl)
          (fun live => live) top others
      cases step with
      | node call point node points step =>
          refine lists.keep place rfl rfl rfl rfl rfl rfl step.listed ?_ step.live rfl ?_
          · intro listed
            rcases step.next with same | unhanded
            · exact same
            · -- a node that is linked is in no list yet
              have handed := (parties (reachable call)).handed
              have some : 0 < tally Point.unhanded (callIn before call).points :=
                tally_pos_iff.mpr ⟨point, point_mem member, unhanded⟩
              change _ + (before.shared.nodes call).listed + _ = if (before.shared.nodes call).parallel then 1 else 0 at handed
              split at handed <;> omega
          · intro frame new
            rcases List.mem_map.mp new with ⟨_, _, rfl⟩
            rfl
      | loadHead | pushFails =>
          apply quiet rfl _ _ rfl rfl rfl rfl rfl rfl
          intro frame new
          rw [List.mem_singleton.mp new]
          rfl
      | send =>
          refine quiet rfl ?_ _ rfl rfl rfl rfl rfl rfl
          intro frame new
          rw [List.mem_singleton.mp new]
          rfl
      | task frame kind =>
          have outside : frame.isDrain = false := by
            rcases kind with rfl | rfl
            · rfl
            · rfl
          refine quiet (drained_of_not_drain outside) ?_ _ rfl rfl rfl rfl rfl rfl
          intro other new
          rcases List.mem_cons.mp new with here | last
          · rw [here]
            rfl
          · rw [List.mem_singleton.mp last]
            exact outside
      | taskReturns =>
          refine quiet rfl ?_ _ rfl rfl rfl rfl rfl rfl
          exact fun _ => nofun
      | serve =>
          refine quiet rfl ?_ _ rfl rfl rfl rfl rfl rfl
          intro other new
          rcases List.mem_cons.mp new with here | last
          · rw [here]
            rfl
          · rw [List.mem_singleton.mp last]
            rfl
      | drained chain =>
          have empty : chain = [] := by
            cases lists.drains thread _ _ member
            rfl
          refine quiet empty ?_ _ rfl rfl rfl rfl rfl rfl
          exact fun _ => nofun
      | dequeue call index | report call index =>
          refine lists.keep place rfl rfl rfl rfl rfl rfl rfl (fun _ => rfl) (fun live => live) rfl ?_
          intro other new
          rcases List.mem_cons.mp new with here | last
          · rw [here]
            rfl
          · rw [List.mem_singleton.mp last]
            rfl
      | callEmpty frame mayCall | callSerial frame iterations mayCall =>
          exact lists.begins numbered reachable place rfl rfl rfl rfl (fun _ _ => rfl) (fun _ _ _ => rfl) rfl nofun mayCall
      | callParallel frame iterations address mayCall _ _ unused =>
          refine lists.begins numbered reachable place rfl rfl rfl rfl ?_ ?_ rfl ?_ mayCall
          · intro call older
            exact Function.update_of_ne (Nat.ne_of_lt older) _ _
          · intro call older live
            exact Function.update_of_ne (unused call older live) _ _
          · intro _
            change Function.update before.shared.resident address before.shared.nextCall
              (Function.update before.shared.address before.shared.nextCall address before.shared.nextCall) = _
            rw [Function.update_self, Function.update_self]
      | push call queuedChunks expected head =>
          have point := point_mem member
          have parallel := ((outlined (reachable call)).placed _ point).1
          have next : (before.shared.nodes call).next = expected := pushing (reachable call) _ _ point
          apply lists.push place (numbered.frames thread _ member)
          · exact ⟨parallel, undeleted_of_point (reachable call) parallel point (fun _ => nofun)⟩
          · rw [next, head]
      | exchange => exact lists.exchange place
      | drain address chain => exact lists.drain place

omit [DecidableEq Thread] in
/-- What a drain is about to give away is a node in a list. -/
theorem Lists.drain_known (lists : Lists state) (numbered : Numbered state)
    (reachable : forall call, (callSystem program).Reachable (callIn state call)) {thread : Thread} {address : Nat}
    {chain : List Nat} (place : .drain (some address) chain ∈ state.callStack thread) :
    state.shared.resident address < state.shared.nextCall ∧
      0 < (state.shared.nodes (state.shared.resident address)).listed := by
  rcases lists.first place with ⟨others, rfl, _⟩
  have listed := lists.listed_of_drain place List.mem_cons_self
  exact ⟨(live_of_listed numbered (reachable _) listed).1, listed⟩

/-- The lists are sound in every run, and the run is one of each of its calls. -/
theorem lists_and_calls (reachable : (libuvSystem program role).Reachable state) :
    Lists state ∧ forall call, (callSystem program).Reachable (callIn state call) := by
  induction reachable with
  | initial start =>
      cases start
      have none : forall {Item : Type} (items : Frame -> List Item), (forall role : Role, items role.frame = []) ->
          Stacked.gather items
            (⟨.fresh, fun thread => [(role thread).frame]⟩ : Stacked Thread Frame Shared) = 0 := by
        intro Item items empty
        apply Multiset.eq_zero_of_forall_notMem
        intro item member
        rcases Stacked.mem_gather.mp member with ⟨thread, frame, place, held⟩
        rw [List.mem_singleton.mp place, empty] at held
        cases held
      constructor
      · constructor
        · exact .nil
        · intro thread head chain member
          have own := List.mem_singleton.mp member
          cases kind : role thread <;> rw [kind] at own <;> cases own
        · intro call
          rw [none]
          · rfl
          · intro role
            cases role <;> rfl
        · intro call made
          exact absurd made (Nat.not_lt_zero call)
      · intro call
        apply System.Reachable.initial
        change callIn _ call = _
        rw [callIn, none]
        · rfl
        · intro role
          cases role <;> rfl
  | step reached move inductionHypothesis =>
      rename_i before after
      have numbered := numbered_of_reachable reached
      obtain ⟨lists, calls⟩ := inductionHypothesis
      refine ⟨lists.step numbered calls move, fun call => .step (calls call) ?_⟩
      cases move with
      | top thread frame below shared frames place step =>
          have member : frame ∈ before.callStack thread := by
            rw [place]
            exact List.mem_cons_self
          rcases Stacked.gather_replaceTop (Frame.pointsOf call) before place shared frames with ⟨rest, old, new⟩
          change CallStep program (callIn before call) (callIn _ call)
          rw [callIn, callIn, old, new]
          apply call_of_step numbered.blank (numbered.frames thread frame member) ?_ step
          rintro address chain rfl
          exact lists.drain_known numbered calls member

/-! ## The drain is on its way -/

omit [Fintype Thread] [DecidableEq Thread] in
/-- The thread is about to send the signal, or to take the list. -/
def Frame.announces : Frame -> Bool
  | spread _ (.publish _ .send) => true
  | exchange => true
  | _ => false

/-- Nodes do not wait in the list without a signal. -/
def Announced (state : Stacked Thread Frame Shared) : Prop :=
  state.shared.chain ≠ [] -> state.shared.async = true ∨
    Exists fun thread => Exists fun frame => frame ∈ state.callStack thread ∧ frame.announces = true

omit [Fintype Thread] in
theorem Announced.step (announced : Announced before) (move : Stacked.Step (LibuvStep program role) before after) :
    Announced after := by
  cases move with
  | top thread frame below shared frames place step =>
      -- the announcing frames of a state are those that the step leaves, and its own
      have fresh : forall other, other ∈ frames -> other.announces = true ->
          Exists fun thread' => Exists fun frame' =>
            frame' ∈ (before.replaceTop thread shared (frames ++ below)).callStack thread' ∧ frame'.announces = true := by
        intro other member announces
        refine ⟨thread, other, ?_, announces⟩
        rw [Stacked.callStack_replaceTop]
        exact List.mem_append_left _ member
      have kept : frame.announces = false -> (Exists fun thread' => Exists fun frame' =>
            frame' ∈ before.callStack thread' ∧ frame'.announces = true) ->
          Exists fun thread' => Exists fun frame' =>
            frame' ∈ (before.replaceTop thread shared (frames ++ below)).callStack thread' ∧ frame'.announces = true := by
        intro silent ⟨thread', frame', member, announces⟩
        refine ⟨thread', frame', ?_, announces⟩
        by_cases same : thread' = thread
        · subst same
          rw [Stacked.callStack_replaceTop]
          rw [place] at member
          rcases List.mem_cons.mp member with here | deeper
          · rw [here, silent] at announces
            cases announces
          · exact List.mem_append_right _ deeper
        · rw [Stacked.callStack_replaceTop_of_ne _ same]
          exact member
      have quiet : frame.announces = false -> shared.chain = before.shared.chain -> shared.async = before.shared.async ->
          Announced (before.replaceTop thread shared (frames ++ below)) := by
        intro silent chain async waiting
        change shared.chain ≠ [] at waiting
        rw [chain] at waiting
        rcases announced waiting with signal | announcing
        · exact Or.inl (async.trans signal)
        · exact Or.inr (kept silent announcing)
      cases step with
      | node call point node points step =>
          cases step with
          | _ => exact quiet rfl rfl rfl
      | push call queuedChunks expected => exact fun _ => Or.inr (fresh _ List.mem_cons_self rfl)
      | send => exact fun _ => Or.inl rfl
      | serve => exact fun _ => Or.inr (fresh _ List.mem_cons_self rfl)
      | exchange => exact fun waiting => absurd rfl waiting
      | callEmpty frame mayCall | callSerial frame iterations mayCall | callParallel frame iterations address mayCall =>
          apply quiet _ rfl rfl
          cases frame with
          | spread call point =>
              cases point with
              | publish => cases mayCall
              | _ => rfl
          | exchange => cases mayCall
          | _ => rfl
      | task frame kind =>
          rcases kind with rfl | rfl <;> exact quiet rfl rfl rfl
      | _ => exact quiet rfl rfl rfl

omit [Fintype Thread] in
theorem announced (reachable : (libuvSystem program role).Reachable state) : Announced state := by
  refine reachable.invariant ?_ ?_
  · rintro _ rfl waiting
    exact absurd rfl waiting
  · intro before after _ earlier move
    exact earlier.step move

end Steps

end Lists

end Libuv
end Sweater
