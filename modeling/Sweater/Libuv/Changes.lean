import Sweater.Interleaving.Gathering
import Sweater.Libuv.OneCall

namespace Sweater
namespace Libuv

open Interleaving

/-!
# What a step does to one call

The points of a call are in the frames of all threads.  A step of the shop
replaces some of them by others and changes the node, or it is none of the
call's.
-/

/-- The points of a call in a frame. -/
def Frame.pointsOf (call : Nat) : Frame -> List Point
  | spread other point => if other = call then [point] else []
  | _ => []

theorem pointsOf_spread (call : Nat) (point : Point) : (Frame.spread call point).pointsOf call = [point] :=
  if_pos rfl

theorem pointsOf_other {call other : Nat} (different : other ≠ call) (point : Point) :
    (Frame.spread other point).pointsOf call = [] :=
  if_neg different

theorem mem_pointsOf {call : Nat} {frame : Frame} {point : Point} :
    point ∈ frame.pointsOf call ↔ frame = .spread call point := by
  cases frame with
  | spread other inner =>
      by_cases same : other = call
      · rw [same, pointsOf_spread, List.mem_singleton]
        constructor
        · intro equal
          rw [equal]
        · intro equal
          cases equal
          rfl
      · rw [pointsOf_other same]
        constructor
        · intro member
          cases member
        · intro equal
          cases equal
          exact absurd rfl same
  | _ =>
      constructor
      · intro member
        cases member
      · intro equal
        cases equal

theorem flatMap_pointsOf_map (call : Nat) (points : List Point) :
    (points.map (Frame.spread call)).flatMap (Frame.pointsOf call) = points := by
  induction points with
  | nil => rfl
  | cons point rest inductionHypothesis =>
      rw [List.map_cons, List.flatMap_cons, pointsOf_spread, inductionHypothesis]
      rfl

theorem flatMap_pointsOf_map_other {call other : Nat} (different : other ≠ call) (points : List Point) :
    (points.map (Frame.spread other)).flatMap (Frame.pointsOf call) = [] := by
  induction points with
  | nil => rfl
  | cons point rest inductionHypothesis =>
      rw [List.map_cons, List.flatMap_cons, pointsOf_other different, inductionHypothesis]
      rfl

namespace Shared

theorem nodes_onNode (shared : Shared) (call : Nat) (node : Node) : (shared.onNode call node).nodes call = node :=
  Function.update_self _ _ _

theorem nodes_onNode_of_ne (shared : Shared) {call other : Nat} (different : other ≠ call) (node : Node) :
    (shared.onNode call node).nodes other = shared.nodes other :=
  Function.update_of_ne different _ _

end Shared

/-! ## The calls that have been made -/

/-- What a frame may refer to. -/
def Frame.Known (calls : Nat) : Frame -> Prop
  | spread call _ => call < calls
  | drain (some _) _ => 0 < calls
  | _ => True

theorem Frame.Known.mono {calls more : Nat} (grown : calls ≤ more) {frame : Frame} (known : frame.Known calls) :
    frame.Known more := by
  cases frame with
  | spread call point => exact Nat.lt_of_lt_of_le known grown
  | drain node chain =>
      cases node with
      | none => trivial
      | some address => exact Nat.lt_of_lt_of_le known grown
  | _ => trivial

variable {Thread : Type} [DecidableEq Thread] {program : Program} {role : Thread -> Role}

/-- Only calls that have been made are referred to. -/
structure Numbered (state : Stacked Thread Frame Shared) : Prop where
  blank : forall call, state.shared.nextCall ≤ call -> state.shared.nodes call = .blank
  resident : forall address, state.shared.resident address ≤ state.shared.nextCall - 1
  pending : state.shared.pending ≠ none -> 0 < state.shared.nextCall
  frames : forall thread frame, frame ∈ state.callStack thread -> frame.Known state.shared.nextCall

section Steps

variable {before after : Stacked Thread Frame Shared}

omit [DecidableEq Thread] in
theorem nextCall_le {callStack : Thread -> List Frame} {thread : Thread} {shared shared' : Shared} {frame : Frame}
    {frames : List Frame} (move : LibuvStep program role callStack thread shared frame shared' frames) :
    shared.nextCall ≤ shared'.nextCall := by
  cases move with
  | callEmpty | callSerial | callParallel => exact Nat.le_succ _
  | _ => exact Nat.le_refl _

/-- A change of one call that has been made leaves the later ones blank. -/
theorem blank_onNode {shared : Shared} {call calls : Nat} {node : Node}
    (blank : forall other, calls ≤ other -> shared.nodes other = .blank) (made : call < calls) :
    forall other, calls ≤ other -> (shared.onNode call node).nodes other = .blank := by
  intro other later
  rw [Shared.nodes_onNode_of_ne _ (Nat.ne_of_gt (Nat.lt_of_lt_of_le made later))]
  exact blank other later

theorem Numbered.step (numbered : Numbered before) (move : Stacked.Step (LibuvStep program role) before after) :
    Numbered after := by
  have resident : 0 < before.shared.nextCall -> forall address,
      before.shared.resident address < before.shared.nextCall := by
    intro some address
    have bounded := numbered.resident address
    omega
  have frames := Stacked.frames_step move (fun state _ frame => frame.Known state.shared.nextCall) numbered.frames
    ?new ?others
  case others =>
    intro thread top rest shared frames place step same other frame elsewhere known
    rw [same]
    exact known.mono (nextCall_le step)
  case new =>
    intro thread top rest shared frames place step same known
    have member : top ∈ before.callStack thread := by
      rw [place]
      exact List.mem_cons_self
    rw [same]
    cases step with
    | node call point node points move =>
        intro frame fresh
        rcases List.mem_map.mp fresh with ⟨_, _, rfl⟩
        exact known
    | callEmpty frame | callSerial frame iterations | callParallel frame iterations address =>
        rintro new fresh
        rcases List.mem_cons.mp fresh with rfl | kept
        · exact Nat.lt_succ_self _
        · rw [List.mem_singleton.mp kept]
          exact known.mono (Nat.le_succ _)
    | loadHead | push | pushFails | send =>
        intro frame fresh
        rw [List.mem_singleton.mp fresh]
        exact known
    | task frame kind =>
        rintro new fresh
        rcases List.mem_cons.mp fresh with rfl | kept
        · trivial
        · rw [List.mem_singleton.mp kept]
          exact known
    | taskReturns | drained =>
        intro frame fresh
        cases fresh
    | dequeue call index queued | report call index queued =>
        rintro new fresh
        rcases List.mem_cons.mp fresh with rfl | kept
        · apply Nat.lt_of_not_le
          intro unmade
          rw [numbered.blank call unmade] at queued
          cases queued
        · rw [List.mem_singleton.mp kept]
          exact known
    | serve pending =>
        rintro new fresh
        rcases List.mem_cons.mp fresh with rfl | kept
        · trivial
        · rw [List.mem_singleton.mp kept]
          exact known
    | exchange =>
        intro frame fresh
        rw [List.mem_singleton.mp fresh]
        cases head : before.shared.pending with
        | none => trivial
        | some address => exact numbered.pending (by rw [head]; exact fun none => nomatch none)
    | drain address chain =>
        rintro new fresh
        rcases List.mem_cons.mp fresh with rfl | kept
        · exact resident known address
        · rw [List.mem_singleton.mp kept]
          cases (before.shared.nodes (before.shared.resident address)).next with
          | none => trivial
          | some next => exact known
  cases move with
  | top thread frame rest shared' frames' place step =>
      have known : frame.Known before.shared.nextCall := by
        apply numbered.frames thread
        rw [place]
        exact List.mem_cons_self
      have begun : forall node : Node, forall other, before.shared.nextCall + 1 ≤ other ->
          (before.shared.begin_ node).nodes other = .blank := fun node =>
        blank_onNode (fun other later => numbered.blank other (Nat.le_of_lt later)) (Nat.lt_succ_self _)
      have made : forall call index (request : Request), request ≠ .idle ->
          (before.shared.nodes call).request index = request -> call < before.shared.nextCall := by
        intro call index request used same
        apply Nat.lt_of_not_le
        intro unmade
        rw [numbered.blank call unmade] at same
        exact used same.symm
      cases step with
      | node call point node points move =>
          exact ⟨blank_onNode numbered.blank known, numbered.resident, numbered.pending, frames⟩
      | callEmpty | callSerial =>
          exact ⟨begun _, fun address => Nat.le_trans (numbered.resident address) (Nat.sub_le _ _),
            fun _ => Nat.succ_pos _, frames⟩
      | callParallel frame iterations address =>
          refine ⟨begun _, ?_, fun _ => Nat.succ_pos _, frames⟩
          intro other
          change Function.update before.shared.resident address before.shared.nextCall other ≤ before.shared.nextCall
          by_cases same : other = address
          · rw [same, Function.update_self]
          · rw [Function.update_of_ne same]
            exact Nat.le_trans (numbered.resident other) (Nat.sub_le _ _)
      | loadHead | pushFails | task | taskReturns | drained => exact ⟨numbered.blank, numbered.resident, numbered.pending, frames⟩
      | push call queuedChunks expected =>
          exact ⟨blank_onNode numbered.blank known, numbered.resident, fun _ => Nat.lt_of_le_of_lt (Nat.zero_le _) known,
            frames⟩
      | send | serve => exact ⟨numbered.blank, numbered.resident, numbered.pending, frames⟩
      | dequeue call index queued =>
          exact ⟨blank_onNode numbered.blank (made call index _ (by decide) queued), numbered.resident, numbered.pending,
            frames⟩
      | report call index done =>
          exact ⟨blank_onNode numbered.blank (made call index _ (by decide) done), numbered.resident, numbered.pending,
            frames⟩
      | exchange => exact ⟨numbered.blank, numbered.resident, fun none => absurd rfl none, frames⟩
      | drain address chain =>
          exact ⟨blank_onNode numbered.blank (resident known address), numbered.resident, numbered.pending,
            frames⟩

theorem numbered_of_reachable {state : Stacked Thread Frame Shared}
    (reachable : (libuvSystem program role).Reachable state) : Numbered state := by
  refine reachable.invariant ?_ ?_
  · rintro _ rfl
    refine ⟨fun _ _ => rfl, fun _ => Nat.le_refl 0, fun some => absurd rfl some, ?_⟩
    intro thread frame member
    rw [List.mem_singleton.mp member]
    cases role thread <;> trivial
  · intro before after _ numbered move
    exact numbered.step move

/-! ## Every step is a step of each call -/

/-- A call, when threads are at the given points of it. -/
def Shared.callOf (shared : Shared) (call : Nat) (points : Multiset Point) : Call :=
  ⟨decide (call < shared.nextCall), shared.nodes call, points⟩

omit [DecidableEq Thread] in
/-- What a new call changes. -/
theorem step_of_begin {shared : Shared} {frame : Frame} {node : Node} {point : Point}
    (blank : shared.nodes shared.nextCall = .blank) (known : frame.Known shared.nextCall)
    (change : NodeChange program false .blank [] node [point]) (call : Nat) (rest : Multiset Point) :
    CallStep program (shared.callOf call ((frame.pointsOf call : Multiset Point) + rest))
      ((shared.begin_ node).callOf call
        (([Frame.spread shared.nextCall point, frame].flatMap (Frame.pointsOf call) : Multiset Point) + rest)) := by
  have kept : [Frame.spread shared.nextCall point, frame].flatMap (Frame.pointsOf call) =
      (Frame.spread shared.nextCall point).pointsOf call ++ frame.pointsOf call := by
    rw [List.flatMap_cons, List.flatMap_cons, List.flatMap_nil, List.append_nil]
  rw [kept, Shared.callOf, Shared.callOf]
  by_cases same : shared.nextCall = call
  · subst same
    have nothing : frame.pointsOf shared.nextCall = [] := by
      apply List.eq_nil_iff_forall_not_mem.mpr
      intro point member
      rw [mem_pointsOf.mp member] at known
      exact Nat.lt_irrefl _ known
    have fresh : (shared.begin_ node).nodes shared.nextCall = node := shared.nodes_onNode _ _
    have begun : shared.nextCall < (shared.begin_ node).nextCall := Nat.lt_succ_self _
    rw [nothing, pointsOf_spread, blank, fresh, decide_eq_true begun, decide_eq_false (Nat.lt_irrefl _)]
    exact .change [] [point] rest change
  · have kept : (shared.begin_ node).nodes call = shared.nodes call := shared.nodes_onNode_of_ne (Ne.symm same) _
    have begun : decide (call < (shared.begin_ node).nextCall) = decide (call < shared.nextCall) := by
      change decide (call < shared.nextCall + 1) = _
      rw [decide_eq_decide]
      omega
    rw [pointsOf_other same, kept, begun]
    exact .other _

omit [DecidableEq Thread] in
/-- What a change of one call is for all of them. -/
theorem step_of_onNode {shared : Shared} {target : Nat} {before after : List Point} {node : Node} {frame : Frame}
    {frames : List Frame} (made : target < shared.nextCall)
    (change : NodeChange program true (shared.nodes target) before node after)
    (own : frame.pointsOf target = before) (new : frames.flatMap (Frame.pointsOf target) = after)
    (others : forall call, target ≠ call -> frame.pointsOf call = [] ∧ frames.flatMap (Frame.pointsOf call) = [])
    (call : Nat) (rest : Multiset Point) :
    CallStep program (shared.callOf call ((frame.pointsOf call : Multiset Point) + rest))
      ((shared.onNode target node).callOf call ((frames.flatMap (Frame.pointsOf call) : Multiset Point) + rest)) := by
  rw [Shared.callOf, Shared.callOf]
  change CallStep program _ ⟨decide (call < shared.nextCall), _, _⟩
  by_cases same : target = call
  · subst same
    rw [own, new, Shared.nodes_onNode, decide_eq_true made]
    exact .change before after rest change
  · rw [(others call same).1, (others call same).2, Shared.nodes_onNode_of_ne _ (Ne.symm same)]
    exact .other _

omit [DecidableEq Thread] in
theorem call_of_step {callStack : Thread -> List Frame} {thread : Thread} {shared shared' : Shared} {frame : Frame}
    {frames : List Frame} (numbered : forall call, shared.nextCall ≤ call -> shared.nodes call = .blank)
    (known : frame.Known shared.nextCall)
    (listed : forall address chain, frame = .drain (some address) chain ->
      shared.resident address < shared.nextCall ∧ 0 < (shared.nodes (shared.resident address)).listed)
    (move : LibuvStep program role callStack thread shared frame shared' frames) (call : Nat)
    (rest : Multiset Point) :
    CallStep program (shared.callOf call ((frame.pointsOf call : Multiset Point) + rest))
      (shared'.callOf call ((frames.flatMap (Frame.pointsOf call) : Multiset Point) + rest)) := by
  have same : forall target, shared.onNode target (shared.nodes target) = shared := by
    intro target
    rw [Shared.onNode, Function.update_eq_self]
  -- a single point of a call takes the place of another one
  have goes : forall (target : Nat) (point next : Point) (node : Node), target < shared.nextCall ->
      NodeChange program true (shared.nodes target) [point] node [next] ->
      CallStep program (shared.callOf call (((Frame.spread target point).pointsOf call : Multiset Point) + rest))
        ((shared.onNode target node).callOf call
          (([Frame.spread target next].flatMap (Frame.pointsOf call) : Multiset Point) + rest)) := by
    intro target point next node made change
    apply step_of_onNode made change (pointsOf_spread target point) (flatMap_pointsOf_map target [next])
    intro other different
    exact ⟨pointsOf_other different point, flatMap_pointsOf_map_other different [next]⟩
  -- a point comes on top of a frame that has none
  have comes : forall (target : Nat) (frame below : Frame) (next : Point) (node : Node), target < shared.nextCall ->
      (forall call, frame.pointsOf call = []) -> (forall call, below.pointsOf call = []) ->
      NodeChange program true (shared.nodes target) [] node [next] ->
      CallStep program (shared.callOf call ((frame.pointsOf call : Multiset Point) + rest))
        ((shared.onNode target node).callOf call
          (([Frame.spread target next, below].flatMap (Frame.pointsOf call) : Multiset Point) + rest)) := by
    intro target frame below next node made empty emptyBelow change
    apply step_of_onNode made change (empty target)
    · rw [List.flatMap_cons, List.flatMap_cons, List.flatMap_nil, emptyBelow, pointsOf_spread]
      rfl
    · intro other different
      rw [List.flatMap_cons, List.flatMap_cons, List.flatMap_nil, emptyBelow, pointsOf_other different]
      exact ⟨empty other, rfl⟩
  have made : forall target index, (shared.nodes target).request index ≠ .idle -> target < shared.nextCall := by
    intro target index used
    apply Nat.lt_of_not_le
    intro unmade
    rw [numbered target unmade] at used
    exact used rfl
  cases move with
  | node target point node points step =>
      apply step_of_onNode known (.step _ point points step) (pointsOf_spread target point)
        (flatMap_pointsOf_map target points)
      intro other different
      exact ⟨pointsOf_other different point, flatMap_pointsOf_map_other different points⟩
  | callEmpty => exact step_of_begin (numbered _ (Nat.le_refl _)) known .callEmpty call rest
  | callSerial frame iterations _ some =>
      exact step_of_begin (numbered _ (Nat.le_refl _)) known (.callSerial iterations some) call rest
  | callParallel frame iterations address _ _ several =>
      exact step_of_begin (numbered _ (Nat.le_refl _)) known (.callParallel iterations several) call rest
  | loadHead target queuedChunks =>
      have change := goes target _ _ _ known (.loadHead queuedChunks shared.pending)
      rw [same] at change
      exact change
  | push target queuedChunks expected => exact goes target _ _ _ known (.push queuedChunks expected)
  | pushFails target queuedChunks expected =>
      have change := goes target _ _ _ known (.pushFails queuedChunks expected shared.pending)
      rw [same] at change
      exact change
  | send target queuedChunks =>
      have change := goes target _ _ _ known (.send queuedChunks)
      rw [same] at change
      exact change
  | task frame kind =>
      rcases kind with rfl | rfl
      · exact .other _
      · exact .other _
  | taskReturns | serve | exchange | drained => exact .other _
  | dequeue target index queued =>
      exact comes target .worker .worker _ _ (made target index (by rw [queued]; exact nofun)) (fun _ => rfl)
        (fun _ => rfl) (.dequeue index queued)
  | report target index done =>
      exact comes target .loop .loop _ _ (made target index (by rw [done]; exact nofun)) (fun _ => rfl)
        (fun _ => rfl) (.report index done)
  | drain address chain =>
      have here := listed address chain rfl
      exact comes (shared.resident address) (.drain (some address) chain) (.drain _ _) _ _ here.1 (fun _ => rfl)
        (fun _ => rfl) (.drain here.2)

end Steps

end Libuv
end Sweater
