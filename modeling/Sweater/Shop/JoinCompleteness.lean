import Sweater.Shop.WorkAccount

namespace Sweater
namespace Shop

open Threading
open Spread
open Interleaving
open Interleaving.Stacked

/-!
# A call of `spread_work` returns after its last part

The barrier of a call counts the parts that were created and are neither
retired nor taken back.  The two dispatch paths announce them differently: one
at a time before each `enqueue_bulk`, or all at once by `initialize`, which is
right because the call has created nothing before.  That is what `Knows`
records for the points of a call, and it is stable because no other frame ever
creates a part of the call.

At the end of a call the barrier has been seen at zero, or the caller has done
everything itself.  Then no part is left in the account of the works.
-/

variable {Shop Thread : Type} {program : Program Shop}

/-! ## Counting the parts of a call -/

namespace Shared

/-- How many parts of a call have been created. -/
def made (shared : Shared program) (call : Nat) : Nat :=
  shared.created.countP (Work.ofCall call)

/-- The arrivals that a barrier has to wait for: those announced, but neither
made nor taken back. -/
def outstanding (shared : Shared program) (call : Nat) : Nat :=
  shared.made call - (shared.retired.countP (Work.ofCall call) + shared.dropped.countP (Work.ofCall call))

/-- The counters of the barriers stay below the range of their type, and of
`hardware_concurrency_t`. -/
def InRange (shared : Shared program) : Prop :=
  forall call, shared.outstanding call < 2 ^ program.bits

end Shared

/-! ## One frame for each call -/

/-- One for the frame of the given call. -/
def Frame.belongs {bits : Nat} (call : Nat) (frame : Frame Shop bits) : Nat :=
  if frame.call = some call then 1 else 0

section Uniqueness

variable [DecidableEq Shop] {pool : Pool program Thread} {callStack : Thread -> List (Frame Shop program.bits)}
  {thread : Thread} {shared shared' : Shared program} {frame : Frame Shop program.bits}
  {frames : List (Frame Shop program.bits)}

/-- A call of `spread_work` begins with the next free number; otherwise the
frame of a call is only replaced. -/
theorem ShopStep.belongs (move : ShopStep pool callStack thread shared frame shared' frames) (call : Nat) :
    (if call < shared.nextCall then 1 else 0) + weigh (Frame.belongs call) frames ≤
      (if call < shared'.nextCall then 1 else 0) + frame.belongs call := by
  cases move with
  | worker move => cases move <;> exact Nat.le_refl _
  | execution move =>
      cases move with
      | arrive | discount =>
        simp only [weigh_cons, Frame.belongs, call_resume, weigh_nil]
        exact Nat.le_refl _
      | _ => exact Nat.le_refl _
  | fire move => cases move <;> exact Nat.le_refl _
  | spread move => cases move <;> exact Nat.le_refl _
  | stop move => cases move <;> exact Nat.le_refl _
  | call move =>
      cases move with
      | fire frame shop | stop frame shop =>
          simp [Frame.belongs, Frame.call]
      | spread frame shop iterations parallelizable =>
          simp only [weigh_cons, weigh_nil, Frame.belongs, Frame.call, Option.some.injEq]
          by_cases earlier : call < shared.nextCall
          · rw [if_pos earlier, if_neg (Nat.ne_of_gt earlier), if_pos (Nat.lt_succ_of_lt earlier)]
            omega
          · by_cases now : shared.nextCall = call
            · subst now
              rw [if_neg earlier, if_pos rfl, if_pos (Nat.lt_succ_self _)]
              omega
            · rw [if_neg earlier, if_neg now]
              omega
      | _ => simp [Frame.belongs, Frame.call]

/-- The parts of a call are created by its own frame only. -/
theorem ShopStep.made_eq (move : ShopStep pool callStack thread shared frame shared' frames) {call : Nat}
    (other : frame.call ≠ some call) : shared'.made call = shared.made call := by
  obtain ⟨added, created, _, owned⟩ := move.creates
  have none : added.countP (Work.ofCall call) = 0 := by
    rw [List.countP_eq_zero]
    intro work member ofCall
    exact other (owned work member call ofCall)
  rw [Shared.made, Shared.made, created, List.countP_append, none, Nat.add_zero]

theorem ShopStep.nextCall_le (move : ShopStep pool callStack thread shared frame shared' frames) :
    shared.nextCall ≤ shared'.nextCall := by
  cases move with
  | worker move => cases move <;> exact Nat.le_refl _
  | execution move => cases move <;> exact Nat.le_refl _
  | fire move => cases move <;> exact Nat.le_refl _
  | spread move => cases move <;> exact Nat.le_refl _
  | stop move => cases move <;> exact Nat.le_refl _
  | call move =>
      cases move with
      | spread => exact Nat.le_succ _
      | _ => exact Nat.le_refl _

/-- No other frame makes a call wait for more. -/
theorem ShopStep.outstanding_le (move : ShopStep pool callStack thread shared frame shared' frames) {call : Nat}
    (other : frame.call ≠ some call) : shared'.outstanding call ≤ shared.outstanding call := by
  have retired := move.retired_grows.countP_le (p := Work.ofCall call)
  have dropped := move.dropped_grows.countP_le (p := Work.ofCall call)
  unfold Shared.outstanding
  rw [move.made_eq other]
  omega

variable [Fintype Thread] [DecidableEq Thread]
  {state : Stacked Thread (Frame Shop program.bits) (Shared program)}

/-- Calls are numbered apart, so that a call has one frame while it lasts. -/
theorem calls_apart (reachable : (shopSystem pool).Reachable state) (call : Nat) :
    AtMost (Frame.belongs call) (fun shared => if call < shared.nextCall then 1 else 0) (fun _ => 0) state := by
  apply reachable.invariant
  · rintro state rfl
    rw [AtMost, initial_total_eq_zero pool _ _ rfl (fun _ _ => rfl)]
    exact Nat.zero_le _
  · intro before after _ earlier move
    exact earlier.step move (fun _ _ _ _ localStep => localStep.belongs call)

theorem call_lt_nextCall (reachable : (shopSystem pool).Reachable state) {thread : Thread}
    {frame : Frame Shop program.bits} (member : frame ∈ state.callStack thread) {call : Nat}
    (own : frame.call = some call) : call < state.shared.nextCall := by
  have bound := calls_apart reachable call
  have counted := weight_le_total (Frame.belongs call) state member
  rw [AtMost] at bound
  by_contra beyond
  rw [Frame.belongs, if_pos own] at counted
  rw [if_neg beyond] at bound
  omega

/-- A frame elsewhere belongs to another call. -/
theorem call_ne_of_elsewhere (reachable : (shopSystem pool).Reachable state) {thread other : Thread}
    {top frame : Frame Shop program.bits} {rest : List (Frame Shop program.bits)}
    (place : state.callStack thread = top :: rest)
    (elsewhere : (other = thread ∧ frame ∈ rest) ∨ (other ≠ thread ∧ frame ∈ state.callStack other))
    {call : Nat} (own : frame.call = some call) : top.call ≠ some call := by
  intro same
  have bound := calls_apart reachable call
  have counted := total_two (Frame.belongs call) state place elsewhere
  rw [AtMost] at bound
  rw [Frame.belongs, Frame.belongs, if_pos own, if_pos same] at counted
  have atMostOne : (if call < state.shared.nextCall then 1 else 0) ≤ 1 := by split <;> omega
  omega

/-- A call that has not begun has created nothing. -/
theorem made_eq_zero (reachable : (shopSystem pool).Reachable state) {call : Nat}
    (unused : state.shared.nextCall ≤ call) : state.shared.made call = 0 := by
  induction reachable with
  | initial first => rw [first]; rfl
  | step earlier move inductionHypothesis =>
      cases move with
      | top thread frame rest shared frames place localStep =>
          have before := Nat.le_trans localStep.nextCall_le unused
          change shared.made call = 0
          rw [localStep.made_eq]
          · exact inductionHypothesis before
          · intro own
            have started := call_lt_nextCall earlier (by rw [place]; exact List.mem_cons_self) own
            exact Nat.not_lt_of_le before started

end Uniqueness

/-! ## What a call knows about its own parts -/

/-- What holds at each point of a call, whatever the other threads do. -/
def SpreadPoint.Knows (shared : Shared program) (call : Nat) (locals : SpreadLocals) :
    SpreadPoint program.bits -> Prop
  | .loadItems | .loadDivision _ | .countParts _ | .initializeBarrier _ | .initializeEmpty =>
      locals.immediate = false ∧ shared.made call = 0
  | .registerSlice _ _ registered _ _ | .countSlice _ _ registered _ _ =>
      locals.immediate = false ∧ forall part, part ∈ registered -> part.call = call
  | .notifyRoot _ _ | .notifyAll _ => locals.immediate = false
  | .enqueueParts parts =>
      locals.immediate = false ∧ shared.made call = parts.length ∧ forall part, part ∈ parts -> part.call = call
  | .resetBarrier parts =>
      locals.immediate = false ∧ program.enqueueMayFail = true ∧
        shared.made call = parts.length ∧ forall part, part ∈ parts -> part.call = call
  | .callerRegister => locals.immediate = true -> shared.made call = 0
  | .callerCount part => part.call = call ∧ (locals.immediate = true -> shared.made call = 1)
  | .callerCompleting => locals.immediate = true -> shared.outstanding call = 0
  | .testQueue | .steal | .stealCompleting | .join | .spinning | .waiting => True
  | .stalled | .raiseDivision _ | .finished => shared.outstanding call = 0

def Frame.Knows (shared : Shared program) : Frame Shop program.bits -> Prop
  | .spread _ call locals point => point.Knows shared call locals
  | .executing (.caller _ call locals) work _ =>
      work.ofCall call = true ∧ (locals.immediate = true -> shared.made call = 1)
  | _ => True

/-- What a frame knows stays true if the parts of its call stay, and none of
them comes back. -/
theorem Frame.Knows.stable {shared shared' : Shared program} {frame : Frame Shop program.bits}
    (knows : frame.Knows shared)
    (kept : forall call, frame.call = some call ->
      shared'.made call = shared.made call ∧ shared'.outstanding call ≤ shared.outstanding call) :
    frame.Knows shared' := by
  cases frame with
  | spread shop call locals point =>
      obtain ⟨made, outstanding⟩ := kept call rfl
      cases point <;> simp only [Frame.Knows, SpreadPoint.Knows, made] at knows ⊢ <;> try exact knows
      · exact fun immediate => Nat.eq_zero_of_le_zero (knows immediate ▸ outstanding)
      all_goals exact Nat.eq_zero_of_le_zero (knows ▸ outstanding)
  | executing host work phase =>
      cases host with
      | caller shop call locals =>
          simp only [Frame.Knows, (kept call rfl).1] at knows ⊢
          exact knows
      | worker | thief => trivial
  | _ => trivial

/-- The points that follow the dispatch. -/
theorem SpreadPoint.knows_toCaller (shared : Shared program) (call : Nat) {locals : SpreadLocals}
    (immediate : locals.immediate = false) : (toCaller locals).Knows shared call locals := by
  unfold toCaller
  split
  · intro impossible
    rw [immediate] at impossible
    cases impossible
  · trivial

theorem SpreadPoint.knows_nextDispatch (shared : Shared program) (call : Nat) {locals : SpreadLocals}
    (immediate : locals.immediate = false) (first : Bool) (rest : List (Dispatch program.bits)) :
    (nextDispatch locals first rest).Knows shared call locals := by
  cases rest with
  | nil => exact knows_toCaller shared call immediate
  | cons dispatch rest => exact ⟨immediate, fun _ impossible => by cases impossible⟩

theorem SpreadPoint.knows_toJoin (shared : Shared program) (call : Nat) (locals locals' : SpreadLocals) :
    (toJoin locals : SpreadPoint program.bits).Knows shared call locals' := by
  unfold toJoin
  split <;> trivial

theorem SpreadPoint.knows_startPlan {shared : Shared program} {call : Nat} {locals : SpreadLocals}
    (immediate : locals.immediate = false) (made : shared.made call = 0) (plan : Plan program.bits) :
    (startPlan program locals plan).2.Knows shared call (startPlan program locals plan).1 := by
  cases plan with
  | nothing =>
      change shared.outstanding call = 0
      rw [Shared.outstanding, made, Nat.zero_sub]
  | inCaller iterations => exact fun _ => made
  | toWorkers callerEnd sliceDiv dispatches =>
      apply knows_nextDispatch shared call
      exact immediate
  | toQueue queueAndWait callerEnd chunks =>
      simp only [startPlan]
      split
      · exact ⟨immediate, made⟩
      · exact ⟨immediate, made⟩

/-! ## The barrier counts what is outstanding -/

/-- Every barrier counts the outstanding parts of its call. -/
def Shared.Counts (shared : Shared program) : Prop :=
  forall call, (shared.barrier call).counter = BitVec.ofNat program.counterBits (shared.outstanding call)

/-- The account of a call, as one frame sees it. -/
def Room (shared : Shared program) (frame : Frame Shop program.bits) : Prop :=
  forall call, frame.carries (Work.ofCall call) + shared.retired.countP (Work.ofCall call) +
    shared.dropped.countP (Work.ofCall call) ≤ shared.made call

namespace Shared

variable {shared shared' : Shared program}

theorem Counts.same (counts : shared.Counts)
    (counter : forall call, (shared'.barrier call).counter = (shared.barrier call).counter)
    (outstanding : forall call, shared'.outstanding call = shared.outstanding call) : shared'.Counts := by
  intro call
  rw [counter call, outstanding call]
  exact counts call

theorem Counts.operate (counts : shared.Counts) (call : Nat)
    (operation : Barrier program.counterBits -> Barrier program.counterBits)
    (barrier : shared'.barrier = Function.update shared.barrier call (operation (shared.barrier call)))
    (here : (operation (shared.barrier call)).counter = BitVec.ofNat program.counterBits (shared'.outstanding call))
    (others : forall other, other ≠ call -> shared'.outstanding other = shared.outstanding other) :
    shared'.Counts := by
  intro other
  rw [barrier]
  by_cases same : other = call
  · subst same
    rw [Function.update_self]
    exact here
  · rw [Function.update_of_ne same, others other same]
    exact counts other

theorem Counts.addExpectedArrival (counts : shared.Counts) (call : Nat)
    (barrier : shared'.barrier =
      Function.update shared.barrier call (Barrier.addExpectedArrival (shared.barrier call)))
    (here : shared'.outstanding call = shared.outstanding call + 1)
    (others : forall other, other ≠ call -> shared'.outstanding other = shared.outstanding other) :
    shared'.Counts := by
  apply counts.operate call _ barrier _ others
  rw [Barrier.addExpectedArrival, counts call, here, BitVec.ofNat_add, BitVec.ofNat_eq_ofNat]

theorem Counts.arrive (counts : shared.Counts) (call : Nat)
    (barrier : shared'.barrier = Function.update shared.barrier call (Barrier.arrive (shared.barrier call)))
    (here : shared.outstanding call = shared'.outstanding call + 1)
    (others : forall other, other ≠ call -> shared'.outstanding other = shared.outstanding other) :
    shared'.Counts := by
  apply counts.operate call _ barrier _ others
  rw [Barrier.arrive, counts call, here, BitVec.ofNat_add, BitVec.ofNat_eq_ofNat, BitVec.add_sub_cancel]

/-- An `initialize` by a number below the range of `hardware_concurrency_t`. -/
theorem Counts.initializeWith (counts : shared.Counts) (call count : Nat)
    (barrier : shared'.barrier = Function.update shared.barrier call
      ((shared.barrier call).initializeWith (BitVec.ofNat program.bits count)))
    (fits : count < 2 ^ program.bits) (here : shared'.outstanding call = count)
    (others : forall other, other ≠ call -> shared'.outstanding other = shared.outstanding other) :
    shared'.Counts := by
  apply counts.operate call (fun barrier => barrier.initializeWith (BitVec.ofNat program.bits count)) barrier _ others
  rw [here, Barrier.initializeWith]
  apply BitVec.eq_of_toNat_eq
  rw [Machine.toNat_setWidth_of_le (program.barrierKind.bits_le_counterBits program.concurrency),
    BitVec.toNat_ofNat, BitVec.toNat_ofNat, Nat.mod_eq_of_lt fits, Nat.mod_eq_of_lt]
  exact Nat.lt_of_lt_of_le fits (Nat.pow_le_pow_right (by decide)
    (program.barrierKind.bits_le_counterBits program.concurrency))

end Shared

section Steps

variable {shared shared' : Shared program} {frame : Frame Shop program.bits}
  {frames : List (Frame Shop program.bits)}

theorem countP_ofCall_parts {call : Nat} {parts : List Part} (own : forall part, part ∈ parts -> part.call = call) :
    (parts.map Work.part).countP (Work.ofCall call) = parts.length := by
  rw [List.countP_map, List.countP_eq_length]
  intro part member
  exact beq_iff_eq.mpr (own part member)

theorem countP_ofCall_other {call other : Nat} {parts : List Part} (different : other ≠ call)
    (own : forall part, part ∈ parts -> part.call = call) :
    (parts.map Work.part).countP (Work.ofCall other) = 0 := by
  rw [List.countP_map, List.countP_eq_zero]
  intro part member same
  exact different ((beq_iff_eq.mp same).symm.trans (own part member))

theorem ExecutionStep.counts (move : ExecutionStep program shared frame shared' frames)
    (counts : shared.Counts) (room : Room shared frame) : shared'.Counts := by
  cases move with
  | invoke host work => exact counts.same (fun _ => rfl) (fun _ => rfl)
  | finish host work => exact counts.same (fun _ => rfl) (fun _ => rfl)
  | arrive host part =>
      apply counts.arrive part.call rfl
      · have here := room part.call
        simp [Shared.outstanding, Shared.made, Shared.onBarrier, Work.ofCall, Frame.carries] at here ⊢
        omega
      · intro other different
        simp [Shared.outstanding, Shared.made, Shared.onBarrier, Work.ofCall, different.symm]
  | discount host serial =>
      refine counts.same (fun _ => rfl) ?_
      intro call
      simp [Shared.outstanding, Shared.made, Work.ofCall]

variable [DecidableEq Shop]

theorem FireStep.counts (move : FireStep program shared frame shared' frames) (counts : shared.Counts) :
    shared'.Counts := by
  cases move with
  | refuse shop serial target =>
      refine counts.same (fun _ => rfl) ?_
      intro call
      simp [Shared.outstanding, Shared.made, Work.ofCall]
  | _ => exact counts.same (fun _ => rfl) (fun _ => rfl)

theorem SpreadStep.counts {recursive : Bool} (move : SpreadStep program recursive shared frame shared' frames)
    (counts : shared.Counts) (knows : frame.Knows shared) (room : Room shared frame) (range : shared'.InRange) :
    shared'.Counts := by
  cases move with
  | plan shop call locals itemsInShop plan exact planned =>
      refine counts.same ?_ (fun _ => rfl)
      intro other
      simp only [Shared.onBarrier, Function.update_apply]
      split
      · rename_i same
        rw [same]
        rfl
      · rfl
  | registerSlice shop call locals worker first registered chunk slices rest =>
      apply counts.addExpectedArrival call rfl
      · have here := room call
        simp [Shared.outstanding, Shared.made, Shared.onBarrier, Work.ofCall] at here ⊢
        omega
      · intro other different
        simp [Shared.outstanding, Shared.made, Shared.onBarrier, Work.ofCall, different.symm]
  | callerRegister shop call locals =>
      apply counts.addExpectedArrival call rfl
      · have here := room call
        simp [Shared.outstanding, Shared.made, Shared.onBarrier, Work.ofCall] at here ⊢
        omega
      · intro other different
        simp [Shared.outstanding, Shared.made, Shared.onBarrier, Work.ofCall, different.symm]
  | initializeBarrier shop call locals chunks =>
      obtain ⟨_, unmade⟩ := knows
      have own := partsOf_call call shared.created.length chunks
      have here := countP_ofCall_parts own
      have before := room call
      rw [partsOf_length] at here
      apply counts.initializeWith call chunks.length rfl
      · have fits := range call
        simp only [Shared.outstanding, Shared.made, Shared.onBarrier, List.countP_append, here] at fits before unmade
        omega
      · simp only [Shared.outstanding, Shared.made, Shared.onBarrier, List.countP_append, here] at before unmade ⊢
        omega
      · intro other different
        simp only [Shared.outstanding, Shared.made, Shared.onBarrier, List.countP_append,
          countP_ofCall_other different own, Nat.add_zero]
  | resetBarrier shop call locals parts =>
      obtain ⟨_, _, made, own⟩ := knows
      have here := countP_ofCall_parts own
      have before := room call
      apply counts.initializeWith call 0 rfl (Nat.two_pow_pos _)
      · simp only [Frame.carries, Frame.pending_spread, SpreadPoint.parts, here] at before
        simp only [Shared.outstanding, Shared.made, Shared.onBarrier, List.countP_append, here] at before made ⊢
        omega
      · intro other different
        simp only [Shared.outstanding, Shared.made, Shared.onBarrier, List.countP_append,
          countP_ofCall_other different own, Nat.add_zero]
  | initializeEmpty shop call locals =>
      obtain ⟨_, unmade⟩ := knows
      apply counts.initializeWith call 0 rfl (Nat.two_pow_pos _)
      · change shared.outstanding call = 0
        rw [Shared.outstanding, unmade, Nat.zero_sub]
      · intro other _
        rfl
  | _ => exact counts.same (fun _ => rfl) (fun _ => rfl)

variable {pool : Pool program Thread} {callStack : Thread -> List (Frame Shop program.bits)} {thread : Thread}

theorem CallStep.counts (move : CallStep pool callStack thread shared frame shared' frames)
    (counts : shared.Counts) (fresh : shared.made shared.nextCall = 0) : shared'.Counts := by
  cases move with
  | fire frame shop =>
      refine counts.same (fun _ => rfl) ?_
      intro call
      simp [Shared.outstanding, Shared.made, Work.ofCall]
  | spread frame shop iterations parallelizable =>
      refine counts.operate shared.nextCall (fun _ => Barrier.construct (0 : BitVec program.bits)) rfl ?_
        (fun _ _ => rfl)
      change _ = BitVec.ofNat program.counterBits (shared.outstanding shared.nextCall)
      rw [Shared.outstanding, fresh, Nat.zero_sub, Barrier.construct, BitVec.ofNat_eq_ofNat]
      exact BitVec.setWidth_zero _ _
  | _ => exact counts.same (fun _ => rfl) (fun _ => rfl)

theorem ShopStep.counts (move : ShopStep pool callStack thread shared frame shared' frames)
    (counts : shared.Counts) (knows : frame.Knows shared) (room : Room shared frame)
    (fresh : shared.made shared.nextCall = 0) (range : shared'.InRange) : shared'.Counts := by
  cases move with
  | worker move => cases move <;> exact counts.same (fun _ => rfl) (fun _ => rfl)
  | execution move => exact move.counts counts room
  | fire move => exact move.counts counts
  | spread move => exact move.counts counts knows room range
  | stop move => cases move <;> exact counts.same (fun _ => rfl) (fun _ => rfl)
  | call move => exact move.counts counts fresh

/-! ## What a call learns at its own steps -/

omit [DecidableEq Shop] in
theorem Shared.outstanding_eq_zero (counts : shared.Counts) (range : shared.InRange) {call : Nat}
    (arrived : (shared.barrier call).everyoneArrived program.bits = true) : shared.outstanding call = 0 := by
  have low := beq_iff_eq.mp arrived
  rw [Barrier.actives, counts call,
    BitVec.setWidth_ofNat_of_le (program.barrierKind.bits_le_counterBits program.concurrency)] at low
  have value := congrArg BitVec.toNat low
  rwa [BitVec.toNat_ofNat, Nat.mod_eq_of_lt (range call), BitVec.ofNat_eq_ofNat, BitVec.toNat_zero] at value

omit [DecidableEq Shop] in
theorem everyoneArrived_of_counter {call : Nat} (zero : (shared.barrier call).counter = 0) :
    (shared.barrier call).everyoneArrived program.bits = true := by
  rw [Barrier.everyoneArrived, Barrier.actives, zero, BitVec.ofNat_eq_ofNat, BitVec.setWidth_zero]
  exact beq_self_eq_true _

omit [DecidableEq Shop] in
theorem ExecutionStep.knows (move : ExecutionStep program shared frame shared' frames)
    (knows : frame.Knows shared) : forall next, next ∈ frames -> next.Knows shared' := by
  cases move with
  | invoke host work | finish host work =>
      simp only [List.mem_singleton, forall_eq]
      cases host <;> exact knows
  | arrive host part =>
      simp only [List.mem_singleton, forall_eq]
      cases host with
      | worker | thief => trivial
      | caller shop call locals =>
          -- the only part of an immediate call has been executed
          intro immediate
          have made := knows.2 immediate
          have own : part.call = call := beq_iff_eq.mp knows.1
          change shared.made call - _ = 0
          rw [made, List.countP_append]
          simp [Work.ofCall, own]
          omega
  | discount host serial =>
      simp only [List.mem_singleton, forall_eq]
      cases host with
      | worker | thief => trivial
      | caller shop call locals => cases knows.1

theorem SpreadStep.knows {recursive : Bool} (move : SpreadStep program recursive shared frame shared' frames)
    (knows : frame.Knows shared) (counts : shared.Counts) (range : shared.InRange) :
    forall next, next ∈ frames -> next.Knows shared' := by
  cases move <;> simp only [List.mem_singleton, forall_eq]
  case loadItems | countSlice | countParts | notifyAll => exact knows
  case plan => exact SpreadPoint.knows_startPlan knows.1 knows.2 _
  case registerSlice =>
    refine ⟨knows.1, fun part member => ?_⟩
    rcases List.mem_append.mp member with earlier | new
    · exact knows.2 part earlier
    · rw [List.mem_singleton.mp new]
  case enqueueSlices shop call locals worker first registered rest
      | refuseSlices shop call locals worker first registered rest _ =>
    cases first with
    | true => exact knows.1
    | false => exact SpreadPoint.knows_nextDispatch _ call knows.1 false rest
  case notifyRoot => exact SpreadPoint.knows_nextDispatch _ _ knows false _
  case initializeBarrier shop call locals chunks =>
    have own := partsOf_call call shared.created.length chunks
    refine ⟨knows.1, ?_, own⟩
    change (shared.created ++ _).countP (Work.ofCall call) = _
    have unmade : shared.created.countP (Work.ofCall call) = 0 := knows.2
    rw [List.countP_append, countP_ofCall_parts own, unmade, Nat.zero_add]
  case enqueueParts => exact knows.1
  case refuseParts mayFail => exact ⟨knows.1, mayFail, knows.2⟩
  case notifiedAll => exact SpreadPoint.knows_toCaller _ _ knows
  case resetBarrier => exact SpreadPoint.knows_toCaller _ _ knows.1
  case initializeEmpty => exact SpreadPoint.knows_toCaller _ _ knows.1
  case callerRegister shop call locals =>
    refine ⟨rfl, fun immediate => ?_⟩
    have unmade := knows immediate
    change (shared.created ++ _).countP (Work.ofCall call) = 1
    rw [List.countP_append, show shared.created.countP (Work.ofCall call) = 0 from unmade]
    simp [Work.ofCall]
  case callerCount => exact ⟨beq_iff_eq.mpr knows.1, knows.2⟩
  case callerComplete shop call locals =>
    cases immediate : locals.immediate with
    | true => exact knows immediate
    | false => trivial
  case stealBegin | steal | stealComplete | joinSpin | spinAgain | waitAgain => trivial
  case stealSkip | stealEmpty => exact SpreadPoint.knows_toJoin _ _ _ _
  case joined arrived => exact Shared.outstanding_eq_zero counts range arrived
  case spinOver isStalled arrived =>
    have none := Shared.outstanding_eq_zero counts range arrived
    cases isStalled <;> exact none
  case loadStalled | raiseDivision | keepDivision => exact knows
  case waitOver zero => exact Shared.outstanding_eq_zero counts range (everyoneArrived_of_counter zero)

theorem CallStep.knows (move : CallStep pool callStack thread shared frame shared' frames)
    (knows : frame.Knows shared) (fresh : shared.made shared.nextCall = 0) :
    forall next, next ∈ frames -> next.Knows shared' := by
  cases move with
  | fire frame shop =>
      simp only [List.mem_cons, List.not_mem_nil, or_false, forall_eq_or_imp, forall_eq]
      refine ⟨trivial, knows.stable (fun call _ => ?_)⟩
      have made : forall call, (shared.created ++ [Work.item shared.created.length]).countP (Work.ofCall call) =
          shared.created.countP (Work.ofCall call) := by
        intro call
        simp [Work.ofCall]
      exact ⟨made call, by simp [Shared.outstanding, Shared.made, made]⟩
  | spread frame shop iterations parallelizable =>
      simp only [List.mem_cons, List.not_mem_nil, or_false, forall_eq_or_imp, forall_eq]
      refine ⟨?_, knows.stable (fun _ _ => ⟨rfl, Nat.le_refl _⟩)⟩
      split
      · change shared.made shared.nextCall - _ = 0
        rw [fresh, Nat.zero_sub]
      · exact ⟨rfl, fresh⟩
  | stop frame shop =>
      simp only [List.mem_cons, List.not_mem_nil, or_false, forall_eq_or_imp, forall_eq]
      exact ⟨trivial, knows.stable (fun _ _ => ⟨rfl, Nat.le_refl _⟩)⟩
  | fired | spreadReturn | stopped => exact fun _ impossible => by cases impossible

theorem ShopStep.knows (move : ShopStep pool callStack thread shared frame shared' frames)
    (knows : frame.Knows shared) (counts : shared.Counts) (range : shared.InRange)
    (fresh : shared.made shared.nextCall = 0) :
    forall next, next ∈ frames -> next.Knows shared' := by
  cases move with
  | worker move =>
      cases move <;> simp only [List.mem_singleton, forall_eq] <;> trivial
  | execution move => exact move.knows knows
  | fire move => cases move <;> simp only [List.mem_singleton, forall_eq] <;> trivial
  | spread move => exact move.knows knows counts range
  | stop move => cases move <;> simp only [List.mem_singleton, forall_eq] <;> trivial
  | call move => exact move.knows knows fresh

end Steps

/-! ## Whole runs -/

section Runs

variable [DecidableEq Shop] [Fintype Thread] [DecidableEq Thread] {pool : Pool program Thread}
  {state : Stacked Thread (Frame Shop program.bits) (Shared program)}

/-- The runs in which no barrier reaches the range of its counter. -/
def boundedShopSystem (pool : Pool program Thread) :
    System (Stacked Thread (Frame Shop program.bits) (Shared program)) :=
  (shopSystem pool).within (fun state => state.shared.InRange)

theorem room (reachable : (shopSystem pool).Reachable state) {thread : Thread}
    {frame : Frame Shop program.bits} (member : frame ∈ state.callStack thread) : Room state.shared frame := by
  intro call
  have carried := (accounted (Work.ofCall call) reachable).carried
  have own := weight_le_total (Frame.carries (Work.ofCall call)) state member
  unfold Shared.made
  omega

omit [Fintype Thread] in
/-- The number of works that have been created bounds all counters of barriers. -/
theorem boundedShopSystem_of_few (reachable : (shopSystem pool).Reachable state)
    (few : state.shared.created.length < 2 ^ program.bits) : (boundedShopSystem pool).Reachable state := by
  have bounded : forall shared : Shared program, shared.created.length < 2 ^ program.bits -> shared.InRange := by
    intro shared few call
    have counted := List.countP_le_length (p := Work.ofCall call) (l := shared.created)
    unfold Shared.outstanding Shared.made
    omega
  induction reachable with
  | initial first => exact .initial ⟨first, bounded _ few⟩
  | step earlier move inductionHypothesis =>
      cases move with
      | top thread frame rest shared frames place localStep =>
          obtain ⟨added, created, _, _⟩ := localStep.creates
          have fewer : shared.created.length < 2 ^ program.bits := few
          rw [created, List.length_append] at fewer
          exact .step (inductionHypothesis (Nat.lt_of_le_of_lt (Nat.le_add_right _ _) fewer))
            ⟨.top thread frame rest shared frames place localStep, bounded _ few⟩

/-- The barriers count, and every frame knows what it should. -/
structure Tracked (state : Stacked Thread (Frame Shop program.bits) (Shared program)) : Prop where
  counts : state.shared.Counts
  knows : forall thread frame, frame ∈ state.callStack thread -> frame.Knows state.shared

omit [DecidableEq Shop] [Fintype Thread] [DecidableEq Thread] in
theorem initial_tracked (pool : Pool program Thread) : Tracked ⟨Shared.fresh, pool.initialStack⟩ where
  counts := fun _ => BitVec.setWidth_zero _ _
  knows := by
    intro thread frame member
    rcases mem_initialStack member with rfl | ⟨shop, index, _, rfl⟩
    · trivial
    · trivial

theorem tracked_step {before after : Stacked Thread (Frame Shop program.bits) (Shared program)}
    (reachable : (boundedShopSystem pool).Reachable before) (tracked : Tracked before)
    (move : (boundedShopSystem pool).step before after) : Tracked after := by
  have earlier := reachable.of_within
  have range := reachable.inside
  have fresh := made_eq_zero earlier (Nat.le_refl before.shared.nextCall)
  constructor
  · cases move.1 with
    | top thread frame rest shared frames place localStep =>
        have member : frame ∈ before.callStack thread := by rw [place]; exact List.mem_cons_self
        exact localStep.counts tracked.counts (tracked.knows thread frame member) (room earlier member) fresh
          move.2
  · apply frames_step move.1 (fun state _ frame => frame.Knows state.shared) tracked.knows
    · rintro thread top rest shared frames place localStep rfl knows
      exact localStep.knows knows tracked.counts range fresh
    · rintro thread top rest shared frames place localStep rfl other frame elsewhere knows
      apply knows.stable
      intro call own
      have different := call_ne_of_elsewhere earlier place elsewhere own
      exact ⟨localStep.made_eq different, localStep.outstanding_le different⟩

theorem tracked (reachable : (boundedShopSystem pool).Reachable state) : Tracked state := by
  apply reachable.invariant
  · rintro state ⟨rfl, _⟩
    exact initial_tracked pool
  · intro before after earlier holds move
    exact tracked_step earlier holds move

/-- Where every enqueue succeeds, no work is refused. -/
theorem nothing_refused (succeeds : program.enqueueMayFail = false)
    (reachable : (boundedShopSystem pool).Reachable state) :
    state.shared.lost = [] ∧ state.shared.dropped = [] := by
  apply reachable.invariant
  · rintro state ⟨rfl, _⟩
    exact ⟨rfl, rfl⟩
  · intro before after earlier none move
    cases move.1 with
    | top thread frame rest shared frames place localStep =>
        have knows := (tracked earlier).knows thread frame (by rw [place]; exact List.mem_cons_self)
        change shared.lost = [] ∧ shared.dropped = []
        cases localStep with
        | worker move => cases move <;> exact none
        | execution move => cases move <;> exact none
        | fire move =>
            cases move with
            | refuse shop serial target mayFail => cases succeeds.symm.trans mayFail
            | _ => exact none
        | spread move =>
            cases move with
            | refuseSlices _ _ _ _ _ _ _ mayFail => cases succeeds.symm.trans mayFail
            | resetBarrier => cases succeeds.symm.trans knows.2.1
            | _ => exact none
        | stop move => cases move <;> exact none
        | call move => cases move <;> exact none

/-- The frame of a call that is about to return has nothing left to wait for. -/
theorem outstanding_of_finished (reachable : (boundedShopSystem pool).Reachable state) {thread : Thread}
    {shop : Shop} {call : Nat} {locals : SpreadLocals}
    (returning : .spread shop call locals .finished ∈ state.callStack thread) :
    state.shared.outstanding call = 0 :=
  (tracked reachable).knows thread _ returning

/-- What is not outstanding any more is nowhere in the program. -/
theorem settled_of_outstanding {call : Nat} (reachable : (shopSystem pool).Reachable state)
    (none : state.shared.outstanding call = 0) :
    state.total (Frame.carries (Work.ofCall call)) = 0 ∧
      (state.shared.queue.map Entry.work).countP (Work.ofCall call) = 0 ∧
      state.shared.lost.countP (Work.ofCall call) = 0 := by
  have carried := (accounted (Work.ofCall call) reachable).carried
  unfold Shared.outstanding Shared.made at none
  omega

/-- When a call of `spread_work` is about to return, each of its parts has been
invoked once, has finished and has arrived at the barrier, and none is queued
or being executed.  The dispatch path, the join and the other users of the
shop are arbitrary, and calls may be nested. -/
theorem join_completeness (succeeds : program.enqueueMayFail = false)
    (reachable : (boundedShopSystem pool).Reachable state) (thread : Thread) (shop : Shop) (call : Nat)
    (locals : SpreadLocals) (rest : List (Frame Shop program.bits))
    (returning : state.callStack thread = .spread shop call locals .finished :: rest) :
    (forall part : Part, part.call = call -> .part part ∈ state.shared.created ->
      state.shared.invoked.count (.part part) = 1 ∧ state.shared.finished.count (.part part) = 1 ∧
        state.shared.retired.count (.part part) = 1) ∧
    (forall entry, entry ∈ state.shared.queue -> entry.work.ofCall call = false) ∧
    (forall other host work phase, .executing host work phase ∈ state.callStack other ->
      work.ofCall call = false) := by
  have earlier := reachable.of_within
  have none := outstanding_of_finished reachable (by rw [returning]; exact List.mem_cons_self)
  obtain ⟨noFrame, notQueued, _⟩ := settled_of_outstanding earlier none
  obtain ⟨lost, dropped⟩ := nothing_refused succeeds reachable
  refine ⟨?_, ?_, ?_⟩
  · intro part own created
    -- the account of this one part
    have account := accounted (fun work => work == .part part) earlier
    have once : state.shared.created.count (.part part) = 1 :=
      List.count_eq_one_of_mem (created_nodup earlier) created
    have ofCall : forall work : Work, (work == .part part) = true -> work.ofCall call = true := by
      intro work same
      rw [eq_of_beq same]
      exact beq_iff_eq.mpr own
    have carried := total_le_total state (Frame.carries_le ofCall)
    have queued := List.countP_mono_left (l := state.shared.queue.map Entry.work) (fun work _ => ofCall work)
    obtain ⟨creation, invocation, completion⟩ := account
    simp only [Stacked.Balanced, Shared.placed, lost, dropped, List.countP_nil] at creation invocation completion
    rw [total_carries] at carried
    unfold List.count at once ⊢
    omega
  · intro entry member
    have unqueued := List.countP_eq_zero.mp notQueued entry.work (List.mem_map_of_mem member)
    exact Bool.eq_false_iff.mpr unqueued
  · intro other host work phase member
    have nothing := (total_eq_zero_iff _ state).mp noFrame other _ member
    cases phase <;> simpa [Frame.carries] using nothing

end Runs

/-! ## A short run -/

private theorem spreadWork_pair : spreadWork ⟨smallProgram.workerThreads (), 0,
    BitVec.ofNat 8 stealingDivisionMin, false, smallProgram.singleCorePlatform⟩ 2 1 =
      some (.toWorkers 1 1 [⟨0, [⟨1, 2⟩]⟩], true) :=
  @of_decide_eq_true _ (Machine.instDecidableEqChecked _ _) (by decide +kernel)

/-- A call for two iterations.  The worker executes the slice that is queued for
it, at first by itself, and the caller executes its own chunk and joins. -/
theorem pair_run : Exists fun running => Exists fun joined =>
    (boundedShopSystem (smallPool Unit)).Reachable running ∧
      running.callStack none = [.executing (.worker () 0 true) (.part ⟨0, 0, ⟨1, 2⟩⟩) .running] ∧
    (boundedShopSystem (smallPool Unit)).Reachable joined ∧
      joined.callStack none = [.worker () 0 .drainOwn] ∧
      joined.callStack (some ()) = [.spread () 0 ⟨2, 1, 1, false, false, true⟩ .finished, .outside] ∧
      joined.shared.created = [.part ⟨0, 0, ⟨1, 2⟩⟩, .part ⟨1, 0, ⟨0, 1⟩⟩] ∧
      joined.shared.retired = joined.shared.created ∧ joined.shared.nextCall = 1 := by
  have start : (shopSystem (smallPool Unit)).Reachable ⟨Shared.fresh, (smallPool Unit).initialStack⟩ :=
    .initial rfl
  have called := advance start (some ()) rfl (.call (.spread .outside () 2 1 rfl (Or.inl rfl)))
  have loaded := advance called (some ()) rfl (.spread (.loadItems () 0 _))
  have planned := advance loaded (some ()) rfl (.spread (.plan () 0 _ _ _ _ spreadWork_pair))
  have slice := advance planned (some ()) rfl (.spread (.registerSlice () 0 _ _ _ _ _ _ _))
  have announced := advance slice (some ()) rfl (.spread (.countSlice () 0 _ _ _ _ _ _))
  have queued := advance announced (some ()) rfl (.spread (.enqueueSlices () 0 _ _ _ _ _))
  -- the worker has not gone to sleep, and finds the slice
  have taken := advance queued none rfl (.worker (.takeOwn () 0 [] _ [] rfl rfl rfl))
  have runs := advance taken none rfl (.execution (.invoke _ _))
  have notified := advance runs (some ()) rfl (.spread (.notifyRoot () 0 _ _ _))
  have registered := advance notified (some ()) rfl (.spread (.callerRegister () 0 _))
  have counted := advance registered (some ()) rfl (.spread (.callerCount () 0 _ _))
  have invoked := advance counted (some ()) rfl (.execution (.invoke _ _))
  have ran := advance invoked none rfl (.execution (.finish _ _))
  have left := advance ran none rfl (.execution (.arrive _ _))
  have completed := advance left none rfl (.worker (.complete () 0 _))
  have finished := advance completed (some ()) rfl (.execution (.finish _ _))
  have arrived := advance finished (some ()) rfl (.execution (.arrive _ _))
  have own := advance arrived (some ()) rfl (.spread (.callerComplete () 0 _))
  have unstolen := advance own (some ()) rfl (.spread (.stealSkip () 0 _))
  have joined := advance unstolen (some ()) rfl (.spread (.joined () 0 _ rfl))
  exact ⟨_, _, boundedShopSystem_of_few runs (by decide), rfl, boundedShopSystem_of_few joined (by decide), rfl, rfl, rfl,
    rfl, rfl⟩

/-- Both parts have been executed when the call is about to return. -/
theorem join_completeness_pair :
    Exists fun state => (boundedShopSystem (smallPool Unit)).Reachable state ∧
      state.shared.created = [.part ⟨0, 0, ⟨1, 2⟩⟩, .part ⟨1, 0, ⟨0, 1⟩⟩] ∧
      state.shared.finished.count (.part ⟨0, 0, ⟨1, 2⟩⟩) = 1 ∧ state.shared.finished.count (.part ⟨1, 0, ⟨0, 1⟩⟩) = 1 := by
  obtain ⟨_, state, _, _, reachable, _, returning, created, _⟩ := pair_run
  have complete := join_completeness rfl reachable (some ()) () 0 _ _ returning
  refine ⟨state, reachable, created, ?_, ?_⟩
  · exact (complete.1 ⟨0, 0, ⟨1, 2⟩⟩ rfl (by rw [created]; decide)).2.1
  · exact (complete.1 ⟨1, 0, ⟨0, 1⟩⟩ rfl (by rw [created]; decide)).2.1

end Shop
end Sweater
