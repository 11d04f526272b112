import Sweater.Shop.OrderlyRuns

namespace Sweater
namespace Shop

open Threading
open Spread
open Interleaving
open Interleaving.Stacked

/-!
# Small runs of a single shop

What a concrete run of a few steps has to show in order to be an orderly run
that stays within the range of the counters.  What is outstanding has been
created or announced, and a step of a modest run creates or announces one work
at most.
-/

variable {Thread : Type} {program : Program Unit}

/-! ## Counting what is outstanding -/

/-- The parts that a bulk has announced and not yet created. -/
def Frame.bulk {bits : Nat} : Frame Unit bits -> Nat
  | .spread _ _ _ (.initializeBarrier chunks) => chunks.length
  | _ => 0

/-- One for a work that has been retired and not yet reported as completed. -/
def Frame.completing {bits : Nat} : Frame Unit bits -> Nat
  | .worker _ _ (.completing _) => 1
  | .spread _ _ _ .callerCompleting => 1
  | .spread _ _ _ .stealCompleting => 1
  | _ => 0

/-- A frame owes what it carries, what it has announced and what it completes. -/
theorem owes_le {bits : Nat} (frame : Frame Unit bits) :
    frame.owes () ≤ frame.completing + frame.carries (fun _ => true) + frame.bulk := by
  cases frame with
  | outside | stop | fire => exact Nat.zero_le _
  | worker shop index point => cases point <;> exact Nat.le_refl _
  | executing host work phase => cases phase <;> exact Nat.le_refl _
  | spread shop call locals point =>
      rw [Frame.carries, Frame.pending_spread, Frame.executes_spread, Frame.executes_spread, List.countP_true,
        List.length_map]
      cases point with
      | countSlice worker first registered slices rest =>
          exact Nat.le_trans (Nat.sub_le _ _) (Nat.le_of_eq (Nat.zero_add _).symm)
      | registerSlice | enqueueParts | resetBarrier => exact Nat.le_of_eq (Nat.zero_add _).symm
      | initializeBarrier chunks => exact Nat.le_of_eq (Nat.zero_add _).symm
      | callerCompleting | stealCompleting => exact Nat.le_refl _
      | _ => exact Nat.zero_le _

@[simp] theorem completing_resume {bits : Nat} (host : Host Unit) : (host.resume : Frame Unit bits).completing = 1 := by
  cases host <;> rfl

theorem completing_spread {bits : Nat} {point : SpreadPoint bits} (none : point.announced = 0) (call : Nat)
    (locals : SpreadLocals) : (Frame.spread () call locals point).completing = 0 := by
  cases point <;> first | rfl | cases none

section Steps

variable {pool : Pool program Thread} {callStack : Thread -> List (Frame Unit program.bits)}
  {thread : Thread} {shared shared' : Shared program} {frame : Frame Unit program.bits}
  {frames : List (Frame Unit program.bits)}

theorem SpreadStep.completing {recursive : Bool} (move : SpreadStep program recursive shared frame shared' frames) :
    shared.retired.length + weigh Frame.completing frames ≤ shared'.retired.length + frame.completing := by
  cases move with
  | plan | notifyRoot | notifiedAll | initializeEmpty | resetBarrier | stealSkip | stealEmpty =>
      rw [weigh_cons, completing_spread (by simp)]
      exact Nat.le_add_right _ _
  | enqueueSlices | refuseSlices =>
      rw [weigh_cons, completing_spread (SpreadPoint.announced_dispatched _ _ _ _)]
      exact Nat.le_add_right _ _
  | callerComplete shop call locals => cases locals.immediate <;> exact Nat.le_succ _
  | spinOver shop call locals isStalled => cases isStalled <;> exact Nat.le_refl _
  | stealComplete => exact Nat.le_succ _
  | _ => exact Nat.le_refl _

/-- A work is completed after it has been retired. -/
theorem ShopStep.completing (move : ShopStep pool callStack thread shared frame shared' frames) :
    shared.retired.length + weigh Frame.completing frames ≤ shared'.retired.length + frame.completing := by
  cases move with
  | worker move =>
      cases move with
      | complete shop index own => cases own <;> exact Nat.le_succ _
      | _ => exact Nat.le_refl _
  | execution move =>
      cases move with
      | arrive host | discount host =>
          rw [weigh_cons, completing_resume, List.length_append]
          exact Nat.le_refl _
      | _ => exact Nat.le_refl _
  | fire move => cases move <;> exact Nat.le_refl _
  | spread move => exact move.completing
  | stop move => cases move <;> exact Nat.le_refl _
  | call move =>
      cases move with
      | spread frame shop iterations =>
          rw [weigh_cons, completing_spread (by split <;> rfl), weigh_cons, weigh_nil, Nat.zero_add, Nat.add_zero]
          exact Nat.le_refl _
      | fire | stop =>
          rw [weigh_cons, weigh_cons, weigh_nil, Nat.add_zero]
          exact Nat.le_of_eq (congrArg _ (Nat.zero_add _))
      | _ => exact Nat.le_refl _

end Steps

variable [DecidableEq Thread] [Fintype Thread] {pool : Pool program Thread}
  {state : Stacked Thread (Frame Unit program.bits) (Shared program)}

/-! ## What a step of an orderly run has to respect -/

omit [Fintype Thread] in
/-- A step is orderly if it stops no shop, loses no slice, and does not go on to
join with works in the queue. -/
theorem Orderly.of_move {thread : Thread} {frame : Frame Unit program.bits}
    {rest frames : List (Frame Unit program.bits)} {shared : Shared program}
    (place : state.callStack thread = frame :: rest) (running : shared.stopping = state.shared.stopping)
    (queued : shared.lost = state.shared.lost)
    (emptiness : forall call locals, frame = .spread () call locals .testQueue ->
      frames ≠ [.spread () call locals .join]) :
    Orderly state (state.replaceTop thread shared (frames ++ rest)) where
  running := running
  queued := queued
  emptiness := by
    intro other shop call locals lower before after
    exfalso
    by_cases same : other = thread
    · subst same
      rw [callStack_replaceTop] at after
      rw [place] at before
      cases before
      exact emptiness call locals rfl (List.append_cancel_right (after : frames ++ rest = [_] ++ rest))
    · rw [callStack_replaceTop_of_ne state same, before] at after
      cases after

omit [Fintype Thread] in
theorem Detects.of_move {thread : Thread} {frame : Frame Unit program.bits}
    {rest frames : List (Frame Unit program.bits)} {shared : Shared program}
    (place : state.callStack thread = frame :: rest)
    (detection : forall call locals, frame = .spread () call locals .loadItems -> pool.Serves thread () ->
      state.shared.workItems () ≠ 0) :
    Detects pool state (state.replaceTop thread shared (frames ++ rest)) := by
  intro other shop call locals lower serves before changed
  by_cases same : other = thread
  · subst same
    rw [place] at before
    cases before
    exact detection call locals rfl serves
  · exact absurd (callStack_replaceTop_of_ne state same shared (frames ++ rest)) changed

theorem completing_le_retired (reachable : (shopSystem pool).Reachable state) :
    AtMost Frame.completing (fun shared => shared.retired.length) (fun _ => 0) state := by
  apply reachable.invariant
  · rintro state rfl
    rw [AtMost, initial_total_eq_zero pool _ _ rfl (fun _ _ => rfl)]
    exact Nat.zero_le _
  · intro before after _ earlier move
    exact earlier.step move (fun _ _ _ _ localStep => localStep.completing)

/-- What is outstanding has been created or announced. -/
theorem outstandingWorks_le (reachable : (shopSystem pool).Reachable state) :
    outstandingWorks () state + state.shared.refused ≤ state.shared.created.length + state.total Frame.bulk := by
  have owed := total_le_total state owes_le
  rw [total_add, total_add] at owed
  have completed := completing_le_retired reachable
  have carried := (accounted (fun _ => true) reachable).carried
  simp only [List.countP_true, List.length_map] at carried
  have queued : state.shared.queued () ≤ state.shared.queue.length := List.countP_le_length
  have refused : state.shared.refused ≤ state.shared.dropped.length := List.countP_le_length
  rw [AtMost] at completed
  rw [outstandingWorks]
  omega

/-! ## Runs of few steps -/

/-- The division that a call performs is defined. -/
def Frame.divisible {bits : Nat} : Frame Unit bits -> Bool
  | .spread _ _ locals _ => locals.parallelizable != 0
  | _ => true

theorem sized_of_few (reachable : (shopSystem pool).Reachable state)
    (few : state.shared.created.length + state.total Frame.bulk < 2 ^ program.bits)
    (divisible : forall thread frame, frame ∈ state.callStack thread -> frame.divisible = true) : Sized state where
  barriers := by
    intro call
    have counted := List.countP_le_length (p := Work.ofCall call) (l := state.shared.created)
    unfold Shared.outstanding Shared.made
    omega
  items := fun _ => Nat.lt_of_le_of_lt (outstandingWorks_le reachable) few
  divisible := fun thread _ call locals point member => bne_iff_ne.mp (divisible thread _ member)

/-- A run of few steps, each of which creates or announces one work at most. -/
structure Modest (admitted : Stacked Thread (Frame Unit program.bits) (Shared program) ->
      Stacked Thread (Frame Unit program.bits) (Shared program) -> Prop)
    (pool : Pool program Thread) (steps : Nat)
    (state : Stacked Thread (Frame Unit program.bits) (Shared program)) : Prop where
  reachable : (((shopSystem pool).stepsWhere admitted).within Sized).Reachable state
  few : state.shared.created.length + state.total Frame.bulk ≤ steps
  divisible : forall thread frame, frame ∈ state.callStack thread -> frame.divisible = true

variable {admitted : Stacked Thread (Frame Unit program.bits) (Shared program) ->
  Stacked Thread (Frame Unit program.bits) (Shared program) -> Prop}

theorem modest_initial : Modest admitted pool 0 ⟨Shared.fresh, pool.initialStack⟩ := by
  have bulk := initial_total_eq_zero pool Shared.fresh Frame.bulk rfl (fun _ _ => rfl)
  have divisible : forall thread frame, frame ∈ pool.initialStack thread -> frame.divisible = true := by
    intro thread frame member
    rcases mem_initialStack member with rfl | ⟨shop, index, _, rfl⟩ <;> rfl
  have none : (Shared.fresh : Shared program).created.length +
      (Stacked.mk (Shared.fresh : Shared program) pool.initialStack).total Frame.bulk = 0 := by
    rw [bulk]
    rfl
  refine ⟨.initial ⟨rfl, ?_⟩, Nat.le_of_eq none, divisible⟩
  exact sized_of_few (.initial rfl) (by rw [none]; exact Nat.two_pow_pos _) divisible

/-- What a modest run asks of a step, as far as it can be computed. -/
def tidy (steps : Nat) (shared : Shared program) (frame : Frame Unit program.bits) (shared' : Shared program)
    (frames : List (Frame Unit program.bits)) : Bool :=
  decide (shared'.created.length + weigh Frame.bulk frames ≤ shared.created.length + frame.bulk + 1) &&
    frames.all Frame.divisible && decide (steps + 1 < 2 ^ program.bits)

/-- A step stops no shop and loses no slice. -/
def calm (shared shared' : Shared program) : Bool :=
  shared'.stopping () == shared.stopping () && decide (shared'.lost = shared.lost)

omit [DecidableEq Thread] [Fintype Thread] in
theorem calm_iff {shared shared' : Shared program} :
    calm shared shared' = true ↔ shared'.stopping = shared.stopping ∧ shared'.lost = shared.lost := by
  rw [calm, Bool.and_eq_true, beq_iff_eq, decide_eq_true_iff]
  exact ⟨fun ⟨running, queued⟩ => ⟨funext (fun _ => running), queued⟩,
    fun ⟨running, queued⟩ => ⟨congrFun running (), queued⟩⟩

/-- A modest run goes on by a step of the top frame of some thread. -/
theorem Modest.advance {steps : Nat} (modest : Modest admitted pool steps state) (thread : Thread)
    {frame : Frame Unit program.bits} {rest frames : List (Frame Unit program.bits)} {shared : Shared program}
    (place : state.callStack thread = frame :: rest)
    (move : ShopStep pool state.callStack thread state.shared frame shared frames)
    (seen : tidy steps state.shared frame shared frames = true)
    (permitted : admitted state (state.replaceTop thread shared (frames ++ rest))) :
    Modest admitted pool (steps + 1) (state.replaceTop thread shared (frames ++ rest)) := by
  simp only [tidy, Bool.and_eq_true, decide_eq_true_iff] at seen
  rcases seen with ⟨⟨growth, divisible⟩, room⟩
  have few : shared.created.length + (state.replaceTop thread shared (frames ++ rest)).total Frame.bulk ≤ steps + 1 := by
    have moved := total_replaceTop Frame.bulk state place shared frames
    have before := modest.few
    omega
  have kept : forall other next, next ∈ (state.replaceTop thread shared (frames ++ rest)).callStack other ->
      next.divisible = true := by
    intro other next member
    rcases mem_replaceTop place member with ⟨_, fresh⟩ | elsewhere
    · exact List.all_eq_true.mp divisible next fresh
    · exact modest.divisible other next (mem_of_elsewhere place elsewhere)
  have step : (shopSystem pool).step state (state.replaceTop thread shared (frames ++ rest)) :=
    .top thread frame rest shared frames place move
  refine ⟨.step modest.reachable ⟨⟨step, permitted⟩, ?_⟩, few, kept⟩
  exact sized_of_few (.step modest.reachable.of_within.of_stepsWhere step) (Nat.lt_of_le_of_lt few room) kept

/-- A step of a modest run that does not go on to join is orderly. -/
theorem Modest.orderly {steps : Nat} (modest : Modest Orderly pool steps state) (thread : Thread)
    {frame : Frame Unit program.bits} {rest frames : List (Frame Unit program.bits)} {shared : Shared program}
    (place : state.callStack thread = frame :: rest)
    (move : ShopStep pool state.callStack thread state.shared frame shared frames)
    (emptiness : forall call locals, frame = .spread () call locals .testQueue ->
      frames ≠ [.spread () call locals .join])
    (seen : (tidy steps state.shared frame shared frames && calm state.shared shared) = true) :
    Modest Orderly pool (steps + 1) (state.replaceTop thread shared (frames ++ rest)) := by
  rw [Bool.and_eq_true, calm_iff] at seen
  exact modest.advance thread place move seen.1 (.of_move place seen.2.1 seen.2.2 emptiness)

theorem Modest.detecting {steps : Nat}
    (modest : Modest (fun before after => Orderly before after ∧ Detects pool before after) pool steps state)
    (thread : Thread) {frame : Frame Unit program.bits} {rest frames : List (Frame Unit program.bits)}
    {shared : Shared program} (place : state.callStack thread = frame :: rest)
    (move : ShopStep pool state.callStack thread state.shared frame shared frames)
    (emptiness : forall call locals, frame = .spread () call locals .testQueue ->
      frames ≠ [.spread () call locals .join])
    (detection : forall call locals, frame = .spread () call locals .loadItems -> pool.Serves thread () ->
      state.shared.workItems () ≠ 0)
    (seen : (tidy steps state.shared frame shared frames && calm state.shared shared) = true) :
    Modest (fun before after => Orderly before after ∧ Detects pool before after) pool (steps + 1)
      (state.replaceTop thread shared (frames ++ rest)) := by
  rw [Bool.and_eq_true, calm_iff] at seen
  exact modest.advance thread place move seen.1
    ⟨.of_move place seen.2.1 seen.2.2 emptiness, .of_move place detection⟩

/-! ## Plans of concrete calls -/

/-- What `spread_work` plans depends on what it finds. -/
theorem planned_of {workers items workers' items' : BitVec 16} {division division' : BitVec 8}
    {recursive recursive' single single' : Bool} {iterations parallelizable : BitVec 32} {plan : Plan 16 × Bool}
    (planned : spreadWork ⟨workers', items', division', recursive', single'⟩ iterations parallelizable = some plan)
    (sameItems : items = items') (sameDivision : division = division') (sameRecursive : recursive = recursive')
    (sameWorkers : workers = workers') (sameSingle : single = single') :
    spreadWork ⟨workers, items, division, recursive, single⟩ iterations parallelizable = some plan := by
  rw [sameItems, sameDivision, sameRecursive, sameWorkers, sameSingle]
  exact planned

/-- With two items in the shop its only worker is not free, and the part is left
to the queue. -/
theorem plan_bulk : spreadWork (⟨1, 2, 4, false, true⟩ : Situation 16) 1 1 =
      some (.toQueue true 0 [⟨0, 1⟩], true) :=
  @of_decide_eq_true _ (Machine.instDecidableEqChecked _ _) (by decide +kernel)

end Shop
end Sweater
