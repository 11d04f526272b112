import Sweater.Shop.Steps

namespace Sweater
namespace Shop

open Threading
open Spread
open Interleaving
open Interleaving.Stacked

/-!
# An account of all works

Every work that has been created is held by the frame that created it, queued,
fetched, inside its functor, leaving it, or retired; or the queue has refused
it.  The account is kept for an arbitrary selection of works, so that it can be
read for one work, for the parts of one call and for all items.

What a single step does to the account is `Account`.  It is proved once for
each procedure, and the balances of whole states follow from it.
-/

variable {Shop Thread : Type} {program : Program Shop}

/-- The parts that a call has created and not yet offered to the queue. -/
def SpreadPoint.parts {bits : Nat} : SpreadPoint bits -> List Part
  | .registerSlice _ _ registered _ _ => registered
  | .countSlice _ _ registered _ _ => registered
  | .enqueueParts parts => parts
  | .resetBarrier parts => parts
  | .callerCount part => [part]
  | _ => []

/-- Before the item has been offered to the queue. -/
def FirePoint.holding : FirePoint -> Bool
  | .loadRotor => true
  | .testBacklog _ => true
  | .advanceRotor => true
  | .enqueue _ => true
  | _ => false

@[simp] theorem FirePoint.holding_loadRotor : loadRotor.holding = true := rfl

@[simp] theorem FirePoint.holding_enqueue (target : Nat) : (enqueue target).holding = true := rfl

@[simp] theorem FirePoint.holding_notify (target : Nat) (enqueueSucceeded : Bool) :
    (notify target enqueueSucceeded).holding = false := rfl

@[simp] theorem FirePoint.holding_finished (enqueueSucceeded : Bool) :
    (finished enqueueSucceeded).holding = false := rfl

namespace Frame

variable {bits : Nat}

/-- The works that a frame has created and not yet offered to the queue. -/
def held : Frame Shop bits -> List Work
  | fire _ serial point => if point.holding then [.item serial] else []
  | spread _ _ _ point => point.parts.map .part
  | _ => []

/-- The work that a frame executes, if it is in the given phase. -/
def inPhase (phase : Phase) : Frame Shop bits -> List Work
  | executing _ work current => if current = phase then [work] else []
  | _ => []

/-- How many selected works a frame keeps from being invoked. -/
def pending (selected : Work -> Bool) (frame : Frame Shop bits) : Nat :=
  frame.held.countP selected + (frame.inPhase .fetched).countP selected

/-- How many selected works a frame executes in the given phase. -/
def executes (selected : Work -> Bool) (phase : Phase) (frame : Frame Shop bits) : Nat :=
  (frame.inPhase phase).countP selected

section Weights

variable (selected : Work -> Bool) (phase : Phase) (shop : Shop)

@[simp] theorem pending_outside : (outside : Frame Shop bits).pending selected = 0 := rfl

@[simp] theorem pending_worker (index : Nat) (point : WorkerPoint) :
    (worker shop index point : Frame Shop bits).pending selected = 0 := rfl

@[simp] theorem pending_stop (accepted : List Nat) (point : StopPoint) :
    (stop shop accepted point : Frame Shop bits).pending selected = 0 := rfl

@[simp] theorem pending_fire (serial : Nat) (point : FirePoint) :
    (fire shop serial point : Frame Shop bits).pending selected =
      if point.holding && selected (.item serial) then 1 else 0 := by
  cases holding : point.holding <;> simp [pending, held, inPhase, holding]

@[simp] theorem pending_spread (call : Nat) (locals : SpreadLocals) (point : SpreadPoint bits) :
    (spread shop call locals point).pending selected = (point.parts.map .part).countP selected := rfl

@[simp] theorem pending_executing (host : Host Shop) (work : Work) (current : Phase) :
    (executing host work current : Frame Shop bits).pending selected =
      if current = .fetched then [work].countP selected else 0 := by
  cases current <;> simp [pending, held, inPhase]

@[simp] theorem executes_outside : (outside : Frame Shop bits).executes selected phase = 0 := rfl

@[simp] theorem executes_worker (index : Nat) (point : WorkerPoint) :
    (worker shop index point : Frame Shop bits).executes selected phase = 0 := rfl

@[simp] theorem executes_stop (accepted : List Nat) (point : StopPoint) :
    (stop shop accepted point : Frame Shop bits).executes selected phase = 0 := rfl

@[simp] theorem executes_fire (serial : Nat) (point : FirePoint) :
    (fire shop serial point : Frame Shop bits).executes selected phase = 0 := rfl

@[simp] theorem executes_spread (call : Nat) (locals : SpreadLocals) (point : SpreadPoint bits) :
    (spread shop call locals point).executes selected phase = 0 := rfl

@[simp] theorem executes_executing (host : Host Shop) (work : Work) (current : Phase) :
    (executing host work current : Frame Shop bits).executes selected phase =
      if current = phase then [work].countP selected else 0 := by
  by_cases same : current = phase <;> simp [executes, inPhase, same]

@[simp] theorem pending_resume (host : Host Shop) :
    (host.resume : Frame Shop bits).pending selected = 0 := by
  cases host <;> rfl

@[simp] theorem executes_resume (host : Host Shop) :
    (host.resume : Frame Shop bits).executes selected phase = 0 := by
  cases host <;> rfl

end Weights

end Frame

open Shop.Frame

namespace SpreadPoint

variable (locals : SpreadLocals)

@[simp] theorem parts_toCaller : (toCaller locals : SpreadPoint program.bits).parts = [] := by
  unfold toCaller
  split <;> rfl

@[simp] theorem parts_toJoin : (toJoin locals : SpreadPoint program.bits).parts = [] := by
  unfold toJoin
  split <;> rfl

@[simp] theorem parts_nextDispatch (first : Bool) (rest : List (Dispatch program.bits)) :
    (nextDispatch locals first rest).parts = [] := by
  cases rest with
  | nil => exact parts_toCaller locals
  | cons dispatch rest => rfl

@[simp] theorem parts_enqueued (worker : Nat) (first : Bool) (rest : List (Dispatch program.bits)) :
    (if first then notifyRoot worker rest else nextDispatch locals false rest).parts = [] := by
  cases first with
  | true => rfl
  | false => exact parts_nextDispatch locals false rest

@[simp] theorem parts_startPlan (plan : Plan program.bits) :
    (startPlan program locals plan).2.parts = [] := by
  cases plan with
  | nothing => rfl
  | inCaller iterations => rfl
  | toWorkers callerEnd sliceDiv dispatches => exact parts_nextDispatch _ true dispatches
  | toQueue queueAndWait callerEnd chunks =>
      simp only [startPlan]
      split <;> rfl

end SpreadPoint

/-! ## One step -/

/-- How many selected works are queued, have been invoked, or were refused. -/
def Shared.placed (selected : Work -> Bool) (shared : Shared program) : Nat :=
  (shared.queue.map Entry.work).countP selected + shared.invoked.countP selected +
    shared.lost.countP selected + shared.dropped.countP selected

/-- What a step takes away in one place it adds in another. -/
structure Account (selected : Work -> Bool) (shared : Shared program) (frame : Frame Shop program.bits)
    (shared' : Shared program) (frames : List (Frame Shop program.bits)) : Prop where
  creation : shared'.created.countP selected + frame.pending selected + shared.placed selected =
    shared.created.countP selected + weigh (pending selected) frames + shared'.placed selected
  invocation :
    shared'.invoked.countP selected + frame.executes selected .running + shared.finished.countP selected =
      shared.invoked.countP selected + weigh (executes selected .running) frames +
        shared'.finished.countP selected
  completion :
    shared'.finished.countP selected + frame.executes selected .leaving + shared.retired.countP selected =
      shared.finished.countP selected + weigh (executes selected .leaving) frames +
        shared'.retired.countP selected

variable {selected : Work -> Bool} {shared shared' : Shared program} {frame : Frame Shop program.bits}
  {frames : List (Frame Shop program.bits)}

/-- A step that only changes what the account does not mention. -/
theorem Account.silent (created : shared'.created = shared.created) (placed : shared'.placed selected = shared.placed selected)
    (invoked : shared'.invoked = shared.invoked) (finished : shared'.finished = shared.finished)
    (retired : shared'.retired = shared.retired)
    (pendingSame : weigh (pending selected) frames = frame.pending selected)
    (runningSame : weigh (executes selected .running) frames = frame.executes selected .running)
    (leavingSame : weigh (executes selected .leaving) frames = frame.executes selected .leaving) :
    Account selected shared frame shared' frames where
  creation := by rw [created, placed, pendingSame]
  invocation := by rw [invoked, finished, runningSame]
  completion := by rw [finished, retired, leavingSame]

theorem StopStep.account [DecidableEq Shop] (move : StopStep program shared frame shared' frames) :
    Account selected shared frame shared' frames := by
  cases move <;> exact .silent rfl rfl rfl rfl rfl rfl rfl rfl

/-- A call that has no parts in its hands, before the step and after it. -/
theorem Account.emptyHanded {shop : Shop} {call : Nat} {locals locals' : SpreadLocals}
    {point point' : SpreadPoint program.bits} (created : shared'.created = shared.created)
    (placed : shared'.placed selected = shared.placed selected) (invoked : shared'.invoked = shared.invoked)
    (finished : shared'.finished = shared.finished) (retired : shared'.retired = shared.retired)
    (same : point'.parts = point.parts) :
    Account selected shared (.spread shop call locals point) shared' [.spread shop call locals' point'] :=
  .silent created placed invoked finished retired (by simp only [weigh_cons, pending_spread, same, weigh_nil, Nat.add_zero]) rfl rfl

theorem ExecutionStep.account (move : ExecutionStep program shared frame shared' frames) :
    Account selected shared frame shared' frames := by
  cases move with
  | invoke host work | finish host work =>
      constructor <;> simp [Shared.placed]
      omega
  | arrive host part | discount host serial =>
      constructor <;> simp [Shared.placed, Shared.onBarrier]
      omega

variable [DecidableEq Shop]

theorem WorkerStep.account (move : WorkerStep program shared frame shared' frames) :
    Account selected shared frame shared' frames := by
  cases move with
  | takeOwn shop index front entry back place _ _ | takeAny shop index front entry back place _ =>
      constructor <;> simp [Shared.placed, place, List.countP_cons]
      omega
  | _ => exact .silent rfl rfl rfl rfl rfl rfl rfl rfl

theorem FireStep.account (move : FireStep program shared frame shared' frames) :
    Account selected shared frame shared' frames := by
  cases move with
  | enqueue shop serial target =>
      constructor
      · simp [Shared.placed, List.countP_cons]
        omega
      · simp
      · simp
  | refuse shop serial target =>
      constructor
      · simp [Shared.placed, List.countP_cons]
        omega
      · simp
      · simp
  | addItem shop serial enqueueSucceeded =>
      cases enqueueSucceeded <;> exact .silent rfl rfl rfl rfl rfl rfl rfl rfl
  | _ => exact .silent rfl rfl rfl rfl rfl rfl rfl rfl

theorem SpreadStep.account {recursive : Bool}
    (move : SpreadStep program recursive shared frame shared' frames) :
    Account selected shared frame shared' frames := by
  cases move with
  | registerSlice =>
      constructor <;> simp [Shared.placed, Shared.onBarrier, SpreadPoint.parts]
      omega
  | callerRegister =>
      constructor <;> simp [Shared.placed, Shared.onBarrier, SpreadPoint.parts]
  | enqueueSlices shop call locals worker first registered rest
  | refuseSlices shop call locals worker first registered rest =>
      constructor <;> simp [Shared.placed, Function.comp_def]
      simp [SpreadPoint.parts]
      omega
  | initializeBarrier =>
      constructor <;> simp [Shared.placed, Shared.onBarrier, SpreadPoint.parts]
  | enqueueParts =>
      constructor <;> simp [Shared.placed, SpreadPoint.parts, Function.comp_def]
      omega
  | resetBarrier =>
      constructor <;> simp [Shared.placed, Shared.onBarrier]
      simp [SpreadPoint.parts]
      omega
  | callerCount =>
      constructor <;> simp [Shared.placed, Shared.addItems, SpreadPoint.parts]
  | steal shop call locals front entry back place _ =>
      constructor <;> simp [Shared.placed, SpreadPoint.parts, place, List.countP_cons]
      omega
  | notifyRoot => exact .emptyHanded rfl rfl rfl rfl rfl (SpreadPoint.parts_nextDispatch _ _ _)
  | notifiedAll | initializeEmpty => exact .emptyHanded rfl rfl rfl rfl rfl (SpreadPoint.parts_toCaller _)
  | plan => exact .emptyHanded rfl rfl rfl rfl rfl (SpreadPoint.parts_startPlan _ _)
  | stealSkip | stealEmpty => exact .emptyHanded rfl rfl rfl rfl rfl (SpreadPoint.parts_toJoin _)
  | callerComplete shop call locals =>
      exact .emptyHanded rfl rfl rfl rfl rfl (by cases locals.immediate <;> rfl)
  | spinOver shop call locals isStalled =>
      exact .emptyHanded rfl rfl rfl rfl rfl (by cases isStalled <;> rfl)
  | _ => exact .emptyHanded rfl rfl rfl rfl rfl rfl

variable {pool : Pool program Thread} {callStack : Thread -> List (Frame Shop program.bits)}
  {thread : Thread}

theorem CallStep.account (move : CallStep pool callStack thread shared frame shared' frames) :
    Account selected shared frame shared' frames := by
  cases move with
  | fire frame shop =>
      constructor <;> simp [Shared.placed, List.countP_cons]
      omega
  | spread frame shop iterations parallelizable =>
      constructor <;> simp [Shared.placed, Shared.onBarrier]
      split <;> simp [SpreadPoint.parts]
  | fired | spreadReturn | stop | stopped =>
      constructor <;> simp [Shared.placed, SpreadPoint.parts]

/-- Every step keeps the account of any selection of works. -/
theorem ShopStep.account (move : ShopStep pool callStack thread shared frame shared' frames) :
    Account selected shared frame shared' frames := by
  cases move with
  | worker move => exact move.account
  | execution move => exact move.account
  | fire move => exact move.account
  | spread move => exact move.account
  | stop move => exact move.account
  | call move => exact move.account

/-! ## Whole states -/

/-- The works that a frame keeps from being retired. -/
def Frame.carries {bits : Nat} (selected : Work -> Bool) (frame : Frame Shop bits) : Nat :=
  frame.pending selected + frame.executes selected .running + frame.executes selected .leaving

omit [DecidableEq Shop] in
theorem Frame.carries_le {bits : Nat} {selected selected' : Work -> Bool}
    (fewer : forall work, selected work = true -> selected' work = true) (frame : Frame Shop bits) :
    frame.carries selected ≤ frame.carries selected' := by
  have each : forall works : List Work, works.countP selected ≤ works.countP selected' :=
    fun works => List.countP_mono_left (fun work _ => fewer work)
  exact Nat.add_le_add (Nat.add_le_add (Nat.add_le_add (each _) (each _)) (each _)) (each _)

section Accounts

variable [Fintype Thread]

/-- The account of a selection of works, over all threads. -/
structure Accounted (selected : Work -> Bool)
    (state : Stacked Thread (Frame Shop program.bits) (Shared program)) : Prop where
  creation : Stacked.Balanced (pending selected) (fun shared => shared.created.countP selected)
    (Shared.placed selected) state
  invocation : Stacked.Balanced (executes selected .running) (fun shared => shared.invoked.countP selected)
    (fun shared => shared.finished.countP selected) state
  completion : Stacked.Balanced (executes selected .leaving) (fun shared => shared.finished.countP selected)
    (fun shared => shared.retired.countP selected) state

omit [DecidableEq Shop] in
theorem total_carries (selected : Work -> Bool)
    (state : Stacked Thread (Frame Shop program.bits) (Shared program)) :
    state.total (Frame.carries selected) =
      state.total (Frame.pending selected) + state.total (Frame.executes selected .running) +
        state.total (Frame.executes selected .leaving) := by
  rw [← total_add, ← total_add]
  rfl

omit [DecidableEq Shop] in
/-- The whole account in one equation. -/
theorem Accounted.carried {selected : Work -> Bool}
    {state : Stacked Thread (Frame Shop program.bits) (Shared program)} (account : Accounted selected state) :
    state.shared.created.countP selected =
      state.total (Frame.carries selected) + (state.shared.queue.map Entry.work).countP selected +
        state.shared.retired.countP selected + state.shared.lost.countP selected +
        state.shared.dropped.countP selected := by
  have creation := account.creation
  have invocation := account.invocation
  have completion := account.completion
  have split := total_carries selected state
  simp only [Stacked.Balanced, Shared.placed] at creation invocation completion
  omega

omit [DecidableEq Shop] [Fintype Thread] in
theorem mem_initialStack {thread : Thread} {frame : Frame Shop program.bits}
    (member : frame ∈ pool.initialStack thread) : frame = .outside ∨
      Exists fun shop => Exists fun index =>
        pool.role thread = some (shop, index) ∧ frame = .worker shop index .drainOwn := by
  simp only [Pool.initialStack] at member
  cases role : pool.role thread with
  | none =>
      simp only [role, List.mem_singleton] at member
      exact Or.inl member
  | some worker =>
      simp only [role, List.mem_singleton] at member
      exact Or.inr ⟨worker.1, worker.2, rfl, member⟩

omit [DecidableEq Shop] in
theorem initial_total_eq_zero (pool : Pool program Thread) (shared : Shared program)
    (weight : Frame Shop program.bits -> Nat) (outside : weight .outside = 0)
    (idle : forall shop index, weight (.worker shop index .drainOwn) = 0) :
    (Stacked.mk shared pool.initialStack).total weight = 0 := by
  rw [total_eq_zero_iff]
  intro thread frame member
  rcases mem_initialStack member with rfl | ⟨shop, index, _, rfl⟩
  · exact outside
  · exact idle shop index

variable [DecidableEq Thread]

/-- Nothing is lost from the account in any run. -/
theorem accounted (selected : Work -> Bool) {state : Stacked Thread (Frame Shop program.bits) (Shared program)}
    (reachable : (shopSystem pool).Reachable state) : Accounted selected state := by
  apply reachable.invariant
  · rintro state rfl
    constructor <;>
      exact (initial_total_eq_zero pool _ _ rfl (fun _ _ => rfl)).symm
  · intro before after _ earlier move
    exact
      { creation := earlier.creation.step move (fun _ _ _ _ localStep => localStep.account.creation)
        invocation := earlier.invocation.step move (fun _ _ _ _ localStep => localStep.account.invocation)
        completion := earlier.completion.step move (fun _ _ _ _ localStep => localStep.account.completion) }

end Accounts

/-! ## Serial numbers -/

def Host.call : Host Shop -> Option Nat
  | .worker _ _ _ => none
  | .caller _ call _ => some call
  | .thief _ call _ => some call

/-- The call of `spread_work` that a frame belongs to. -/
def Frame.call {bits : Nat} : Frame Shop bits -> Option Nat
  | .executing host _ _ => host.call
  | .spread _ call _ _ => some call
  | _ => none

omit [DecidableEq Shop] in
@[simp] theorem call_resume {bits : Nat} (host : Host Shop) :
    (host.resume : Frame Shop bits).call = host.call := by
  cases host <;> rfl

/-- What a step creates is numbered on, and parts are only created by a frame
of their call. -/
structure Creates (shared : Shared program) (frame : Frame Shop program.bits) (shared' : Shared program)
    (added : List Work) : Prop where
  created : shared'.created = shared.created ++ added
  numbered : added.map Work.serial = List.range' shared.created.length added.length
  owned : forall work, work ∈ added -> forall call, work.ofCall call = true -> frame.call = some call

omit [DecidableEq Shop] in
theorem Creates.nothing (same : shared'.created = shared.created) : Creates shared frame shared' [] where
  created := by rw [same, List.append_nil]
  numbered := rfl
  owned := fun _ impossible => by cases impossible

theorem partsOf_serials (call serial : Nat) (chunks : List Chunk) :
    (partsOf call serial chunks).map Part.serial = List.range' serial (partsOf call serial chunks).length := by
  induction chunks generalizing serial with
  | nil => rfl
  | cons chunk rest inductionHypothesis =>
      simp only [partsOf, List.map_cons, List.length_cons, List.range'_succ, inductionHypothesis]

theorem partsOf_call (call serial : Nat) (chunks : List Chunk) (part : Part)
    (member : part ∈ partsOf call serial chunks) : part.call = call := by
  induction chunks generalizing serial with
  | nil => cases member
  | cons chunk rest inductionHypothesis =>
      rcases List.mem_cons.mp member with rfl | later
      · rfl
      · exact inductionHypothesis (serial + 1) later

theorem partsOf_length (call serial : Nat) (chunks : List Chunk) :
    (partsOf call serial chunks).length = chunks.length := by
  induction chunks generalizing serial with
  | nil => rfl
  | cons chunk rest inductionHypothesis =>
      rw [partsOf, List.length_cons, inductionHypothesis, List.length_cons]

theorem ShopStep.creates (move : ShopStep pool callStack thread shared frame shared' frames) :
    Exists (Creates shared frame shared') := by
  cases move with
  | worker move => exact ⟨[], .nothing (by cases move <;> rfl)⟩
  | execution move => exact ⟨[], .nothing (by cases move <;> rfl)⟩
  | fire move => exact ⟨[], .nothing (by cases move <;> rfl)⟩
  | stop move => exact ⟨[], .nothing (by cases move <;> rfl)⟩
  | spread move =>
      cases move with
      | registerSlice call | callerRegister call =>
          refine ⟨_, rfl, rfl, ?_⟩
          intro work member call same
          rw [List.mem_singleton.mp member] at same
          rw [← beq_iff_eq.mp same]
          rfl
      | initializeBarrier =>
          refine ⟨_, rfl, ?_, ?_⟩
          · rw [List.map_map, List.length_map]
            exact partsOf_serials _ _ _
          · intro work member call' same
            rcases List.mem_map.mp member with ⟨part, made, rfl⟩
            rw [← beq_iff_eq.mp same, partsOf_call _ _ _ _ made]
            rfl
      | _ => exact ⟨[], .nothing rfl⟩
  | call move =>
      cases move with
      | fire frame shop =>
          refine ⟨_, rfl, rfl, ?_⟩
          intro work member call same
          rw [List.mem_singleton.mp member] at same
          cases same
      | _ => exact ⟨[], .nothing rfl⟩

/-! ## Facts about the frames of calls -/

/-- A fact that is only about the frames of calls of `spread_work` holds of the
frames that a step leaves, if it survives the steps of `spread_work` and of the
works that a call executes, and holds of a call that begins. -/
theorem ShopStep.call_frames {holds : Frame Shop program.bits -> Prop}
    (move : ShopStep pool callStack thread shared frame shared' frames) (now : holds frame)
    (others : forall other : Frame Shop program.bits, other.call = none -> holds other)
    (execution : forall host work phase, holds (.executing host work phase) ->
      (forall later, holds (.executing host work later)) ∧ holds host.resume)
    (begins : forall shop iterations parallelizable, holds (.spread shop shared.nextCall
      ⟨iterations, parallelizable, 0, false, false, true⟩ (if iterations = 0 then .finished else .loadItems)))
    (spread : forall shop call locals point, frame = .spread shop call locals point ->
      SpreadStep program (decide (pool.Serves thread shop)) shared frame shared' frames ->
      forall next, next ∈ frames -> holds next) :
    forall next, next ∈ frames -> holds next := by
  have only : forall {next : Frame Shop program.bits}, holds next -> forall other, other ∈ [next] -> holds other := by
    intro next holdsNext other member
    rw [List.mem_singleton.mp member]
    exact holdsNext
  cases move with
  | worker move => cases move <;> exact only (others _ rfl)
  | execution move =>
      cases move with
      | invoke host work | finish host work => exact only ((execution host work _ now).1 _)
      | arrive host part => exact only (execution host (.part part) _ now).2
      | discount host serial => exact only (execution host (.item serial) _ now).2
  | fire move => cases move <;> exact only (others _ rfl)
  | spread move => exact spread _ _ _ _ rfl move
  | stop move => cases move <;> exact only (others _ rfl)
  | call move =>
      cases move with
      | fire frame shop | stop frame shop =>
          intro next member
          rcases List.mem_cons.mp member with rfl | below
          · exact others _ rfl
          · exact only now next below
      | spread frame shop iterations parallelizable =>
          intro next member
          rcases List.mem_cons.mp member with rfl | below
          · exact begins shop iterations parallelizable
          · exact only now next below
      | fired | spreadReturn | stopped => exact fun _ impossible => by cases impossible

/-! ## Records only grow -/

theorem ShopStep.retired_grows (move : ShopStep pool callStack thread shared frame shared' frames) :
    shared.retired.Sublist shared'.retired := by
  cases move with
  | worker move => cases move <;> exact List.Sublist.refl _
  | execution move =>
      cases move with
      | invoke | finish => exact List.Sublist.refl _
      | arrive | discount => exact List.sublist_append_left _ _
  | fire move => cases move <;> exact List.Sublist.refl _
  | spread move => cases move <;> exact List.Sublist.refl _
  | stop move => cases move <;> exact List.Sublist.refl _
  | call move => cases move <;> exact List.Sublist.refl _

theorem ShopStep.dropped_grows (move : ShopStep pool callStack thread shared frame shared' frames) :
    shared.dropped.Sublist shared'.dropped := by
  cases move with
  | worker move => cases move <;> exact List.Sublist.refl _
  | execution move => cases move <;> exact List.Sublist.refl _
  | fire move =>
      cases move with
      | refuse => exact List.sublist_append_left _ _
      | _ => exact List.Sublist.refl _
  | spread move =>
      cases move with
      | resetBarrier => exact List.sublist_append_left _ _
      | _ => exact List.Sublist.refl _
  | stop move => cases move <;> exact List.Sublist.refl _
  | call move => cases move <;> exact List.Sublist.refl _

section Numbered

variable [DecidableEq Thread]
  {state : Stacked Thread (Frame Shop program.bits) (Shared program)}

theorem created_numbered (reachable : (shopSystem pool).Reachable state) :
    state.shared.created.map Work.serial = List.range state.shared.created.length := by
  apply reachable.invariant
  · rintro state rfl
    rfl
  · intro before after _ earlier move
    cases move with
    | top thread frame rest shared frames place localStep =>
        obtain ⟨added, created, numbered, _⟩ := localStep.creates
        change shared.created.map Work.serial = List.range shared.created.length
        rw [created, List.map_append, earlier, numbered, List.length_append, List.range_eq_range',
          List.range_eq_range', ← List.range'_append_1, Nat.zero_add]

/-- No work is created twice. -/
theorem created_nodup (reachable : (shopSystem pool).Reachable state) : state.shared.created.Nodup := by
  apply List.Nodup.of_map Work.serial
  rw [created_numbered reachable]
  exact List.nodup_range

end Numbered

end Shop
end Sweater
