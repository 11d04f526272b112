import Sweater.Shop.State

namespace Sweater
namespace Shop

open Threading
open Spread
open Interleaving

/-!
# The generic shop, one atomic operation at a time

One relation for each procedure.  A constructor performs one atomic operation
on the shared state together with the thread-local control flow up to the next
one; the frame in front is the one that takes the step.

Two things are left open because nothing depends on them: what `pending()` and
`queue_.empty()` return, both of which are approximations by their own
documentation, and after how many polls `spin_wait` reports a stall.

The index of a worker reaches its thread unchanged.  On 32-bit targets it passes
through a field of five bits, and an assertion says that it fits.
-/

variable {Shop Thread : Type} [DecidableEq Shop] (program : Program Shop)

/-! ## Worker threads -/

/-- `worker_loop_impl` and `propagate_spread_wake`. -/
inductive WorkerStep :
    Shared program -> Frame Shop program.bits -> Shared program -> List (Frame Shop program.bits) -> Prop
  /-- an entry of the worker's own producer -/
  | takeOwn {shared} (shop index front entry back) :
      shared.queue = front ++ entry :: back -> entry.shop = shop -> entry.token = some index ->
      WorkerStep shared (.worker shop index .drainOwn) { shared with queue := front ++ back }
        [.executing (.worker shop index true) entry.work .fetched]
  | ownEmpty {shared} (shop index) :
      (forall entry, entry ∈ shared.queue -> entry.shop = shop -> entry.token ≠ some index) ->
      WorkerStep shared (.worker shop index .drainOwn) shared [.worker shop index .drainAll]
  | takeAny {shared} (shop index front entry back) :
      shared.queue = front ++ entry :: back -> entry.shop = shop ->
      WorkerStep shared (.worker shop index .drainAll) { shared with queue := front ++ back }
        [.executing (.worker shop index false) entry.work .fetched]
  | allEmpty {shared} (shop index) :
      (forall entry, entry ∈ shared.queue -> entry.shop ≠ shop) ->
      WorkerStep shared (.worker shop index .drainAll) shared [.worker shop index .checkExit]
  | complete {shared} (shop index own) :
      WorkerStep shared (.worker shop index (.completing own)) (shared.completeItem shop)
        [.worker shop index (if own then .drainOwn else .drainAll)]
  | exit {shared} (shop index) :
      shared.brexit shop = true ->
      WorkerStep shared (.worker shop index .checkExit)
        { shared with
          exited := Function.update shared.exited shop (Function.update (shared.exited shop) index true) }
        [.worker shop index .exited]
  | stay {shared} (shop index) :
      shared.brexit shop = false ->
      WorkerStep shared (.worker shop index .checkExit) shared [.worker shop index .sleeping]
  | wake {shared} (shop index) :
      0 < shared.tokens shop index ->
      WorkerStep shared (.worker shop index .sleeping) (shared.consume shop index)
        [.worker shop index .woken]
  | propagate {shared} (shop index) :
      shared.workItems shop ≠ 0 ->
      WorkerStep shared (.worker shop index .woken) shared [.worker shop index .wakeLeft]
  | idle {shared} (shop index) :
      shared.workItems shop = 0 ->
      WorkerStep shared (.worker shop index .woken) shared [.worker shop index .drainOwn]
  | wakeLeft {shared} (shop index) :
      (2 * index + 1) % 2 ^ program.bits < program.workers shop ->
      WorkerStep shared (.worker shop index .wakeLeft)
        (shared.signal shop ((2 * index + 1) % 2 ^ program.bits)) [.worker shop index .wakeRight]
  | noLeft {shared} (shop index) :
      program.workers shop ≤ (2 * index + 1) % 2 ^ program.bits ->
      WorkerStep shared (.worker shop index .wakeLeft) shared [.worker shop index .wakeRight]
  | wakeRight {shared} (shop index) :
      (2 * index + 2) % 2 ^ program.bits < program.workers shop ->
      WorkerStep shared (.worker shop index .wakeRight)
        (shared.signal shop ((2 * index + 2) % 2 ^ program.bits)) [.worker shop index .drainOwn]
  | noRight {shared} (shop index) :
      program.workers shop ≤ (2 * index + 2) % 2 ^ program.bits ->
      WorkerStep shared (.worker shop index .wakeRight) shared [.worker shop index .drainOwn]

/-! ## Executing a work -/

/-- `work()`, up to the return to the loop or to the spread that took it. -/
inductive ExecutionStep :
    Shared program -> Frame Shop program.bits -> Shared program -> List (Frame Shop program.bits) -> Prop
  | invoke {shared} (host work) :
      ExecutionStep shared (.executing host work .fetched)
        { shared with invoked := shared.invoked ++ [work] } [.executing host work .running]
  | finish {shared} (host work) :
      ExecutionStep shared (.executing host work .running)
        { shared with finished := shared.finished ++ [work] } [.executing host work .leaving]
  /-- the `arrive()` of a part -/
  | arrive {shared} (host part) :
      ExecutionStep shared (.executing host (.part part) .leaving)
        { shared.onBarrier part.call Barrier.arrive with retired := shared.retired ++ [.part part] }
        [host.resume]
  /-- the `in_flight_dec()` of an item -/
  | discount {shared} (host serial) :
      ExecutionStep shared (.executing host (.item serial) .leaving)
        { shared with
          inFlight := shared.inFlight - 1
          retired := shared.retired ++ [.item serial] }
        [host.resume]

/-! ## Firing an item -/

/-- `create_fire_and_destroy`, `next_dispatch_target` and `worker_thread::enqueue`. -/
inductive FireStep :
    Shared program -> Frame Shop program.bits -> Shared program -> List (Frame Shop program.bits) -> Prop
  | loadRotor {shared} (shop serial) :
      FireStep shared (.fire shop serial .loadRotor) shared
        [.fire shop serial (.testBacklog (shared.rotor shop))]
  | stick {shared} (shop serial rotor) :
      0 < program.workers shop ->
      FireStep shared (.fire shop serial (.testBacklog rotor)) shared
        [.fire shop serial (.enqueue (rotor.toNat % program.workers shop))]
  | spill {shared} (shop serial rotor) :
      0 < program.workers shop ->
      FireStep shared (.fire shop serial (.testBacklog rotor)) shared [.fire shop serial .advanceRotor]
  | advanceRotor {shared} (shop serial) :
      0 < program.workers shop ->
      FireStep shared (.fire shop serial .advanceRotor)
        { shared with rotor := Function.update shared.rotor shop (shared.rotor shop + 1) }
        [.fire shop serial (.enqueue ((shared.rotor shop + 1).toNat % program.workers shop))]
  | enqueue {shared} (shop serial target) :
      FireStep shared (.fire shop serial (.enqueue target))
        { shared with queue := shared.queue ++ [⟨shop, some target, .item serial⟩] }
        [.fire shop serial (.notify target true)]
  | refuse {shared} (shop serial target) :
      program.enqueueMayFail = true ->
      FireStep shared (.fire shop serial (.enqueue target))
        { shared with dropped := shared.dropped ++ [.item serial] }
        [.fire shop serial (.notify target false)]
  | notify {shared} (shop serial target enqueueSucceeded) :
      FireStep shared (.fire shop serial (.notify target enqueueSucceeded)) (shared.signal shop target)
        [.fire shop serial (.addItem enqueueSucceeded)]
  | addItem {shared} (shop serial enqueueSucceeded) :
      FireStep shared (.fire shop serial (.addItem enqueueSucceeded))
        (shared.addItems shop (if enqueueSucceeded then 1 else 0))
        [.fire shop serial (if enqueueSucceeded then .countInFlight else .finished false)]
  | countInFlight {shared} (shop serial) :
      FireStep shared (.fire shop serial .countInFlight)
        { shared with
          inFlight := shared.inFlight + 1
          counted := shared.counted ++ [serial] }
        [.fire shop serial (.finished true)]

/-! ## Spreading work -/

namespace SpreadPoint

variable {program}

/-- After the dispatch: the caller's own chunk, if there is one. -/
def toCaller (locals : SpreadLocals) : SpreadPoint program.bits :=
  if locals.callerEnd ≠ 0 then callerRegister else testQueue

/-- The next part for a worker, or the caller's chunk after the last one. -/
def nextDispatch (locals : SpreadLocals) (first : Bool) :
    List (Dispatch program.bits) -> SpreadPoint program.bits
  | [] => toCaller locals
  | dispatch :: rest => registerSlice dispatch.workerIndex.toNat first [] dispatch.slices rest

/-- Joining, by spinning or by waiting. -/
def toJoin (locals : SpreadLocals) : SpreadPoint program.bits :=
  if locals.queueAndWait then waiting else join

end SpreadPoint

open SpreadPoint

/-- The values that a plan determines, and where the call goes on. -/
def startPlan (locals : SpreadLocals) : Plan program.bits -> SpreadLocals × SpreadPoint program.bits
  | .nothing => (locals, .finished)
  | .inCaller iterations =>
      ({ locals with callerEnd := iterations, immediate := true }, .callerRegister)
  | .toWorkers callerEnd _ dispatches =>
      ({ locals with callerEnd := callerEnd },
        nextDispatch { locals with callerEnd := callerEnd } true dispatches)
  | .toQueue queueAndWait callerEnd chunks =>
      ({ locals with callerEnd := callerEnd, queueAndWait := queueAndWait },
        if chunks = [] then .initializeEmpty else .countParts chunks)

/-- `spread_work`, `dispatch_workers` and `perform_caller_work`.  The flag says
whether the calling thread belongs to the pool of the shop. -/
inductive SpreadStep (recursive : Bool) :
    Shared program -> Frame Shop program.bits -> Shared program -> List (Frame Shop program.bits) -> Prop
  | loadItems {shared} (shop call locals) :
      SpreadStep recursive shared (.spread shop call locals .loadItems) shared
        [.spread shop call locals (.loadDivision (shared.workItems shop))]
  /-- the arithmetic of the dispatch; spinning is chosen before it -/
  | plan {shared} (shop call locals itemsInShop plan exact) :
      spreadWork ⟨program.workerThreads shop, itemsInShop, shared.division, recursive,
        program.singleCorePlatform⟩ locals.iterations locals.parallelizable = some (plan, exact) ->
      SpreadStep recursive shared (.spread shop call locals (.loadDivision itemsInShop))
        (shared.onBarrier call (fun barrier => barrier.useSpinWait
          (!(startPlan program locals plan).1.queueAndWait && !(startPlan program locals plan).1.immediate)))
        [.spread shop call (startPlan program locals plan).1 (startPlan program locals plan).2]
  | registerSlice {shared} (shop call locals worker first registered chunk slices rest) :
      SpreadStep recursive shared
        (.spread shop call locals (.registerSlice worker first registered (chunk :: slices) rest))
        { shared.onBarrier call Barrier.addExpectedArrival with
          created := shared.created ++ [.part ⟨shared.created.length, call, chunk⟩] }
        [.spread shop call locals (.countSlice worker first
          (registered ++ [⟨shared.created.length, call, chunk⟩]) slices rest)]
  | countSlice {shared} (shop call locals worker first registered slices rest) :
      SpreadStep recursive shared
        (.spread shop call locals (.countSlice worker first registered slices rest)) (shared.addItems shop 1)
        [.spread shop call locals (.registerSlice worker first registered slices rest)]
  | enqueueSlices {shared} (shop call locals worker first registered rest) :
      SpreadStep recursive shared
        (.spread shop call locals (.registerSlice worker first registered [] rest))
        { shared with
          queue := shared.queue ++ registered.map (fun part => ⟨shop, some worker, .part part⟩) }
        [.spread shop call locals (if first then .notifyRoot worker rest else nextDispatch locals false rest)]
  /-- the result of this `enqueue_bulk` is only verified in debug builds -/
  | refuseSlices {shared} (shop call locals worker first registered rest) :
      program.enqueueMayFail = true ->
      SpreadStep recursive shared
        (.spread shop call locals (.registerSlice worker first registered [] rest))
        { shared with lost := shared.lost ++ registered.map Work.part }
        [.spread shop call locals (if first then .notifyRoot worker rest else nextDispatch locals false rest)]
  | notifyRoot {shared} (shop call locals worker rest) :
      SpreadStep recursive shared (.spread shop call locals (.notifyRoot worker rest))
        (shared.signal shop worker) [.spread shop call locals (nextDispatch locals false rest)]
  | countParts {shared} (shop call locals chunks) :
      SpreadStep recursive shared (.spread shop call locals (.countParts chunks))
        (shared.addItems shop (BitVec.ofNat _ chunks.length))
        [.spread shop call locals (.initializeBarrier chunks)]
  | initializeBarrier {shared} (shop call locals chunks) :
      SpreadStep recursive shared (.spread shop call locals (.initializeBarrier chunks))
        { shared.onBarrier call (fun barrier =>
            barrier.initializeWith (BitVec.ofNat program.bits chunks.length)) with
          created := shared.created ++ (partsOf call shared.created.length chunks).map Work.part }
        [.spread shop call locals (.enqueueParts (partsOf call shared.created.length chunks))]
  | enqueueParts {shared} (shop call locals parts) :
      SpreadStep recursive shared (.spread shop call locals (.enqueueParts parts))
        { shared with queue := shared.queue ++ parts.map (fun part => ⟨shop, none, .part part⟩) }
        [.spread shop call locals (.notifyAll 0)]
  | refuseParts {shared} (shop call locals parts) :
      program.enqueueMayFail = true ->
      SpreadStep recursive shared (.spread shop call locals (.enqueueParts parts)) shared
        [.spread shop call locals (.resetBarrier parts)]
  | notifyAll {shared} (shop call locals worker) :
      worker < program.workers shop ->
      SpreadStep recursive shared (.spread shop call locals (.notifyAll worker)) (shared.signal shop worker)
        [.spread shop call locals (.notifyAll (worker + 1))]
  | notifiedAll {shared} (shop call locals worker) :
      program.workers shop ≤ worker ->
      SpreadStep recursive shared (.spread shop call locals (.notifyAll worker)) shared
        [.spread shop call locals (toCaller locals)]
  | resetBarrier {shared} (shop call locals parts) :
      SpreadStep recursive shared (.spread shop call locals (.resetBarrier parts))
        { shared.onBarrier call (fun barrier => barrier.initializeWith (0 : BitVec program.bits)) with
          dropped := shared.dropped ++ parts.map Work.part }
        [.spread shop call { locals with callerEnd := locals.iterations, enqueueSucceeded := false }
          (toCaller { locals with callerEnd := locals.iterations, enqueueSucceeded := false })]
  | initializeEmpty {shared} (shop call locals) :
      SpreadStep recursive shared (.spread shop call locals .initializeEmpty)
        (shared.onBarrier call (fun barrier => barrier.initializeWith (0 : BitVec program.bits)))
        [.spread shop call locals (toCaller locals)]
  | callerRegister {shared} (shop call locals) :
      SpreadStep recursive shared (.spread shop call locals .callerRegister)
        { shared.onBarrier call Barrier.addExpectedArrival with
          created := shared.created ++ [.part ⟨shared.created.length, call, ⟨0, locals.callerEnd⟩⟩] }
        [.spread shop call locals (.callerCount ⟨shared.created.length, call, ⟨0, locals.callerEnd⟩⟩)]
  | callerCount {shared} (shop call locals part) :
      SpreadStep recursive shared (.spread shop call locals (.callerCount part)) (shared.addItems shop 1)
        [.executing (.caller shop call locals) (.part part) .fetched]
  | callerComplete {shared} (shop call locals) :
      SpreadStep recursive shared (.spread shop call locals .callerCompleting) (shared.completeItem shop)
        [.spread shop call locals (if locals.immediate then .finished else .testQueue)]
  | stealBegin {shared} (shop call locals) :
      locals.queueAndWait = false ->
      SpreadStep recursive shared (.spread shop call locals .testQueue) shared
        [.spread shop call locals .steal]
  | stealSkip {shared} (shop call locals) :
      SpreadStep recursive shared (.spread shop call locals .testQueue) shared
        [.spread shop call locals (toJoin locals)]
  | steal {shared} (shop call locals front entry back) :
      shared.queue = front ++ entry :: back -> entry.shop = shop ->
      SpreadStep recursive shared (.spread shop call locals .steal) { shared with queue := front ++ back }
        [.executing (.thief shop call locals) entry.work .fetched]
  | stealEmpty {shared} (shop call locals) :
      (forall entry, entry ∈ shared.queue -> entry.shop ≠ shop) ->
      SpreadStep recursive shared (.spread shop call locals .steal) shared
        [.spread shop call locals (toJoin locals)]
  | stealComplete {shared} (shop call locals) :
      SpreadStep recursive shared (.spread shop call locals .stealCompleting) (shared.completeItem shop)
        [.spread shop call locals .steal]
  | joined {shared} (shop call locals) :
      (shared.barrier call).everyoneArrived program.bits = true ->
      SpreadStep recursive shared (.spread shop call locals .join) shared
        [.spread shop call locals .finished]
  | joinSpin {shared} (shop call locals) :
      (shared.barrier call).everyoneArrived program.bits = false ->
      SpreadStep recursive shared (.spread shop call locals .join) shared
        [.spread shop call locals .spinning]
  | spinAgain {shared} (shop call locals) :
      (shared.barrier call).everyoneArrived program.bits = false ->
      SpreadStep recursive shared (.spread shop call locals .spinning) shared
        [.spread shop call locals .spinning]
  | spinOver {shared} (shop call locals) (isStalled : Bool) :
      (shared.barrier call).everyoneArrived program.bits = true ->
      SpreadStep recursive shared (.spread shop call locals .spinning) shared
        [.spread shop call locals (if isStalled then .stalled else .finished)]
  | loadStalled {shared} (shop call locals) :
      SpreadStep recursive shared (.spread shop call locals .stalled) shared
        [.spread shop call locals (.raiseDivision shared.division)]
  | raiseDivision {shared} (shop call locals current) :
      current.toNat < stealingDivisionMax -> shared.division = current ->
      SpreadStep recursive shared (.spread shop call locals (.raiseDivision current))
        { shared with division := current + 1 } [.spread shop call locals .finished]
  | keepDivision {shared} (shop call locals current) :
      stealingDivisionMax ≤ current.toNat ∨ shared.division ≠ current ->
      SpreadStep recursive shared (.spread shop call locals (.raiseDivision current)) shared
        [.spread shop call locals .finished]
  | waitAgain {shared} (shop call locals) :
      (shared.barrier call).counter ≠ 0 ->
      SpreadStep recursive shared (.spread shop call locals .waiting) shared
        [.spread shop call locals .waiting]
  | waitOver {shared} (shop call locals) :
      (shared.barrier call).counter = 0 ->
      SpreadStep recursive shared (.spread shop call locals .waiting) shared
        [.spread shop call locals .finished]

/-! ## Stopping a shop -/

/-- `stop_and_destroy_pool` -/
inductive StopStep :
    Shared program -> Frame Shop program.bits -> Shared program -> List (Frame Shop program.bits) -> Prop
  | store {shared} (shop accepted) :
      StopStep shared (.stop shop accepted .store)
        { shared with brexit := Function.update shared.brexit shop true }
        [.stop shop accepted (.notifyAll 0)]
  | notifyAll {shared} (shop accepted worker) :
      worker < program.workers shop ->
      StopStep shared (.stop shop accepted (.notifyAll worker)) (shared.signal shop worker)
        [.stop shop accepted (.notifyAll (worker + 1))]
  | notifiedAll {shared} (shop accepted worker) :
      program.workers shop ≤ worker ->
      StopStep shared (.stop shop accepted (.notifyAll worker)) shared [.stop shop accepted (.joinAll 0)]
  | join {shared} (shop accepted worker) :
      worker < program.workers shop -> shared.exited shop worker = true ->
      StopStep shared (.stop shop accepted (.joinAll worker)) shared
        [.stop shop accepted (.joinAll (worker + 1))]
  | joined {shared} (shop accepted worker) :
      program.workers shop ≤ worker ->
      StopStep shared (.stop shop accepted (.joinAll worker)) shared [.stop shop accepted .finished]

/-! ## Calls and returns -/

/-- Which thread is which worker.  Every worker of a shop is one thread. -/
structure Pool (program : Program Shop) (Thread : Type) where
  role : Thread -> Option (Shop × Nat)
  inside : forall thread shop index, role thread = some (shop, index) -> index < program.workers shop
  distinct : forall first second worker, role first = some worker -> role second = some worker -> first = second
  staffed : forall shop index, index < program.workers shop ->
    Exists fun thread => role thread = some (shop, index)

namespace Pool

variable {program} (pool : Pool program Thread)

/-- The thread is a worker of the shop. -/
def Serves (thread : Thread) (shop : Shop) : Prop :=
  Exists fun index => pool.role thread = some (shop, index)

instance (thread : Thread) (shop : Shop) : Decidable (pool.Serves thread shop) :=
  match role : pool.role thread with
  | none => .isFalse (fun ⟨_, impossible⟩ => by rw [role] at impossible; cases impossible)
  | some (home, index) =>
      if same : home = shop then .isTrue ⟨index, by rw [role, same]⟩
      else .isFalse (fun ⟨_, claimed⟩ => same (by rw [role] at claimed; cases claimed; rfl))

end Pool

variable {program} (pool : Pool program Thread)

/-- Calls from user code, and returns to it.  A shop may not be used by other
threads once its destructor has been called, and the destructor may not be
called while other threads are still using the shop. -/
inductive CallStep (callStack : Thread -> List (Frame Shop program.bits)) (thread : Thread) :
    Shared program -> Frame Shop program.bits -> Shared program -> List (Frame Shop program.bits) -> Prop
  | fire {shared} (frame shop) :
      frame.mayCall = true -> shared.stopping shop = false ∨ pool.Serves thread shop ->
      CallStep callStack thread shared frame
        { shared with created := shared.created ++ [.item shared.created.length] }
        [.fire shop shared.created.length .loadRotor, frame]
  | fired {shared} (shop serial enqueueSucceeded) :
      CallStep callStack thread shared (.fire shop serial (.finished enqueueSucceeded))
        { shared with
          accepted := shared.accepted ++ (if enqueueSucceeded then [(shop, serial)] else []) } []
  | spread {shared} (frame shop iterations parallelizable) :
      frame.mayCall = true -> shared.stopping shop = false ∨ pool.Serves thread shop ->
      CallStep callStack thread shared frame
        { shared.onBarrier shared.nextCall (fun _ => Barrier.construct (0 : BitVec program.bits)) with
          nextCall := shared.nextCall + 1 }
        [.spread shop shared.nextCall ⟨iterations, parallelizable, 0, false, false, true⟩
          (if iterations = 0 then .finished else .loadItems), frame]
  | spreadReturn {shared} (shop call locals) :
      CallStep callStack thread shared (.spread shop call locals .finished) shared []
  | stop {shared} (frame shop) :
      frame.mayCall = true -> shared.stopping shop = false -> ¬ pool.Serves thread shop ->
      (forall other, ¬ pool.Serves other shop ->
        forall using_, using_ ∈ callStack other -> using_.shop ≠ some shop) ->
      CallStep callStack thread shared frame
        { shared with stopping := Function.update shared.stopping shop true }
        [.stop shop ((shared.accepted.filter (fun entry => entry.1 = shop)).map Prod.snd) .store, frame]
  | stopped {shared} (shop accepted) :
      CallStep callStack thread shared (.stop shop accepted .finished) shared []

/-! ## The program -/

/-- A step of the frame on top of a thread. -/
inductive ShopStep : Stacked.FrameStep Thread (Frame Shop program.bits) (Shared program)
  | worker {callStack thread shared frame shared' frames} :
      WorkerStep program shared frame shared' frames -> ShopStep callStack thread shared frame shared' frames
  | execution {callStack thread shared frame shared' frames} :
      ExecutionStep program shared frame shared' frames ->
      ShopStep callStack thread shared frame shared' frames
  | fire {callStack thread shared frame shared' frames} :
      FireStep program shared frame shared' frames -> ShopStep callStack thread shared frame shared' frames
  | spread {callStack thread shared shop call locals point shared' frames} :
      SpreadStep program (decide (pool.Serves thread shop)) shared (.spread shop call locals point)
        shared' frames ->
      ShopStep callStack thread shared (.spread shop call locals point) shared' frames
  | stop {callStack thread shared frame shared' frames} :
      StopStep program shared frame shared' frames -> ShopStep callStack thread shared frame shared' frames
  | call {callStack thread shared frame shared' frames} :
      CallStep pool callStack thread shared frame shared' frames ->
      ShopStep callStack thread shared frame shared' frames

/-- The stack of a thread before it has done anything. -/
def Pool.initialStack (thread : Thread) : List (Frame Shop program.bits) :=
  match pool.role thread with
  | some (shop, index) => [.worker shop index .drainOwn]
  | none => [.outside]

/-- Any number of shops, used by any number of threads. -/
def shopSystem [DecidableEq Thread] :
    System (Stacked Thread (Frame Shop program.bits) (Shared program)) where
  initial := fun state => state = ⟨Shared.fresh, pool.initialStack⟩
  step := Stacked.Step (ShopStep pool)

/-- A run goes on by a step of the top frame of some thread. -/
theorem advance [DecidableEq Thread] {pool : Pool program Thread}
    {state : Stacked Thread (Frame Shop program.bits) (Shared program)}
    (reachable : (shopSystem pool).Reachable state) (thread : Thread) {frame : Frame Shop program.bits}
    {rest frames : List (Frame Shop program.bits)} {shared : Shared program}
    (place : state.callStack thread = frame :: rest)
    (move : ShopStep pool state.callStack thread state.shared frame shared frames) :
    (shopSystem pool).Reachable (state.replaceTop thread shared (frames ++ rest)) :=
  .step reachable (.top thread frame rest shared frames place move)

/-! ## The smallest shop -/

/-- One shop with one worker thread, on Linux. -/
def smallProgram : Program Unit where
  concurrency := .uint16
  barrierKind := .futexBarrier .linux
  sizeBits := 64
  singleCorePlatform := true
  enqueueMayFail := false
  workerThreads := fun _ => 1

/-- The worker of a single shop with one worker, and as many other threads as
there are values of the second type. -/
def singlePool (program : Program Unit) (single : program.workers () = 1) (Caller : Type) :
    Pool program (Option Caller) where
  role := fun thread => if thread.isNone then some ((), 0) else none
  inside := by
    intro thread shop index served
    cases thread with
    | none =>
        cases served
        rw [single]
        exact Nat.zero_lt_one
    | some caller => cases served
  distinct := by
    intro first second worker served served'
    cases first with
    | none =>
        cases second with
        | none => rfl
        | some caller => cases served'
    | some caller => cases served
  staffed := by
    intro shop index below
    rw [single] at below
    have only : index = 0 := Nat.lt_one_iff.mp below
    exact ⟨none, by rw [only]; rfl⟩

/-- The worker of the smallest shop, and as many other threads as there are
values of the second type. -/
def smallPool (Caller : Type) : Pool smallProgram (Option Caller) where
  role := fun thread => if thread.isNone then some ((), 0) else none
  inside := (singlePool smallProgram rfl Caller).inside
  distinct := (singlePool smallProgram rfl Caller).distinct
  staffed := (singlePool smallProgram rfl Caller).staffed

end Shop
end Sweater
