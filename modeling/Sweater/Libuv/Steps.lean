import Sweater.Libuv.State

namespace Sweater
namespace Libuv

open Threading
open Spread
open Interleaving

/-!
# The libuv shop, one atomic operation at a time

`NodeStep` is what a thread does with its own call; the steps that also use
`pending_`, the loop or the pool are in `LibuvStep`.
-/

/-- A step on one node.  The points are those of the same call that take the
place of the first one. -/
inductive NodeStep (cancelMayFail onLoop : Bool) : Node -> Point -> Node -> List Point -> Prop
  /-- on the loop thread: `queue_chunks( node )` -/
  | queueHere {node} (queuedChunks) :
      onLoop = true ->
      NodeStep cancelMayFail onLoop node (.publish queuedChunks .created) { node with handed := node.handed + 1 }
        [.queue node.count 0, .publish queuedChunks .tail]
  | publish {node} (queuedChunks) :
      onLoop = false ->
      NodeStep cancelMayFail onLoop node (.publish queuedChunks .created) node [.publish queuedChunks .loadHead]
  | link {node} (queuedChunks expected) :
      NodeStep cancelMayFail onLoop node (.publish queuedChunks (.link expected)) { node with next := expected }
        [.publish queuedChunks (.push expected)]
  | tail {node} (queuedChunks) :
      NodeStep cancelMayFail onLoop node (.publish queuedChunks .tail) node [.executing .tail queuedChunks .running]
  /-- the serial call returns without a latch -/
  | returnSerial {node} (index) :
      NodeStep cancelMayFail onLoop node (.executing .serial index .running) (node.called index) [.finished .caller]
  | returnChunk {node} (host index) :
      host ≠ .serial ->
      NodeStep cancelMayFail onLoop node (.executing host index .running) (node.called index)
        [.executing host index .leaving]
  | countDown {node} (host index) :
      NodeStep cancelMayFail onLoop node (.executing host index .leaving) (node.countDown index)
        [.resume node.count index host]
  | finish {node} (index) :
      NodeStep cancelMayFail onLoop node (.finish index) (node.setRequest index .done) []
  | lock {node} (claimer index) :
      node.lock = false ->
      NodeStep cancelMayFail onLoop node (.lock claimer index) { node with lock := true } [.examine claimer index]
  | unlock {node} (claimer index runInline) :
      NodeStep cancelMayFail onLoop node (.unlock claimer index runInline) { node with lock := false }
        [if runInline then .executing (.claimer claimer) index .running else .next node.count index claimer]
  | steal {node} (index) :
      node.chunkState index = .pending ->
      NodeStep cancelMayFail onLoop node (.examine .thief index) (node.setState index .doneInline)
        [.unlock .thief index true]
  /-- `uv_cancel` returns 0 -/
  | cancel {node} (index) :
      node.chunkState index = .queued -> node.request index = .queued ->
      NodeStep cancelMayFail onLoop node (.examine .thief index)
        ((node.setRequest index .done).setState index .doneInline) [.unlock .thief index true]
  | cancelFails {node} (index) :
      node.chunkState index = .queued -> node.request index ≠ .queued ∨ cancelMayFail = true ->
      NodeStep cancelMayFail onLoop node (.examine .thief index) node [.unlock .thief index false]
  | stealDone {node} (index) :
      node.chunkState index = .doneInline ->
      NodeStep cancelMayFail onLoop node (.examine .thief index) node [.unlock .thief index false]
  | queuePending {node} (index) :
      node.chunkState index = .pending ->
      NodeStep cancelMayFail onLoop node (.examine .queuer index) node [.addRef index]
  | queueStolen {node} (index) :
      node.chunkState index ≠ .pending ->
      NodeStep cancelMayFail onLoop node (.examine .queuer index) node [.unlock .queuer index false]
  | addRef {node} (index) :
      NodeStep cancelMayFail onLoop node (.addRef index) { node with refs := node.refs + 1 } [.submit index]
  | submit {node} (index) :
      NodeStep cancelMayFail onLoop node (.submit index) (node.setRequest index .queued) [.mark index]
  | submitFails {node} (index) :
      NodeStep cancelMayFail onLoop node (.submit index) (node.setRequest index .refused) [.takeBack index]
  | mark {node} (index) :
      NodeStep cancelMayFail onLoop node (.mark index) (node.setState index .queued) [.unlock .queuer index false]
  | takeBack {node} (index) :
      NodeStep cancelMayFail onLoop node (.takeBack index) { node with refs := node.refs - 1 } [.markInline index]
  | markInline {node} (index) :
      NodeStep cancelMayFail onLoop node (.markInline index) (node.setState index .doneInline)
        [.unlock .queuer index true]
  | wait {node} :
      node.latch = 0 -> NodeStep cancelMayFail onLoop node .wait node [.release .caller]
  | release {node} (owner) :
      node.refs ≠ 1 ->
      NodeStep cancelMayFail onLoop node (.release owner) { node with refs := node.refs - 1 } [.finished owner]
  | releaseLast {node} (owner) :
      node.refs = 1 ->
      NodeStep cancelMayFail onLoop node (.release owner) { node with refs := node.refs - 1 } [.delete owner]
  | delete {node} (owner) :
      NodeStep cancelMayFail onLoop node (.delete owner) { node with deletions := node.deletions + 1 }
        [.finished owner]
  | finished {node} (owner) :
      NodeStep cancelMayFail onLoop node (.finished owner) node []

variable {Thread : Type} (program : Program) (role : Thread -> Role)

/-- A step of the frame on top of a thread. -/
inductive LibuvStep : Stacked.FrameStep Thread Frame Shared
  | node {callStack thread shared} (call point node points) :
      NodeStep program.cancelMayFail (decide (role thread = .loop)) (shared.nodes call) point node points ->
      LibuvStep callStack thread shared (.spread call point) (shared.onNode call node) (points.map (Frame.spread call))
  /-- a call without iterations -/
  | callEmpty {callStack thread shared} (frame : Frame) :
      frame.mayCall = true ->
      LibuvStep callStack thread shared frame (shared.begin_ .blank)
        [.spread shared.nextCall (.finished .caller), frame]
  /-- a call without a loop, with a single chunk, or when there is no memory -/
  | callSerial {callStack thread shared} (frame : Frame) (iterations : BitVec 32) :
      frame.mayCall = true -> iterations ≠ 0 ->
      LibuvStep callStack thread shared frame (shared.begin_ (.serial iterations))
        [.spread shared.nextCall (.executing .serial 0 .running), frame]
  | callParallel {callStack thread shared} (frame : Frame) (iterations : BitVec 32) (address) :
      frame.mayCall = true -> program.bound = true -> 1 < (program.numChunks iterations).toNat ->
      (forall call, call < shared.nextCall -> shared.live call -> shared.address call ≠ address) ->
      LibuvStep callStack thread shared frame
        { shared.begin_ (.create program iterations) with
          address := Function.update shared.address shared.nextCall address
          resident := Function.update shared.resident address shared.nextCall }
        [.spread shared.nextCall (.publish ((program.numChunks iterations).toNat - 1) .created), frame]
  | loadHead {callStack thread shared} (call queuedChunks) :
      LibuvStep callStack thread shared (.spread call (.publish queuedChunks .loadHead)) shared
        [.spread call (.publish queuedChunks (.link shared.pending))]
  | push {callStack thread shared} (call queuedChunks expected) :
      shared.pending = expected ->
      LibuvStep callStack thread shared (.spread call (.publish queuedChunks (.push expected)))
        { shared.onNode call { shared.nodes call with listed := (shared.nodes call).listed + 1 } with
          pending := some (shared.address call)
          chain := call :: shared.chain }
        [.spread call (.publish queuedChunks .send)]
  /-- the `compare_exchange_weak` fails, possibly spuriously -/
  | pushFails {callStack thread shared} (call queuedChunks expected) :
      LibuvStep callStack thread shared (.spread call (.publish queuedChunks (.push expected))) shared
        [.spread call (.publish queuedChunks (.link shared.pending))]
  | send {callStack thread shared} (call queuedChunks) :
      LibuvStep callStack thread shared (.spread call (.publish queuedChunks .send)) { shared with async := true }
        [.spread call (.publish queuedChunks .tail)]
  /-- the loop or the pool runs something else -/
  | task {callStack thread shared} (frame : Frame) :
      frame = .worker ∨ frame = .loop -> LibuvStep callStack thread shared frame shared [.task, frame]
  | taskReturns {callStack thread shared} :
      LibuvStep callStack thread shared .task shared []
  | dequeue {callStack thread shared} (call index) :
      (shared.nodes call).request index = .queued ->
      LibuvStep callStack thread shared .worker
        (shared.onNode call ((shared.nodes call).setRequest index .started))
        [.spread call (.executing .pool index .running), .worker]
  /-- `spread_after_cb` -/
  | report {callStack thread shared} (call index) :
      (shared.nodes call).request index = .done ->
      LibuvStep callStack thread shared .loop
        (shared.onNode call ((shared.nodes call).setRequest index .reported))
        [.spread call (.release .callback), .loop]
  /-- the loop serves the `uv_async_send` -/
  | serve {callStack thread shared} :
      shared.async = true ->
      LibuvStep callStack thread shared .loop { shared with async := false } [.exchange, .loop]
  | exchange {callStack thread shared} :
      LibuvStep callStack thread shared .exchange
        { shared with
          pending := none
          chain := [] }
        [.drain shared.pending shared.chain]
  /-- `node->next` is read before the node is given away -/
  | drain {callStack thread shared} (address chain) :
      LibuvStep callStack thread shared (.drain (some address) chain)
        (shared.onNode (shared.resident address)
          { shared.nodes (shared.resident address) with
            listed := (shared.nodes (shared.resident address)).listed - 1
            handed := (shared.nodes (shared.resident address)).handed + 1 })
        [.spread (shared.resident address) (.queue (shared.nodes (shared.resident address)).count 0),
          .drain (shared.nodes (shared.resident address)).next chain.tail]
  | drained {callStack thread shared} (chain) :
      LibuvStep callStack thread shared (.drain none chain) shared []

/-- Any number of calls, from any number of threads of each kind. -/
def libuvSystem [DecidableEq Thread] : System (Stacked Thread Frame Shared) where
  initial := fun state => state = ⟨.fresh, fun thread => [(role thread).frame]⟩
  step := Stacked.Step (LibuvStep program role)

end Libuv
end Sweater
