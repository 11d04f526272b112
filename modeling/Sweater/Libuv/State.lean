import Sweater.Interleaving.CallStacks
import Sweater.Spread.Chunked

namespace Sweater
namespace Libuv

open Threading
open Spread
open Interleaving

/-!
# The libuv shop: nodes, requests and program points

The state that the threads of a program share through `spread_impl`,
`queue_chunks`, the callbacks of libuv and `on_spread_async`.

A call of `spread_impl` is named by a number, and so is its node.  The pointers
that the code keeps in `pending_` and in `next` are addresses, and the address
of a freed node may be given to a new one.

Of libuv there are the states of the requests.  A request that has been queued
is started once by a worker or cancelled, and is reported once on the loop
thread in both cases.

The calls of the user's function that have returned, the chunks counted down,
the handovers to `queue_chunks`, the deletions and the members of the lists of
nodes are recorded for the proofs only.
-/

/-- The build and the environment. -/
structure Program where
  concurrency : HardwareConcurrency
  /-- `number_of_workers()` -/
  workers : BitVec concurrency.bits
  /-- `loop_` is not null -/
  bound : Bool
  /-- whether `uv_cancel` may fail although no worker has dequeued the request -/
  cancelMayFail : Bool

/-- `std::min` -/
def least (first second : BitVec 32) : BitVec 32 := if second < first then second else first

/-- `num_chunks` -/
def Program.numChunks (program : Program) (iterations : BitVec 32) : BitVec 32 :=
  least (least iterations (BitVec.ofNat 32 (4 * program.workers.toNat)))
    (BitVec.ofNat 32 (2 ^ program.concurrency.bits - 1))

/-! ## Nodes -/

inductive ChunkState
  | pending
  | queued
  | doneInline
  deriving DecidableEq, Repr

/-- What libuv knows about a `uv_work_t`. -/
inductive Request
  | idle
  /-- `uv_queue_work` has failed -/
  | refused
  /-- in the queue of the pool -/
  | queued
  /-- dequeued by a worker -/
  | started
  /-- finished or cancelled, and not yet reported on the loop thread -/
  | done
  /-- the after-work callback has been called -/
  | reported
  deriving DecidableEq, Repr

/-- The after-work callback is still to come. -/
def Request.outstanding : Request -> Bool
  | idle => false
  | refused => false
  | queued => true
  | started => true
  | done => true
  | reported => false

/-- A call of `spread_impl`: its `spread_node`, and the latch on its stack. -/
structure Node where
  iterations : BitVec 32
  /-- `num_chunks` -/
  chunks : Nat
  /-- whether there are a node and a latch -/
  parallel : Bool
  /-- `chunk_range`, or everything in a serial call -/
  range : Nat -> Chunk
  next : Option Nat
  count : Nat
  refs : BitVec 32
  lock : Bool
  chunkState : Nat -> ChunkState
  request : Nat -> Request
  latch : Int
  /-- the chunks that the user's function has been called for -/
  calls : List Nat
  counted : List Nat
  /-- how often the node is in a list of nodes -/
  listed : Nat
  /-- how often the node has been handed to `queue_chunks` -/
  handed : Nat
  deletions : Nat

namespace Node

/-- No call yet. -/
def blank : Node where
  iterations := 0
  chunks := 0
  parallel := false
  range := fun _ => ⟨0, 0⟩
  next := none
  count := 0
  refs := 0
  lock := false
  chunkState := fun _ => .pending
  request := fun _ => .idle
  latch := 0
  calls := []
  counted := []
  listed := 0
  handed := 0
  deletions := 0

/-- A call that runs everything in one piece. -/
def serial (iterations : BitVec 32) : Node :=
  { blank with
    iterations := iterations
    chunks := 1
    range := fun _ => ⟨0, iterations⟩ }

/-- `create( queued_chunks )`, with the latch and the bundles filled. -/
def create (program : Program) (iterations : BitVec 32) : Node :=
  { blank with
    iterations := iterations
    chunks := (program.numChunks iterations).toNat
    parallel := true
    range := fun index =>
      (chunkedSpread iterations (program.numChunks iterations)).chunkRange
        (BitVec.ofNat program.concurrency.bits index)
    count := (program.numChunks iterations).toNat - 1
    refs := 2
    latch := (program.numChunks iterations).toNat }

def setState (node : Node) (index : Nat) (state : ChunkState) : Node :=
  { node with chunkState := Function.update node.chunkState index state }

def setRequest (node : Node) (index : Nat) (request : Request) : Node :=
  { node with request := Function.update node.request index request }

/-- The user's function has returned. -/
def called (node : Node) (index : Nat) : Node :=
  { node with calls := node.calls ++ [index] }

/-- `count_down()` -/
def countDown (node : Node) (index : Nat) : Node :=
  { node with
    latch := node.latch - 1
    counted := node.counted ++ [index] }

end Node

/-! ## Program points -/

/-- The two loops over the bundles. -/
inductive Claimer
  /-- the steal-back pass of `spread_impl` -/
  | thief
  /-- `queue_chunks` -/
  | queuer
  deriving DecidableEq, Repr

/-- Who runs a chunk. -/
inductive Host
  | serial
  | tail
  | claimer (claimer : Claimer)
  | pool
  deriving DecidableEq, Repr

/-- Who holds a reference. -/
inductive Owner
  | caller
  | queuer
  | callback
  deriving DecidableEq, Repr

/-- Up to the tail chunk in `spread_impl`. -/
inductive PublishPoint
  /-- before `uv_thread_equal` -/
  | created
  /-- before `pending_.load()` -/
  | loadHead
  /-- before `node->next = expected` -/
  | link (expected : Option Nat)
  /-- before the `compare_exchange_weak` -/
  | push (expected : Option Nat)
  /-- before `uv_async_send` -/
  | send
  | tail
  deriving DecidableEq, Repr

/-- Inside the call of the user's function, or before the `count_down()`. -/
inductive Phase
  | running
  | leaving
  deriving DecidableEq, Repr

/-- A program point that works on one node. -/
inductive Point
  | publish (queuedChunks : Nat) (point : PublishPoint)
  /-- before the acquisition of the lock for a bundle -/
  | lock (claimer : Claimer) (index : Nat)
  /-- with the lock, before the test of `state` -/
  | examine (claimer : Claimer) (index : Nat)
  /-- before the release of the lock -/
  | unlock (claimer : Claimer) (index : Nat) (runInline : Bool)
  /-- before `refs.fetch_add( 1 )` -/
  | addRef (index : Nat)
  /-- before `uv_queue_work` -/
  | submit (index : Nat)
  /-- before `state = chunk_queued` -/
  | mark (index : Nat)
  /-- before `refs.fetch_sub( 1 )` after a failed `uv_queue_work` -/
  | takeBack (index : Nat)
  /-- before `state = chunk_done_inline` -/
  | markInline (index : Nat)
  | executing (host : Host) (index : Nat) (phase : Phase)
  /-- back in the worker thread of libuv -/
  | finish (index : Nat)
  /-- inside `sync.wait()` -/
  | wait
  /-- before the `fetch_sub` of `release` -/
  | release (owner : Owner)
  /-- before the deletion -/
  | delete (owner : Owner)
  | finished (owner : Owner)
  deriving DecidableEq, Repr

namespace Point

/-- The steal-back pass, with so many bundles before it. -/
def steal : Nat -> Point
  | 0 => wait
  | index + 1 => lock .thief index

/-- The loop of `queue_chunks`. -/
def queue (count index : Nat) : Point :=
  if index < count then lock .queuer index else release .queuer

/-- Where a loop over the bundles goes on after a bundle. -/
def next (count index : Nat) : Claimer -> Point
  | .thief => steal index
  | .queuer => queue count (index + 1)

/-- Where the thread goes on after running a chunk. -/
def resume (count index : Nat) : Host -> Point
  | .serial => finished .caller
  | .tail => steal index
  | .claimer claimer => next count index claimer
  | .pool => finish index

end Point

/-- The top of a stack is what the thread is doing. -/
inductive Frame
  /-- code of the program outside the shop -/
  | outside
  /-- a callback or a task of the program -/
  | task
  /-- an idle worker of the pool -/
  | worker
  /-- the event loop -/
  | loop
  /-- `on_spread_async`, before the exchange -/
  | exchange
  /-- `on_spread_async`: the pointer, and the nodes that it leads to -/
  | drain (node : Option Nat) (chain : List Nat)
  | spread (call : Nat) (point : Point)

/-- Only user code calls into the shop. -/
def Frame.mayCall : Frame -> Bool
  | outside => true
  | task => true
  | spread _ (.executing _ _ .running) => true
  | _ => false

/-- The threads of the program. -/
inductive Role
  | external
  | worker
  | loop
  deriving DecidableEq, Repr

def Role.frame : Role -> Frame
  | external => .outside
  | worker => .worker
  | loop => .loop

/-! ## What the threads share -/

structure Shared where
  nodes : Nat -> Node
  nextCall : Nat
  /-- `pending_` -/
  pending : Option Nat
  /-- the nodes that `pending_` leads to -/
  chain : List Nat
  /-- an `uv_async_send` that has not been served -/
  async : Bool
  /-- the address of a node -/
  address : Nat -> Nat
  /-- the node made last at an address -/
  resident : Nat -> Nat

namespace Shared

def fresh : Shared where
  nodes := fun _ => .blank
  nextCall := 0
  pending := none
  chain := []
  async := false
  address := fun _ => 0
  resident := fun _ => 0

def onNode (shared : Shared) (call : Nat) (node : Node) : Shared :=
  { shared with nodes := Function.update shared.nodes call node }

/-- A new call. -/
def begin_ (shared : Shared) (node : Node) : Shared :=
  { shared.onNode shared.nextCall node with nextCall := shared.nextCall + 1 }

/-- The node of a call has not been freed. -/
def live (shared : Shared) (call : Nat) : Prop :=
  (shared.nodes call).parallel = true ∧ (shared.nodes call).deletions = 0

end Shared

end Libuv
end Sweater
