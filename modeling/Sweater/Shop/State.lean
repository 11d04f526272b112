import Sweater.Interleaving.CallStacks
import Sweater.Spread.Plan
import Sweater.Threading.Barrier

namespace Sweater
namespace Shop

open Threading
open Spread
open Interleaving

/-!
# The generic shop: queue, counters and program points

The state that the threads of a program share through any number of generic
shops, and the program points of `worker_loop_impl`, `create_fire_and_destroy`,
`spread_work` and `stop_and_destroy_pool` between two atomic operations.

The queue is linearizable, and is the list of its entries.  The event of a
worker is the counting semaphore that `futex_semaphore.cpp` refines.  User code
may call into any shop while it runs, from a worker, from a caller that
executes its own chunk or from a caller that has stolen somebody else's item;
such calls are frames on top of the frame that runs the user code.

Some components are recorded for the proofs only: what has been created,
invoked, finished and retired, and which items were counted and accepted.
-/

/-- The platform and the number of worker threads of each shop. -/
structure Program (Shop : Type) where
  concurrency : HardwareConcurrency
  barrierKind : BarrierKind
  /-- the width of `std::size_t` -/
  sizeBits : Nat
  singleCorePlatform : Bool
  /-- whether the queue may refuse an item for want of memory -/
  enqueueMayFail : Bool
  workerThreads : Shop -> BitVec concurrency.bits

namespace Program

variable {Shop : Type} (program : Program Shop)

/-- The width of `hardware_concurrency_t`. -/
abbrev bits : Nat := program.concurrency.bits

/-- The width of the counter of a barrier. -/
abbrev counterBits : Nat := program.barrierKind.counterBits program.concurrency

/-- `number_of_worker_threads()` -/
def workers (shop : Shop) : Nat := (program.workerThreads shop).toNat

end Program

/-! ## Work -/

/-- One part of a spread: the call it belongs to, its chunk, and a serial
number that identifies it. -/
structure Part where
  serial : Nat
  call : Nat
  chunk : Chunk
  deriving DecidableEq

/-- A `work_t`: a fired item or a part of a spread. -/
inductive Work
  | item (serial : Nat)
  | part (part : Part)
  deriving DecidableEq

namespace Work

/-- Works are numbered in the order of their creation. -/
def serial : Work -> Nat
  | item serial => serial
  | part piece => piece.serial

/-- A part of the given call. -/
def ofCall (call : Nat) : Work -> Bool
  | item _ => false
  | part piece => piece.call == call

def isItem : Work -> Bool
  | item _ => true
  | part _ => false

end Work

/-- The parts made from consecutive chunks. -/
def partsOf (call serial : Nat) : List Chunk -> List Part
  | [] => []
  | chunk :: rest => ⟨serial, call, chunk⟩ :: partsOf call (serial + 1) rest

/-- A queued work, and the worker whose producer token it was queued with. -/
structure Entry (Shop : Type) where
  shop : Shop
  token : Option Nat
  work : Work

/-! ## Program points -/

/-- Between taking a work and leaving its functor. -/
inductive Phase
  /-- before `work()` -/
  | fetched
  /-- inside the user code -/
  | running
  /-- before `arrive()`, or before `in_flight_dec()` -/
  | leaving
  deriving DecidableEq

/-- `worker_loop_impl` -/
inductive WorkerPoint
  /-- before `dequeue_from_producer` -/
  | drainOwn
  /-- before `dequeue` -/
  | drainAll
  /-- before `work_completed()` in the first or in the second loop -/
  | completing (own : Bool)
  /-- before `exit.load()` -/
  | checkExit
  /-- inside `work_event.wait()` -/
  | sleeping
  /-- before `number_of_items()` -/
  | woken
  /-- `propagate_spread_wake`, before the notification of a child -/
  | wakeLeft
  | wakeRight
  | exited
  deriving DecidableEq

/-- `create_fire_and_destroy` -/
inductive FirePoint
  /-- `next_dispatch_target`, before the load of `dispatch_rotor_` -/
  | loadRotor
  /-- before `event_.pending()` -/
  | testBacklog (rotor : BitVec 32)
  /-- before `dispatch_rotor_.fetch_add( 1 )` -/
  | advanceRotor
  /-- before `queue.enqueue` with the token of the target -/
  | enqueue (target : Nat)
  /-- before `notify()` -/
  | notify (target : Nat) (enqueueSucceeded : Bool)
  /-- `work_added`, before `work_items_.fetch_add` -/
  | addItem (enqueueSucceeded : Bool)
  /-- before `in_flight_inc()` -/
  | countInFlight
  | finished (enqueueSucceeded : Bool)
  deriving DecidableEq

/-- `spread_work` -/
inductive SpreadPoint (bits : Nat)
  /-- before `number_of_items()` -/
  | loadItems
  /-- before the load of `spread_work_stealing_division` -/
  | loadDivision (itemsInShop : BitVec bits)
  /-- `dispatch_workers`: before `add_expected_arrival()` for the next slice of
  a part, or before the `enqueue_bulk` of the part -/
  | registerSlice (worker : Nat) (first : Bool) (registered : List Part) (slices : List Chunk)
      (rest : List (Dispatch bits))
  /-- before `work_added_untracked()` for the slice registered last -/
  | countSlice (worker : Nat) (first : Bool) (registered : List Part) (slices : List Chunk)
      (rest : List (Dispatch bits))
  /-- before `notify()` of the worker of the first part -/
  | notifyRoot (worker : Nat) (rest : List (Dispatch bits))
  /-- before `work_added_untracked( number_of_dispatched_work_parts )` -/
  | countParts (chunks : List Chunk)
  /-- before `initialize( number_of_dispatched_work_parts )` -/
  | initializeBarrier (chunks : List Chunk)
  /-- before the `enqueue_bulk` of all parts -/
  | enqueueParts (parts : List Part)
  /-- `wake_all_workers` -/
  | notifyAll (worker : Nat)
  /-- before `initialize( 0 )` after a refused bulk -/
  | resetBarrier (parts : List Part)
  /-- before `initialize( 0 )` without dispatched parts -/
  | initializeEmpty
  /-- `perform_caller_work`, before `add_expected_arrival()` -/
  | callerRegister
  /-- before `work_added_untracked()` -/
  | callerCount (part : Part)
  /-- before `work_completed()` -/
  | callerCompleting
  /-- before `queue_.empty()` -/
  | testQueue
  /-- before the `dequeue` of the stealing loop -/
  | steal
  | stealCompleting
  /-- before `everyone_arrived()` -/
  | join
  /-- inside `spin_wait` -/
  | spinning
  /-- before the load of `spread_work_stealing_division` after a stall -/
  | stalled
  /-- before the exchange by `current + 1` -/
  | raiseDivision (current : BitVec 8)
  /-- inside `completion_barrier.wait()` -/
  | waiting
  | finished

/-- The values that a call of `spread_work` keeps. -/
structure SpreadLocals where
  iterations : BitVec 32
  parallelizable : BitVec 32
  callerEnd : BitVec 32
  queueAndWait : Bool
  /-- the caller does everything and returns without joining -/
  immediate : Bool
  enqueueSucceeded : Bool
  deriving DecidableEq

/-- `stop_and_destroy_pool` -/
inductive StopPoint
  /-- before `brexit_.store( true )` -/
  | store
  /-- `wake_all_workers` -/
  | notifyAll (worker : Nat)
  | joinAll (worker : Nat)
  | finished
  deriving DecidableEq

/-- Who executes a work, and where it goes on afterwards. -/
inductive Host (Shop : Type)
  | worker (shop : Shop) (index : Nat) (own : Bool)
  | caller (shop : Shop) (call : Nat) (locals : SpreadLocals)
  | thief (shop : Shop) (call : Nat) (locals : SpreadLocals)

inductive Frame (Shop : Type) (bits : Nat)
  /-- code of the program outside any shop -/
  | outside
  | worker (shop : Shop) (index : Nat) (point : WorkerPoint)
  | executing (host : Host Shop) (work : Work) (phase : Phase)
  | fire (shop : Shop) (serial : Nat) (point : FirePoint)
  | spread (shop : Shop) (call : Nat) (locals : SpreadLocals) (point : SpreadPoint bits)
  /-- the list has the items accepted by this shop before the call -/
  | stop (shop : Shop) (accepted : List Nat) (point : StopPoint)

/-- Where a thread goes on when a work has been left. -/
def Host.resume {Shop : Type} {bits : Nat} : Host Shop -> Frame Shop bits
  | .worker shop index own => .worker shop index (.completing own)
  | .caller shop call locals => .spread shop call locals .callerCompleting
  | .thief shop call locals => .spread shop call locals .stealCompleting

def Host.shop {Shop : Type} : Host Shop -> Shop
  | .worker shop _ _ => shop
  | .caller shop _ _ => shop
  | .thief shop _ _ => shop

namespace Frame

variable {Shop : Type} {bits : Nat}

/-- Only user code calls into a shop. -/
def mayCall : Frame Shop bits -> Bool
  | outside => true
  | executing _ _ .running => true
  | _ => false

/-- The shop that a frame is working for. -/
def shop : Frame Shop bits -> Option Shop
  | outside => none
  | worker shop _ _ => some shop
  | executing host _ _ => some host.shop
  | fire shop _ _ => some shop
  | spread shop _ _ _ => some shop
  | stop shop _ _ => some shop

end Frame

/-! ## What the threads share -/

structure Shared {Shop : Type} (program : Program Shop) where
  queue : List (Entry Shop)
  /-- the completion barrier of each call -/
  barrier : Nat -> Barrier program.counterBits
  workItems : Shop -> BitVec program.bits
  /-- `g_in_flight` -/
  inFlight : BitVec program.sizeBits
  /-- the tokens of the event of each worker -/
  tokens : Shop -> Nat -> Nat
  rotor : Shop -> BitVec 32
  /-- `spread_work_stealing_division` -/
  division : BitVec 8
  brexit : Shop -> Bool
  exited : Shop -> Nat -> Bool
  /-- the destructor of the shop has been called -/
  stopping : Shop -> Bool
  nextCall : Nat
  created : List Work
  invoked : List Work
  finished : List Work
  /-- works whose arrival or decrement has been made -/
  retired : List Work
  /-- works that the queue refused, while their arrival stays expected -/
  lost : List Work
  /-- works that the queue refused, and that nobody expects any more -/
  dropped : List Work
  /-- items counted by `in_flight_inc()` -/
  counted : List Nat
  /-- items whose accepting call has returned true -/
  accepted : List (Shop × Nat)

namespace Shared

variable {Shop : Type} {program : Program Shop}

/-- Fresh shops, of which nothing has been asked. -/
def fresh : Shared program where
  queue := []
  barrier := fun _ => Barrier.construct (0 : BitVec program.bits)
  workItems := fun _ => 0
  inFlight := 0
  tokens := fun _ _ => 0
  rotor := fun _ => 0
  division := BitVec.ofNat 8 stealingDivisionMin
  brexit := fun _ => false
  exited := fun _ _ => false
  stopping := fun _ => false
  nextCall := 0
  created := []
  invoked := []
  finished := []
  retired := []
  lost := []
  dropped := []
  counted := []
  accepted := []

variable [DecidableEq Shop]

/-- `notify()` of one worker. -/
def signal (shared : Shared program) (shop : Shop) (worker : Nat) : Shared program :=
  { shared with
    tokens := Function.update shared.tokens shop
      (Function.update (shared.tokens shop) worker (shared.tokens shop worker + 1)) }

/-- `wait()` of one worker takes a token. -/
def consume (shared : Shared program) (shop : Shop) (worker : Nat) : Shared program :=
  { shared with
    tokens := Function.update shared.tokens shop
      (Function.update (shared.tokens shop) worker (shared.tokens shop worker - 1)) }

/-- `work_items_.fetch_add( items )` -/
def addItems (shared : Shared program) (shop : Shop) (items : BitVec program.bits) : Shared program :=
  { shared with workItems := Function.update shared.workItems shop (shared.workItems shop + items) }

/-- `work_completed()` -/
def completeItem (shared : Shared program) (shop : Shop) : Shared program :=
  { shared with workItems := Function.update shared.workItems shop (shared.workItems shop - 1) }

omit [DecidableEq Shop] in
/-- An operation on the completion barrier of a call. -/
def onBarrier (shared : Shared program) (call : Nat)
    (operation : Barrier program.counterBits -> Barrier program.counterBits) : Shared program :=
  { shared with barrier := Function.update shared.barrier call (operation (shared.barrier call)) }

end Shared

end Shop
end Sweater
