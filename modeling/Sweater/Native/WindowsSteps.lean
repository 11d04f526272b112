import Sweater.Interleaving.CallStacks
import Sweater.Native.Spread

namespace Sweater
namespace Native
namespace Windows

open Threading
open Spread
open Interleaving

/-!
# The Windows spread, one operation at a time

`windows::shop::spread_the_sweat` hands its chunks to the thread pool of the
system one after another, runs those that the pool refuses, and waits for a
latch that counts the chunks down.  The contexts of the chunks and the latch are
on the stack of the caller.

A call is named by a number.  Any number of threads call `spread_the_sweat`,
also from inside the user's function, and a thread of the pool runs one callback
at a time.  The pool may refuse a submission for any reason, and it starts
queued callbacks in any order.

What has become of a chunk that is not queued is recorded for the proofs, and so
are the calls of the user's function.
-/

/-- The build and the machine. -/
structure Build where
  concurrency : HardwareConcurrency
  /-- `number_of_workers()` -/
  numWorkers : BitVec concurrency.bits
  staffed : numWorkers ≠ 0

inductive ChunkStage
  | unsubmitted
  /-- in the queue of the pool -/
  | queued
  /-- inside the user's function -/
  | running
  /-- before the `count_down()` -/
  | leaving
  | counted
  deriving DecidableEq, Repr

/-- A call of `spread_the_sweat`: its latch, and its contexts. -/
structure SpreadCall where
  iterations : BitVec 32
  /-- `num_chunks` -/
  chunks : Nat
  latch : Int
  stage : Nat -> ChunkStage
  /-- the chunks that the user's function has returned for -/
  ran : List Nat

namespace SpreadCall

/-- No call yet. -/
def blank : SpreadCall where
  iterations := 0
  chunks := 0
  latch := 0
  stage := fun _ => .unsubmitted
  ran := []

def create (build : Build) (iterations : BitVec 32) : SpreadCall :=
  { blank with
    iterations := iterations
    chunks := (numChunks iterations build.numWorkers).toNat
    latch := (numChunks iterations build.numWorkers).toNat }

def setStage (spread : SpreadCall) (index : Nat) (stage : ChunkStage) : SpreadCall :=
  { spread with stage := Function.update spread.stage index stage }

/-- `start` and `end` in the context of a chunk -/
def range (build : Build) (spread : SpreadCall) (index : Nat) : Chunk :=
  (chunkedSpread spread.iterations (numChunks spread.iterations build.numWorkers)).chunkRange
    (BitVec.ofNat build.concurrency.bits index)

end SpreadCall

/-- Who runs a chunk. -/
inductive Host
  | caller
  | pool
  deriving DecidableEq, Repr

/-- Inside the call of the user's function, or before the `count_down()`. -/
inductive Phase
  | running
  | leaving
  deriving DecidableEq, Repr

inductive Point
  /-- before `TrySubmitThreadpoolCallback` -/
  | submit (index : Nat)
  | executing (host : Host) (index : Nat) (phase : Phase)
  /-- inside `sync.wait()` -/
  | wait
  | finished
  deriving DecidableEq, Repr

/-- The head of the loop over the chunks. -/
def Point.head (chunks index : Nat) : Point :=
  if index < chunks then submit index else wait

/-- A step on one call.  The points take the place of the first one. -/
inductive PointStep : SpreadCall -> Point -> SpreadCall -> List Point -> Prop
  | submitted {spread} (index) :
      PointStep spread (.submit index) (spread.setStage index .queued) [.head spread.chunks (index + 1)]
  /-- the pool is exhausted -/
  | refused {spread} (index) :
      PointStep spread (.submit index) (spread.setStage index .running) [.executing .caller index .running]
  | ran {spread} (host index) :
      PointStep spread (.executing host index .running)
        { spread.setStage index .leaving with ran := spread.ran ++ [index] } [.executing host index .leaving]
  | countDown {spread} (index) :
      PointStep spread (.executing .caller index .leaving)
        { spread.setStage index .counted with latch := spread.latch - 1 } [.head spread.chunks (index + 1)]
  | countDownLast {spread} (index) :
      PointStep spread (.executing .pool index .leaving)
        { spread.setStage index .counted with latch := spread.latch - 1 } []
  | wait {spread} :
      spread.latch = 0 -> PointStep spread .wait spread [.finished]
  | finished {spread} :
      PointStep spread .finished spread []

/-- The top of a stack is what the thread is doing. -/
inductive Frame
  /-- code of the program outside the shop -/
  | outside
  /-- an idle thread of the pool -/
  | worker
  /-- a callback of the pool that is none of a spread -/
  | task
  | spread (call : Nat) (point : Point)
  deriving DecidableEq, Repr

/-- Only user code calls into the shop. -/
def Frame.mayCall : Frame -> Bool
  | outside => true
  | task => true
  | spread _ (.executing _ _ .running) => true
  | _ => false

structure Shared where
  spreads : Nat -> SpreadCall
  nextCall : Nat

namespace Shared

def fresh : Shared where
  spreads := fun _ => .blank
  nextCall := 0

def onSpread (shared : Shared) (call : Nat) (spread : SpreadCall) : Shared :=
  { shared with spreads := Function.update shared.spreads call spread }

/-- A new call. -/
def begin_ (shared : Shared) (spread : SpreadCall) : Shared :=
  { shared.onSpread shared.nextCall spread with nextCall := shared.nextCall + 1 }

end Shared

variable {Thread : Type} (build : Build)

/-- A step of the frame on top of a thread. -/
inductive WindowsStep : Stacked.FrameStep Thread Frame Shared
  | point {callStack thread shared} (call point spread points) :
      PointStep (shared.spreads call) point spread points ->
      WindowsStep callStack thread shared (.spread call point) (shared.onSpread call spread) (points.map (Frame.spread call))
  /-- a call without iterations -/
  | callEmpty {callStack thread shared} (frame : Frame) :
      frame.mayCall = true ->
      WindowsStep callStack thread shared frame (shared.begin_ .blank) [.spread shared.nextCall .finished, frame]
  | call {callStack thread shared} (frame : Frame) (iterations : BitVec 32) :
      frame.mayCall = true -> iterations ≠ 0 ->
      WindowsStep callStack thread shared frame (shared.begin_ (.create build iterations))
        [.spread shared.nextCall (.submit 0), frame]
  | callback {callStack thread shared} (call index) :
      (shared.spreads call).stage index = .queued ->
      WindowsStep callStack thread shared .worker
        (shared.onSpread call ((shared.spreads call).setStage index .running))
        [.spread call (.executing .pool index .running), .worker]
  /-- the pool runs something else -/
  | task {callStack thread shared} :
      WindowsStep callStack thread shared .worker shared [.task, .worker]
  | taskReturns {callStack thread shared} :
      WindowsStep callStack thread shared .task shared []

/-- Any number of calls, from any number of threads; some are those of the pool. -/
def windowsSystem [DecidableEq Thread] (inPool : Thread -> Bool) : System (Stacked Thread Frame Shared) where
  initial := fun state => state = ⟨.fresh, fun thread => [if inPool thread then .worker else .outside]⟩
  step := Stacked.Step (WindowsStep build)

end Windows
end Native
end Sweater
