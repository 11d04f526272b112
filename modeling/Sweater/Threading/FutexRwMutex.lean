import Sweater.Interleaving.Reachability
import Sweater.Interleaving.Census
import Sweater.Threading.Platform
import Sweater.Threading.RwWord

namespace Sweater
namespace Threading

open Interleaving

/-!
# The futex reader-writer lock, one atomic operation at a time

`futex_rw_mutex` and `reader_preferring_futex_rw_mutex` share one state word
and differ in the bits that keep a new reader out.  An `RwPoint` is the next
atomic operation of a thread.  A value observed earlier is kept at the point
together with the branch condition under which the code got there, so that a
point which the code cannot reach cannot be written down.

A thread may hold any number of read holds and may call every operation at any
time, except that it releases only what it holds.
-/

/-- The two admission policies. -/
inductive RwPreference
  | writerPreferring
  | readerPreferring
  deriving DecidableEq, Repr

/-- The bits that keep a new reader out. -/
def RwPreference.readerBlockingBits (preference : RwPreference) (width : Nat) : BitVec width :=
  match preference with
  | writerPreferring => RwWord.writerLockedBit width ||| RwWord.writerWaitingBit width
  | readerPreferring => RwWord.writerLockedBit width

open RwWord

/-- Where a thread is inside the operations of the lock. -/
inductive RwPoint (preference : RwPreference) (width : Nat)
  /-- outside every operation -/
  | idle
  /-- `acquire_ro_core`, before the load -/
  | roLoad
  /-- before the exchange by `observed + 1` -/
  | roEnter (observed : BitVec width)
      (admitted : observed &&& preference.readerBlockingBits width = 0#(width))
  /-- before the exchange by `observed | reader_parked_bit` -/
  | roAnnounce (observed : BitVec width)
      (closed : observed &&& preference.readerBlockingBits width ≠ 0#(width))
  /-- before `wait_if_equal( observed, reader_wait_bits )` -/
  | roPark (observed : BitVec width) (announced : observed &&& readerParkedBit width ≠ 0#(width))
  | roParked
  /-- `release_ro`, before the `fetch_sub` -/
  | roRelease
  /-- before `wake_all( writer_wait_bits )` -/
  | roWake
  /-- `acquire_rw`, before a load -/
  | rwLoad
  /-- before the exchange that takes the lock -/
  | rwTake (observed : BitVec width)
      (free : observed &&& (readerMask width ||| writerLockedBit width) = 0#(width))
  /-- before the exchange by `observed | writer_waiting_bit` -/
  | rwAnnounce (observed : BitVec width)
      (busy : observed &&& (readerMask width ||| writerLockedBit width) ≠ 0#(width))
  /-- before `wait_if_equal( observed, writer_wait_bits )` -/
  | rwPark (observed : BitVec width)
      (busy : observed &&& (readerMask width ||| writerLockedBit width) ≠ 0#(width))
      (announced : observed &&& writerWaitingBit width ≠ 0#(width))
  | rwParked
  /-- `release_rw`, before the exchange by zero -/
  | rwRelease
  /-- before `wake_all( either_wait_bits )` -/
  | rwWake
  /-- `try_acquire_ro_core`, before the load -/
  | tryRoLoad
  | tryRoEnter (observed : BitVec width)
      (admitted : observed &&& preference.readerBlockingBits width = 0#(width))
  /-- `try_acquire_rw`, before the load -/
  | tryRwLoad
  | tryRwTake (observed : BitVec width)
      (free : observed &&& (readerMask width ||| writerLockedBit width) = 0#(width))
  deriving DecidableEq

namespace RwPoint

variable {preference : RwPreference} {width : Nat}

/-- The body of the loop of `acquire_ro_core` after its load. -/
def roHead (observed : BitVec width) : RwPoint preference width :=
  if admitted : observed &&& preference.readerBlockingBits width = 0#(width) then
    roEnter observed admitted
  else if announced : observed &&& readerParkedBit width = 0#(width) then
    roAnnounce observed admitted
  else roPark observed announced

/-- The body of the loop of `acquire_rw` with the current `observed`. -/
def rwHead (observed : BitVec width) : RwPoint preference width :=
  if free : observed &&& (readerMask width ||| writerLockedBit width) = 0#(width) then
    rwTake observed free
  else if announced : observed &&& writerWaitingBit width = 0#(width) then
    rwAnnounce observed free
  else rwPark observed free announced

end RwPoint

/-- What a thread holds, and where it is. -/
structure RwThread (preference : RwPreference) (width : Nat) where
  reads : Nat
  writing : Bool
  point : RwPoint preference width
  deriving DecidableEq

namespace RwThread

variable {preference : RwPreference} {width : Nat}

def idle : RwThread preference width := ⟨0, false, .idle⟩

def goto (thread : RwThread preference width) (point : RwPoint preference width) :
    RwThread preference width :=
  { thread with point := point }

/-- A read hold more, and the operation returns. -/
def enter (thread : RwThread preference width) : RwThread preference width :=
  { thread with reads := thread.reads + 1, point := .idle }

def leave (thread : RwThread preference width) (point : RwPoint preference width) :
    RwThread preference width :=
  { thread with reads := thread.reads - 1, point := point }

/-- The write hold, and the operation returns. -/
def take (thread : RwThread preference width) : RwThread preference width :=
  { thread with writing := true, point := .idle }

def yield (thread : RwThread preference width) (point : RwPoint preference width) :
    RwThread preference width :=
  { thread with writing := false, point := point }

section Fields

variable (thread : RwThread preference width) (point : RwPoint preference width)

@[simp] theorem goto_reads : (thread.goto point).reads = thread.reads := rfl

@[simp] theorem goto_writing : (thread.goto point).writing = thread.writing := rfl

@[simp] theorem enter_reads : thread.enter.reads = thread.reads + 1 := rfl

@[simp] theorem enter_writing : thread.enter.writing = thread.writing := rfl

@[simp] theorem leave_reads : (thread.leave point).reads = thread.reads - 1 := rfl

@[simp] theorem leave_writing : (thread.leave point).writing = thread.writing := rfl

@[simp] theorem take_reads : thread.take.reads = thread.reads := rfl

@[simp] theorem take_writing : thread.take.writing = true := rfl

@[simp] theorem yield_reads : (thread.yield point).reads = thread.reads := rfl

@[simp] theorem yield_writing : (thread.yield point).writing = false := rfl

end Fields

/-- The number of write holds, for counting. -/
def writes (thread : RwThread preference width) : Nat := thread.writing.toNat

end RwThread

/-! ## Waking by category -/

/-- `reader_wait_bits` -/
def readerWaitBits : Nat := 0b01

/-- `writer_wait_bits` -/
def writerWaitBits : Nat := 0b10

/-- `either_wait_bits` -/
def eitherWaitBits : Nat := readerWaitBits ||| writerWaitBits

/-- Whether a `wake_all` reaches a thread that listens to the given bits. -/
def FutexBackend.reaches (backend : FutexBackend) (wakeBitset listenBits : Nat) : Bool :=
  !backend.filtersBitsets || decide (listenBits &&& wakeBitset ≠ 0)

/-- `wake_all( wakeBitset )` as one parked thread experiences it. -/
def RwThread.unpark {preference : RwPreference} {width : Nat} (backend : FutexBackend)
    (wakeBitset : Nat) (thread : RwThread preference width) : RwThread preference width :=
  match thread.point with
  | .roParked => if backend.reaches wakeBitset readerWaitBits then thread.goto .roLoad else thread
  | .rwParked => if backend.reaches wakeBitset writerWaitBits then thread.goto .rwLoad else thread
  | _ => thread

/-! ## Steps -/

structure RwState (Thread : Type) (preference : RwPreference) (width : Nat) where
  word : BitVec width
  threads : Thread -> RwThread preference width

namespace RwState

variable {Thread : Type} {preference : RwPreference} {width : Nat}

/-- A dormant lock that no thread uses. -/
def dormant : RwState Thread preference width := ⟨0#(width), fun _ => .idle⟩

variable [DecidableEq Thread]

def goto (state : RwState Thread preference width) (thread : Thread)
    (point : RwPoint preference width) : RwState Thread preference width :=
  { state with
    threads := Function.update state.threads thread ((state.threads thread).goto point) }

/-- The thread and the state word change together. -/
def change (state : RwState Thread preference width) (thread : Thread) (word : BitVec width)
    (next : RwThread preference width) : RwState Thread preference width :=
  ⟨word, Function.update state.threads thread next⟩

/-- `wake_all` by a thread that then returns. -/
def wakeAll (state : RwState Thread preference width) (backend : FutexBackend) (thread : Thread)
    (wakeBitset : Nat) : RwState Thread preference width :=
  { state with
    threads := Function.update (fun other => (state.threads other).unpark backend wakeBitset) thread
      ((state.threads thread).goto .idle) }

end RwState

section Steps

variable {Thread : Type} [DecidableEq Thread] {preference : RwPreference} {width : Nat}

/-- One atomic step of some thread.  Weak exchanges may fail spuriously, and a
futex wait may return at any time. -/
inductive RwStep (backend : FutexBackend) :
    RwState Thread preference width -> RwState Thread preference width -> Prop
  | callAcquireRo {state} (thread : Thread) :
      (state.threads thread).point = .idle -> RwStep backend state (state.goto thread .roLoad)
  | callReleaseRo {state} (thread : Thread) :
      (state.threads thread).point = .idle -> 0 < (state.threads thread).reads ->
      RwStep backend state (state.goto thread .roRelease)
  | callAcquireRw {state} (thread : Thread) :
      (state.threads thread).point = .idle -> RwStep backend state (state.goto thread .rwLoad)
  | callReleaseRw {state} (thread : Thread) :
      (state.threads thread).point = .idle -> (state.threads thread).writing = true ->
      RwStep backend state (state.goto thread .rwRelease)
  | callTryAcquireRo {state} (thread : Thread) :
      (state.threads thread).point = .idle -> RwStep backend state (state.goto thread .tryRoLoad)
  | callTryAcquireRw {state} (thread : Thread) :
      (state.threads thread).point = .idle -> RwStep backend state (state.goto thread .tryRwLoad)
  | roLoad {state} (thread : Thread) :
      (state.threads thread).point = .roLoad ->
      RwStep backend state (state.goto thread (.roHead state.word))
  | roEnter {state} (thread : Thread) (admitted) :
      (state.threads thread).point = .roEnter state.word admitted ->
      RwStep backend state (state.change thread (state.word + 1) (state.threads thread).enter)
  | roEnterFail {state} (thread : Thread) (observed) (admitted) :
      (state.threads thread).point = .roEnter observed admitted ->
      RwStep backend state (state.goto thread .roLoad)
  | roAnnounce {state} (thread : Thread) (closed) :
      (state.threads thread).point = .roAnnounce state.word closed ->
      RwStep backend state (state.change thread (state.word ||| readerParkedBit width)
        ((state.threads thread).goto .roLoad))
  | roAnnounceFail {state} (thread : Thread) (observed) (closed) :
      (state.threads thread).point = .roAnnounce observed closed ->
      RwStep backend state (state.goto thread .roLoad)
  /-- The futex compares and parks in one step. -/
  | roPark {state} (thread : Thread) (announced) :
      (state.threads thread).point = .roPark state.word announced ->
      RwStep backend state (state.goto thread .roParked)
  | roParkRefused {state} (thread : Thread) (observed) (announced) :
      (state.threads thread).point = .roPark observed announced ->
      RwStep backend state (state.goto thread .roLoad)
  | roSpurious {state} (thread : Thread) :
      (state.threads thread).point = .roParked -> RwStep backend state (state.goto thread .roLoad)
  /-- The last reader leaves a waiting writer behind. -/
  | roReleaseLast {state} (thread : Thread) :
      (state.threads thread).point = .roRelease ->
      state.word &&& readerMask width = 1#(width) -> state.word &&& writerWaitingBit width ≠ 0#(width) ->
      RwStep backend state (state.change thread (state.word - 1) ((state.threads thread).leave .roWake))
  | roReleaseQuiet {state} (thread : Thread) :
      (state.threads thread).point = .roRelease ->
      ¬ (state.word &&& readerMask width = 1#(width) ∧
        state.word &&& writerWaitingBit width ≠ 0#(width)) ->
      RwStep backend state (state.change thread (state.word - 1) ((state.threads thread).leave .idle))
  | roWake {state} (thread : Thread) :
      (state.threads thread).point = .roWake ->
      RwStep backend state (state.wakeAll backend thread writerWaitBits)
  | rwLoad {state} (thread : Thread) :
      (state.threads thread).point = .rwLoad ->
      RwStep backend state (state.goto thread (.rwHead state.word))
  | rwTake {state} (thread : Thread) (free) :
      (state.threads thread).point = .rwTake state.word free ->
      RwStep backend state
        (state.change thread (writerLockedBit width ||| state.word &&& parkedBits width)
          (state.threads thread).take)
  /-- A failed exchange refreshes `observed`. -/
  | rwTakeFail {state} (thread : Thread) (observed) (free) :
      (state.threads thread).point = .rwTake observed free ->
      RwStep backend state (state.goto thread (.rwHead state.word))
  | rwAnnounce {state} (thread : Thread) (busy) :
      (state.threads thread).point = .rwAnnounce state.word busy ->
      RwStep backend state (state.change thread (state.word ||| writerWaitingBit width)
        ((state.threads thread).goto (.rwHead (state.word ||| writerWaitingBit width))))
  | rwAnnounceFail {state} (thread : Thread) (observed) (busy) :
      (state.threads thread).point = .rwAnnounce observed busy ->
      RwStep backend state (state.goto thread (.rwHead state.word))
  | rwPark {state} (thread : Thread) (busy) (announced) :
      (state.threads thread).point = .rwPark state.word busy announced ->
      RwStep backend state (state.goto thread .rwParked)
  | rwParkRefused {state} (thread : Thread) (observed) (busy) (announced) :
      (state.threads thread).point = .rwPark observed busy announced ->
      RwStep backend state (state.goto thread .rwLoad)
  | rwSpurious {state} (thread : Thread) :
      (state.threads thread).point = .rwParked -> RwStep backend state (state.goto thread .rwLoad)
  | rwReleaseWake {state} (thread : Thread) :
      (state.threads thread).point = .rwRelease ->
      state.word &&& parkedBits width ≠ 0#(width) ->
      RwStep backend state (state.change thread 0#(width) ((state.threads thread).yield .rwWake))
  | rwReleaseQuiet {state} (thread : Thread) :
      (state.threads thread).point = .rwRelease ->
      state.word &&& parkedBits width = 0#(width) ->
      RwStep backend state (state.change thread 0#(width) ((state.threads thread).yield .idle))
  | rwWake {state} (thread : Thread) :
      (state.threads thread).point = .rwWake ->
      RwStep backend state (state.wakeAll backend thread eitherWaitBits)
  | tryRoLoad {state} (thread : Thread)
      (admitted : state.word &&& preference.readerBlockingBits width = 0#(width)) :
      (state.threads thread).point = .tryRoLoad ->
      RwStep backend state (state.goto thread (.tryRoEnter state.word admitted))
  | tryRoRefused {state} (thread : Thread) :
      (state.threads thread).point = .tryRoLoad ->
      state.word &&& preference.readerBlockingBits width ≠ 0#(width) ->
      RwStep backend state (state.goto thread .idle)
  | tryRoEnter {state} (thread : Thread) (admitted) :
      (state.threads thread).point = .tryRoEnter state.word admitted ->
      RwStep backend state (state.change thread (state.word + 1) (state.threads thread).enter)
  /-- A strong exchange fails only on a changed word. -/
  | tryRoFail {state} (thread : Thread) (observed) (admitted) :
      (state.threads thread).point = .tryRoEnter observed admitted -> state.word ≠ observed ->
      RwStep backend state (state.goto thread .idle)
  | tryRwLoad {state} (thread : Thread)
      (free : state.word &&& (readerMask width ||| writerLockedBit width) = 0#(width)) :
      (state.threads thread).point = .tryRwLoad ->
      RwStep backend state (state.goto thread (.tryRwTake state.word free))
  | tryRwRefused {state} (thread : Thread) :
      (state.threads thread).point = .tryRwLoad ->
      state.word &&& (readerMask width ||| writerLockedBit width) ≠ 0#(width) ->
      RwStep backend state (state.goto thread .idle)
  | tryRwTake {state} (thread : Thread) (free) :
      (state.threads thread).point = .tryRwTake state.word free ->
      RwStep backend state
        (state.change thread (writerLockedBit width ||| state.word &&& parkedBits width)
          (state.threads thread).take)
  | tryRwFail {state} (thread : Thread) (observed) (free) :
      (state.threads thread).point = .tryRwTake observed free -> state.word ≠ observed ->
      RwStep backend state (state.goto thread .idle)

/-- A lock used by any number of threads. -/
def rwSystem (Thread : Type) [DecidableEq Thread] (preference : RwPreference)
    (backend : FutexBackend) (width : Nat) : System (RwState Thread preference width) where
  initial := fun state => state = .dormant
  step := RwStep backend

end Steps

end Threading
end Sweater
