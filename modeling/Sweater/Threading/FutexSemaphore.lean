import Sweater.Interleaving.Reachability
import Sweater.Interleaving.Census
import Sweater.Threading.Platform

namespace Sweater
namespace Threading

open Interleaving

/-!
# The futex semaphore, one atomic operation at a time

`futex_semaphore.cpp` keeps the tokens in `value_` (negative while waiters are
in debt), hands credits to indebted waiters through the futex word `credits_`,
and counts the threads that are parked or committed to parking in `sleepers_`.

A `SemaphorePoint` is the next atomic operation of a thread, with the local
variables that are still live there.  Every constructor of `SemaphoreStep`
performs exactly one atomic operation together with the thread-local control
flow up to the next one.  All words have the width that the platform gives
them and wrap as the code's words do.
-/

/-- Where a thread is inside `signal`, `wait()` or `wait( spin_count )`.  The
words have `width` bits and `hardware_concurrency_t` has `bits`. -/
inductive SemaphorePoint (width bits : Nat)
  /-- outside every operation -/
  | idle
  /-- before `value_.fetch_add( count )` -/
  | signalAdd (count : BitVec bits)
  /-- before `credits_.fetch_add( to_wake )` -/
  | signalDeposit (toWake : BitVec bits)
  /-- before `sleepers_.load()` -/
  | signalGate (toWake : BitVec bits)
  /-- before `credits_.wake( to_wake )` -/
  | signalWake (toWake : BitVec bits)
  /-- before the first load of `value_` in `wait( spin_count )` -/
  | spinLoad (spinCount : Nat)
  /-- in the spin loop: before the exchange if `value > 0`, else before the reload -/
  | spin (spinCount spinTry : Nat) (value : BitVec width)
  /-- before `value_.fetch_sub( 1 )` -/
  | waitSubtract
  /-- before `++sleepers_` -/
  | waitRegister
  /-- before the `seq_cst` fence -/
  | waitFence
  /-- before `credits_.load()` -/
  | waitLoad
  /-- before the exchange of `credits` by `credits - 1` -/
  | waitTake (credits : BitVec width)
  /-- holding a credit, before `--sleepers_` -/
  | waitDeregister
  /-- before `credits_.wait_if_equal( 0 )` -/
  | waitPark
  /-- parked on `credits_` -/
  | parked
  deriving DecidableEq, Repr

namespace SemaphorePoint

variable {width bits : Nat}

/-- The loop head of `wait( spin_count )`: fall through to `wait()` when all
tries are used up. -/
def spinHead (spinCount spinTry : Nat) (value : BitVec width) : SemaphorePoint width bits :=
  if spinTry < spinCount then spin spinCount spinTry value else waitSubtract

/-- The loop head of `wait()` after `credits` was read. -/
def creditHead (credits : BitVec width) : SemaphorePoint width bits :=
  if credits = 0 then waitPark else waitTake credits

/-- In debt: past a `fetch_sub` that read no token, and without a credit. -/
def inDebt : SemaphorePoint width bits -> Nat
  | waitRegister | waitFence | waitLoad | waitTake _ | waitPark | parked => 1
  | _ => 0

def isParked : SemaphorePoint width bits -> Nat
  | parked => 1
  | _ => 0

/-- In debt and able to run. -/
def inDebtAwake : SemaphorePoint width bits -> Nat
  | waitRegister | waitFence | waitLoad | waitTake _ | waitPark => 1
  | _ => 0

/-- Counted in `sleepers_`. -/
def registered : SemaphorePoint width bits -> Nat
  | waitFence | waitLoad | waitTake _ | waitPark | parked | waitDeregister => 1
  | _ => 0

/-- Inside `wait()`, from the decision to sleep to its return. -/
def waiting : SemaphorePoint width bits -> Nat
  | waitRegister | waitFence | waitLoad | waitTake _ | waitPark | parked | waitDeregister => 1
  | _ => 0

/-- The credits that a signaler still has to deposit. -/
def undeposited : SemaphorePoint width bits -> Nat
  | signalDeposit toWake => toWake.toNat
  | _ => 0

/-- The wakes that a signaler owes for credits it has deposited. -/
def owedWakes : SemaphorePoint width bits -> Nat
  | signalGate toWake | signalWake toWake => toWake.toNat
  | _ => 0

end SemaphorePoint

/-- The semaphore and the threads using it.  `signalled` is the sum of the
counts signalled so far, and `completed` the number of waits that have taken
their token or credit; both are recorded for the proofs only. -/
structure SemaphoreState (Thread : Type) (width bits : Nat) where
  value : BitVec width
  credits : BitVec width
  sleepers : BitVec bits
  points : Thread -> SemaphorePoint width bits
  signalled : Nat
  completed : Nat

namespace SemaphoreState

variable {Thread : Type} {width bits : Nat}

/-- The thread proceeds to its next program point. -/
def goto [DecidableEq Thread] (state : SemaphoreState Thread width bits) (thread : Thread)
    (point : SemaphorePoint width bits) : SemaphoreState Thread width bits :=
  { state with points := Function.update state.points thread point }

/-- `std::min( static_cast<hardware_concurrency_t>( -old_value ), count )`. -/
def toWake (oldValue : BitVec width) (count : BitVec bits) : BitVec bits :=
  if (BitVec.ofInt bits (-oldValue.toInt)).toNat < count.toNat then
    BitVec.ofInt bits (-oldValue.toInt)
  else count

/-- A freshly constructed semaphore that no thread uses yet. -/
def fresh : SemaphoreState Thread width bits where
  value := 0
  credits := 0
  sleepers := 0
  points := fun _ => .idle
  signalled := 0
  completed := 0

end SemaphoreState

open SemaphoreState

section Steps

variable {Thread : Type} [Fintype Thread] [DecidableEq Thread] {width bits : Nat}

/-- One atomic step of some thread. -/
inductive SemaphoreStep :
    SemaphoreState Thread width bits -> SemaphoreState Thread width bits -> Prop
  /-- `signal( count )`; a zero count returns at once. -/
  | callSignal {state} (thread : Thread) (count : BitVec bits) :
      state.points thread = .idle -> count ≠ 0 ->
      SemaphoreStep state (state.goto thread (.signalAdd count))
  | callWait {state} (thread : Thread) :
      state.points thread = .idle -> SemaphoreStep state (state.goto thread .waitSubtract)
  | callSpinWait {state} (thread : Thread) (spinCount : Nat) :
      state.points thread = .idle -> SemaphoreStep state (state.goto thread (.spinLoad spinCount))
  /-- A non-negative old value: nobody is in debt. -/
  | addUncontended {state} (thread : Thread) (count : BitVec bits) :
      state.points thread = .signalAdd count -> 0 ≤ state.value.toInt ->
      SemaphoreStep state
        { state.goto thread .idle with
          value := state.value + count.setWidth width
          signalled := state.signalled + count.toNat }
  | addIndebted {state} (thread : Thread) (count : BitVec bits) :
      state.points thread = .signalAdd count -> state.value.toInt < 0 ->
      SemaphoreStep state
        { state.goto thread (.signalDeposit (toWake state.value count)) with
          value := state.value + count.setWidth width
          signalled := state.signalled + count.toNat }
  | deposit {state} (thread : Thread) (toWake : BitVec bits) :
      state.points thread = .signalDeposit toWake ->
      SemaphoreStep state
        { state.goto thread (.signalGate toWake) with
          credits := state.credits + toWake.setWidth width }
  | gateOpen {state} (thread : Thread) (toWake : BitVec bits) :
      state.points thread = .signalGate toWake -> state.sleepers ≠ 0 ->
      SemaphoreStep state (state.goto thread (.signalWake toWake))
  | gateClosed {state} (thread : Thread) (toWake : BitVec bits) :
      state.points thread = .signalGate toWake -> state.sleepers = 0 ->
      SemaphoreStep state (state.goto thread .idle)
  /-- `wake( n )` unparks `min( n, parked )` threads.  Backends without an
  exact count unpark more of them. -/
  | wake {state} (thread : Thread) (toWake : BitVec bits) (woken : Finset Thread) :
      state.points thread = .signalWake toWake ->
      (forall other, other ∈ woken -> state.points other = .parked) ->
      min toWake.toNat (census SemaphorePoint.isParked state.points) ≤ woken.card ->
      SemaphoreStep state
        ({ state with
            points := fun other => if other ∈ woken then .waitLoad else state.points other }.goto
          thread .idle)
  | spinBegin {state} (thread : Thread) (spinCount : Nat) :
      state.points thread = .spinLoad spinCount ->
      SemaphoreStep state (state.goto thread (.spinHead spinCount 0 state.value))
  | spinReload {state} (thread : Thread) (spinCount spinTry : Nat) (value : BitVec width) :
      state.points thread = .spin spinCount spinTry value -> value.toInt ≤ 0 ->
      SemaphoreStep state (state.goto thread (.spinHead spinCount (spinTry + 1) state.value))
  /-- `try_decrement` succeeds. -/
  | spinTake {state} (thread : Thread) (spinCount spinTry : Nat) (value : BitVec width) :
      state.points thread = .spin spinCount spinTry value -> 0 < value.toInt ->
      state.value = value ->
      SemaphoreStep state
        { state.goto thread .idle with
          value := value - 1
          completed := state.completed + 1 }
  /-- `try_decrement` fails, possibly spuriously, and refreshes `value`. -/
  | spinFail {state} (thread : Thread) (spinCount spinTry : Nat) (value : BitVec width) :
      state.points thread = .spin spinCount spinTry value -> 0 < value.toInt ->
      SemaphoreStep state (state.goto thread (.spin spinCount spinTry state.value))
  | subtractToken {state} (thread : Thread) :
      state.points thread = .waitSubtract -> 0 < state.value.toInt ->
      SemaphoreStep state
        { state.goto thread .idle with
          value := state.value - 1
          completed := state.completed + 1 }
  | subtractDebt {state} (thread : Thread) :
      state.points thread = .waitSubtract -> state.value.toInt ≤ 0 ->
      SemaphoreStep state { state.goto thread .waitRegister with value := state.value - 1 }
  | register {state} (thread : Thread) :
      state.points thread = .waitRegister ->
      SemaphoreStep state { state.goto thread .waitFence with sleepers := state.sleepers + 1 }
  | fence {state} (thread : Thread) :
      state.points thread = .waitFence -> SemaphoreStep state (state.goto thread .waitLoad)
  | loadCredits {state} (thread : Thread) :
      state.points thread = .waitLoad ->
      SemaphoreStep state (state.goto thread (.creditHead state.credits))
  | takeCredit {state} (thread : Thread) (credits : BitVec width) :
      state.points thread = .waitTake credits -> state.credits = credits -> credits ≠ 0 ->
      SemaphoreStep state
        { state.goto thread .waitDeregister with
          credits := credits - 1
          completed := state.completed + 1 }
  /-- The exchange fails, possibly spuriously, and refreshes `credits`. -/
  | takeFail {state} (thread : Thread) (credits : BitVec width) :
      state.points thread = .waitTake credits ->
      SemaphoreStep state (state.goto thread (.creditHead state.credits))
  | deregister {state} (thread : Thread) :
      state.points thread = .waitDeregister ->
      SemaphoreStep state { state.goto thread .idle with sleepers := state.sleepers - 1 }
  /-- `wait_if_equal( 0 )` compares and parks in one step. -/
  | park {state} (thread : Thread) :
      state.points thread = .waitPark -> state.credits = 0 ->
      SemaphoreStep state (state.goto thread .parked)
  /-- `wait_if_equal( 0 )` returns without parking. -/
  | parkRefused {state} (thread : Thread) :
      state.points thread = .waitPark -> SemaphoreStep state (state.goto thread .waitLoad)
  | spuriousReturn {state} (thread : Thread) :
      state.points thread = .parked -> SemaphoreStep state (state.goto thread .waitLoad)

/-- A semaphore used by any number of threads. -/
def semaphoreSystem (Thread : Type) [Fintype Thread] [DecidableEq Thread] (width bits : Nat) :
    System (SemaphoreState Thread width bits) where
  initial := fun state => state = fresh
  step := SemaphoreStep

end Steps

end Threading
end Sweater
