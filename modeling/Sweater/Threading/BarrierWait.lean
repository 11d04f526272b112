import Sweater.Interleaving.Reachability
import Sweater.Interleaving.Census
import Sweater.Threading.Barrier
import Mathlib.Tactic.FinCases
import Mathlib.Tactic.Convert

namespace Sweater
namespace Threading

open Interleaving

/-!
# Waiting at a completion barrier

Both barrier classes in non-spin mode, with one waiter and any number of
threads that arrive.  `futex_barrier` parks the waiter on the counter itself and
relies on the comparison that the futex makes while parking; `generic_barrier`
tests the counter under a mutex and sleeps on a condition variable.  Spurious
returns are allowed in both.

What the callers promise is written down in a ledger: arrivals may be announced
until `wait` is called, and nobody starts an arrival that has not been
announced.  `RendezvousStep` says what a barrier is for in terms of the ledger
alone, and both classes are shown to follow it.
-/

/-! ## The purpose of a barrier -/

/-- Where the waiter is, from outside. -/
inductive WaitPhase
  | before
  | inside
  | returned
  deriving DecidableEq, Repr

/-- A barrier as its users see it. -/
structure Rendezvous where
  expected : Nat
  arrived : Nat
  phase : WaitPhase
  deriving DecidableEq, Repr

/-- Arrivals are announced before the wait begins, and the wait ends when all
of them have been made. -/
inductive RendezvousStep : Rendezvous -> Rendezvous -> Prop
  | announce (expected arrived : Nat) :
      RendezvousStep ⟨expected, arrived, .before⟩ ⟨expected + 1, arrived, .before⟩
  | arrive (expected arrived : Nat) (phase : WaitPhase) : arrived < expected ->
      RendezvousStep ⟨expected, arrived, phase⟩ ⟨expected, arrived + 1, phase⟩
  | wait (expected arrived : Nat) :
      RendezvousStep ⟨expected, arrived, .before⟩ ⟨expected, arrived, .inside⟩
  | leave (count : Nat) : RendezvousStep ⟨count, count, .inside⟩ ⟨count, count, .returned⟩
  | invisible (rendezvous : Rendezvous) : RendezvousStep rendezvous rendezvous

def rendezvousSystem (initialValue : Nat) : System Rendezvous where
  initial := fun rendezvous => rendezvous = ⟨initialValue, 0, .before⟩
  step := RendezvousStep

/-- A wait that has returned has seen every arrival. -/
theorem Rendezvous.complete {initialValue : Nat} {rendezvous : Rendezvous}
    (reachable : (rendezvousSystem initialValue).Reachable rendezvous)
    (returned : rendezvous.phase = .returned) : rendezvous.arrived = rendezvous.expected := by
  refine @System.Reachable.invariant _ _ (fun rendezvous =>
    rendezvous.phase = .returned -> rendezvous.arrived = rendezvous.expected) ?_ ?_ _ reachable returned
  · rintro _ rfl
    exact nofun
  · intro before after _ earlier move returned
    cases move with
    | announce expected arrived => cases returned
    | arrive expected arrived phase room =>
        have all : arrived = expected := earlier returned
        exact absurd room (all ▸ Nat.lt_irrefl _)
    | wait expected arrived => cases returned
    | leave count => rfl
    | invisible => exact earlier returned

/-! ## The ledger and the counter -/

/-- What the callers have done so far. -/
structure ArrivalLedger where
  /-- the initial value, and one for each call of `add_expected_arrival` -/
  expected : Nat
  /-- calls of `arrive` that have begun -/
  begun : Nat
  /-- decrements that have been made -/
  arrived : Nat
  deriving DecidableEq, Repr

namespace ArrivalLedger

def announce (ledger : ArrivalLedger) : ArrivalLedger := { ledger with expected := ledger.expected + 1 }

def begin (ledger : ArrivalLedger) : ArrivalLedger := { ledger with begun := ledger.begun + 1 }

def arrive (ledger : ArrivalLedger) : ArrivalLedger := { ledger with arrived := ledger.arrived + 1 }

/-- The outstanding arrivals are within the range of the counter. -/
def Fits (ledger : ArrivalLedger) (width : Nat) : Prop := ledger.expected < ledger.arrived + 2 ^ width

instance (ledger : ArrivalLedger) (width : Nat) : Decidable (ledger.Fits width) :=
  inferInstanceAs (Decidable (_ < _))

def rendezvous (ledger : ArrivalLedger) (phase : WaitPhase) : Rendezvous :=
  ⟨ledger.expected, ledger.arrived, phase⟩

end ArrivalLedger

variable {width : Nat}

/-- The counter agrees with the ledger, and `pending` calls are on their way to
the decrement. -/
structure Counted (barrier : Barrier width) (ledger : ArrivalLedger) (pending : Nat) : Prop where
  outstanding : barrier.counter.toNat + ledger.arrived = ledger.expected
  underway : ledger.arrived + pending = ledger.begun
  promised : ledger.begun ≤ ledger.expected
  parks : barrier.spinWait = false

namespace Counted

variable {barrier : Barrier width} {ledger : ArrivalLedger} {pending : Nat}

theorem announce (counted : Counted barrier ledger pending) (fits : ledger.announce.Fits width) :
    Counted barrier.addExpectedArrival ledger.announce pending := by
  have outstanding := counted.outstanding
  have promised := counted.promised
  change ledger.expected + 1 < ledger.arrived + 2 ^ width at fits
  have counter : (barrier.counter + 1).toNat = barrier.counter.toNat + 1 :=
    Machine.toNat_add_one _ (by omega)
  constructor
  · change (barrier.counter + 1).toNat + ledger.arrived = ledger.expected + 1
    omega
  · exact counted.underway
  · change ledger.begun ≤ ledger.expected + 1
    omega
  · exact counted.parks

theorem begin (counted : Counted barrier ledger pending) (allowed : ledger.begun < ledger.expected) :
    Counted barrier ledger.begin (pending + 1) := by
  have underway := counted.underway
  constructor
  · exact counted.outstanding
  · change ledger.arrived + (pending + 1) = ledger.begun + 1
    omega
  · exact allowed
  · exact counted.parks

/-- `BOOST_ASSERT( counter_ > 0 )` -/
theorem counter_pos (counted : Counted barrier ledger pending) (arriving : 0 < pending) :
    0 < barrier.counter.toNat := by
  have outstanding := counted.outstanding
  have underway := counted.underway
  have promised := counted.promised
  omega

theorem arrive (counted : Counted barrier ledger (pending + 1)) :
    Counted barrier.arrive ledger.arrive pending := by
  have outstanding := counted.outstanding
  have underway := counted.underway
  have counter : (barrier.counter - 1).toNat + 1 = barrier.counter.toNat :=
    Machine.toNat_sub_one _ (counted.counter_pos (Nat.succ_pos _))
  constructor
  · change (barrier.counter - 1).toNat + (ledger.arrived + 1) = ledger.expected
    omega
  · change ledger.arrived + 1 + pending = ledger.begun
    omega
  · exact counted.promised
  · exact counted.parks

theorem arrived_lt_expected (counted : Counted barrier ledger (pending + 1)) :
    ledger.arrived < ledger.expected := by
  have underway := counted.underway
  have promised := counted.promised
  omega

/-- A zero counter means that everybody has arrived. -/
theorem complete (counted : Counted barrier ledger pending) (zero : barrier.counter = 0) :
    ledger.arrived = ledger.expected := by
  have outstanding := counted.outstanding
  rw [zero, BitVec.ofNat_eq_ofNat, BitVec.toNat_zero, Nat.zero_add] at outstanding
  exact outstanding

/-- The arrival that brings the counter to zero is the one that wakes. -/
theorem wakes (counted : Counted barrier ledger (pending + 1)) (last : barrier.arrive.counter = 0) :
    barrier.arriveWakes = true := by
  have one : barrier.counter = 1 := by
    have restored : barrier.counter - 1 + 1 = barrier.counter := BitVec.sub_add_cancel _ _
    change barrier.counter - 1 = 0 at last
    rw [last] at restored
    rw [← restored, BitVec.ofNat_eq_ofNat, BitVec.ofNat_eq_ofNat, BitVec.zero_add]
  rw [Barrier.arriveWakes, counted.parks, one]
  exact beq_self_eq_true _

end Counted

/-- A freshly constructed barrier. -/
theorem Counted.construct {bits : Nat} (narrow : bits ≤ width) (initialValue : BitVec bits) :
    Counted (Barrier.construct initialValue : Barrier width) ⟨initialValue.toNat, 0, 0⟩ 0 where
  outstanding := Machine.toNat_setWidth_of_le narrow initialValue
  underway := rfl
  promised := Nat.zero_le _
  parks := rfl

/-! ## The futex barrier -/

/-- The waiter inside `futex_barrier::wait`. -/
inductive FutexWaiter (width : Nat)
  /-- `wait` has not been called -/
  | outside
  /-- before the load -/
  | load
  /-- before `wait_if_equal( non_arrived_count )` -/
  | park (nonArrivedCount : BitVec width) (awaited : nonArrivedCount ≠ 0)
  | parked
  | returned
  deriving DecidableEq

/-- A thread inside `futex_barrier::arrive`. -/
inductive FutexArriver
  | idle
  /-- before the `fetch_sub` -/
  | decrement
  /-- before `wake_one` -/
  | wake
  deriving DecidableEq, Repr

namespace FutexWaiter

def phase : FutexWaiter width -> WaitPhase
  | outside => .before
  | load | park _ _ | parked => .inside
  | returned => .returned

/-- `wake_one` as the waiter experiences it. -/
def unpark : FutexWaiter width -> FutexWaiter width
  | parked => load
  | elsewhere => elsewhere

theorem unpark_ne_parked (waiter : FutexWaiter width) : waiter.unpark ≠ .parked := by
  cases waiter <;> exact nofun

theorem phase_unpark (waiter : FutexWaiter width) : waiter.unpark.phase = waiter.phase := by
  cases waiter <;> rfl

/-- The loop of `wait` after its load. -/
def look (nonArrivedCount : BitVec width) : FutexWaiter width :=
  if zero : nonArrivedCount = 0 then returned else park nonArrivedCount zero

end FutexWaiter

/-- Whether a call of `arrive` is on its way to the decrement. -/
def FutexArriver.pending : FutexArriver -> Nat
  | decrement => 1
  | idle | wake => 0

structure FutexBarrierState (Thread : Type) (width : Nat) where
  barrier : Barrier width
  ledger : ArrivalLedger
  waiter : FutexWaiter width
  arrivers : Thread -> FutexArriver

section FutexSteps

variable {Thread : Type} [DecidableEq Thread]

/-- One atomic operation of the waiter or of a thread that arrives. -/
inductive FutexBarrierStep : FutexBarrierState Thread width -> FutexBarrierState Thread width -> Prop
  | addExpectedArrival {state} : state.waiter = .outside ->
      FutexBarrierStep state { state with
        barrier := state.barrier.addExpectedArrival
        ledger := state.ledger.announce }
  | callArrive {state} (thread : Thread) : state.arrivers thread = .idle ->
      state.ledger.begun < state.ledger.expected ->
      FutexBarrierStep state { state with
        ledger := state.ledger.begin
        arrivers := Function.update state.arrivers thread .decrement }
  | arrive {state} (thread : Thread) : state.arrivers thread = .decrement ->
      FutexBarrierStep state { state with
        barrier := state.barrier.arrive
        ledger := state.ledger.arrive
        arrivers := Function.update state.arrivers thread
          (if state.barrier.arriveWakes then .wake else .idle) }
  | wakeOne {state} (thread : Thread) : state.arrivers thread = .wake ->
      FutexBarrierStep state { state with
        waiter := state.waiter.unpark
        arrivers := Function.update state.arrivers thread .idle }
  | callWait {state} : state.waiter = .outside -> FutexBarrierStep state { state with waiter := .load }
  | load {state} : state.waiter = .load ->
      FutexBarrierStep state { state with waiter := .look state.barrier.counter }
  /-- The futex compares and parks in one step. -/
  | park {state} (awaited) : state.waiter = .park state.barrier.counter awaited ->
      FutexBarrierStep state { state with waiter := .parked }
  | parkRefused {state} (nonArrivedCount) (awaited) : state.waiter = .park nonArrivedCount awaited ->
      FutexBarrierStep state { state with waiter := .load }
  | spurious {state} : state.waiter = .parked -> FutexBarrierStep state { state with waiter := .load }

/-- A futex barrier constructed with an initial value. -/
def futexBarrierSystem (Thread : Type) [DecidableEq Thread] (width : Nat) {bits : Nat}
    (initialValue : BitVec bits) : System (FutexBarrierState Thread width) where
  initial := fun state =>
    state = ⟨.construct initialValue, ⟨initialValue.toNat, 0, 0⟩, .outside, fun _ => .idle⟩
  step := FutexBarrierStep

end FutexSteps

namespace FutexBarrierState

variable {Thread : Type}

def Fits (state : FutexBarrierState Thread width) : Prop := state.ledger.Fits width

instance (state : FutexBarrierState Thread width) : Decidable state.Fits :=
  inferInstanceAs (Decidable (state.ledger.Fits width))

/-- As the users of the barrier see it. -/
def rendezvous (state : FutexBarrierState Thread width) : Rendezvous :=
  state.ledger.rendezvous state.waiter.phase

variable [Fintype Thread]

/-- The counter is accounted for, and a waiter that is parked on a counter that
has become zero is about to be woken. -/
structure Sound (state : FutexBarrierState Thread width) : Prop where
  counted : Counted state.barrier state.ledger (census FutexArriver.pending state.arrivers)
  attended : state.waiter = .parked -> state.barrier.counter = 0 ->
    Exists fun thread => state.arrivers thread = .wake

variable [DecidableEq Thread] {before after : FutexBarrierState Thread width}

/-- The calls on their way, after one thread has moved. -/
theorem pending_update (arrivers : Thread -> FutexArriver) (thread : Thread) (next : FutexArriver) :
    census FutexArriver.pending (Function.update arrivers thread next) + (arrivers thread).pending =
      census FutexArriver.pending arrivers + next.pending :=
  census_update _ _ _ _

theorem Sound.counted_arriving (sound : Sound before) {thread : Thread}
    (place : before.arrivers thread = .decrement) (next : FutexArriver) (moves : next.pending = 0) :
    Counted before.barrier before.ledger
      (census FutexArriver.pending (Function.update before.arrivers thread next) + 1) := by
  have update := pending_update before.arrivers thread next
  rw [place, moves] at update
  change _ + 1 = _ + 0 at update
  rw [update]
  exact sound.counted

theorem pending_wake (wakes : Bool) :
    (if wakes then FutexArriver.wake else FutexArriver.idle).pending = 0 := by
  cases wakes <;> rfl

theorem Sound.step (sound : Sound before) (move : FutexBarrierStep before after)
    (fits : after.Fits) : Sound after := by
  cases move with
  | addExpectedArrival place =>
      refine ⟨sound.counted.announce fits, ?_⟩
      intro parked
      rw [place] at parked
      cases parked
  | callArrive thread place allowed =>
      constructor
      · have update := pending_update before.arrivers thread .decrement
        rw [place] at update
        change _ + 0 = _ + 1 at update
        rw [Nat.add_zero] at update
        rw [update]
        exact sound.counted.begin allowed
      · intro parked zero
        rcases sound.attended parked zero with ⟨waker, waking⟩
        have different : waker ≠ thread := by
          intro same
          rw [same, place] at waking
          cases waking
        refine ⟨waker, ?_⟩
        change Function.update before.arrivers thread .decrement waker = .wake
        rwa [Function.update_of_ne different]
  | arrive thread place =>
      have arriving := sound.counted_arriving place _ (pending_wake before.barrier.arriveWakes)
      refine ⟨arriving.arrive, ?_⟩
      intro parked zero
      refine ⟨thread, ?_⟩
      change Function.update before.arrivers thread _ thread = .wake
      rw [Function.update_self, arriving.wakes zero]
      rfl
  | wakeOne thread place =>
      constructor
      · have update := pending_update before.arrivers thread .idle
        rw [place] at update
        rw [Nat.add_right_cancel update]
        exact sound.counted
      · exact fun parked => absurd parked (FutexWaiter.unpark_ne_parked _)
  | callWait place => exact ⟨sound.counted, nofun⟩
  | load place =>
      refine ⟨sound.counted, ?_⟩
      intro parked
      unfold FutexWaiter.look at parked
      split at parked <;> cases parked
  | park awaited place => exact ⟨sound.counted, fun _parked zero => absurd zero awaited⟩
  | parkRefused nonArrivedCount awaited place => exact ⟨sound.counted, nofun⟩
  | spurious place => exact ⟨sound.counted, nofun⟩

/-- The futex barrier does what a barrier is for. -/
theorem Sound.refines (sound : Sound before) (move : FutexBarrierStep before after) :
    RendezvousStep before.rendezvous after.rendezvous := by
  cases move with
  | addExpectedArrival place =>
      rw [rendezvous, rendezvous, place]
      exact .announce _ _
  | callArrive thread place allowed => exact .invisible _
  | arrive thread place =>
      have arriving := sound.counted_arriving place _ (pending_wake before.barrier.arriveWakes)
      exact .arrive _ _ _ arriving.arrived_lt_expected
  | wakeOne thread place =>
      rw [rendezvous, rendezvous, FutexWaiter.phase_unpark]
      exact .invisible _
  | callWait place =>
      rw [rendezvous, rendezvous, place]
      exact .wait _ _
  | load place =>
      rw [rendezvous, rendezvous, place]
      change RendezvousStep _ (before.ledger.rendezvous (FutexWaiter.look before.barrier.counter).phase)
      unfold FutexWaiter.look
      split
      · rename_i zero
        have complete := sound.counted.complete zero
        unfold ArrivalLedger.rendezvous
        rw [complete]
        exact .leave _
      · exact .invisible _
  | park awaited place =>
      rw [rendezvous, rendezvous, place]
      exact .invisible _
  | parkRefused nonArrivedCount awaited place =>
      rw [rendezvous, rendezvous, place]
      exact .invisible _
  | spurious place =>
      rw [rendezvous, rendezvous, place]
      exact .invisible _

theorem sound_of_reachable {bits : Nat} (narrow : bits ≤ width) (initialValue : BitVec bits)
    {state : FutexBarrierState Thread width}
    (reachable : ((futexBarrierSystem Thread width initialValue).within Fits).Reachable state) :
    Sound state := by
  refine reachable.invariant ?_ ?_
  · rintro _ ⟨rfl, _⟩
    have none : census FutexArriver.pending (fun _ : Thread => FutexArriver.idle) = 0 :=
      (census_eq_zero_iff _ _).mpr (fun _thread => rfl)
    exact ⟨none ▸ Counted.construct narrow initialValue, nofun⟩
  · intro before after _ sound move
    exact sound.step move.1 move.2

theorem rendezvous_of_reachable {bits : Nat} (narrow : bits ≤ width) (initialValue : BitVec bits)
    {state : FutexBarrierState Thread width}
    (reachable : ((futexBarrierSystem Thread width initialValue).within Fits).Reachable state) :
    (rendezvousSystem initialValue.toNat).Reachable state.rendezvous := by
  refine reachable.simulates rendezvous ?_ ?_
  · rintro _ ⟨rfl, _⟩
    rfl
  · intro before after earlier move
    exact (sound_of_reachable narrow initialValue earlier).refines move.1

end FutexBarrierState

/-! ## The generic barrier -/

/-- The waiter inside `generic_barrier::wait`. -/
inductive GenericWaiter
  /-- `wait` has not been called -/
  | outside
  /-- before the lock of `mutex_` -/
  | lock
  /-- holding the mutex, before the test of the loop -/
  | test
  /-- holding the mutex, before `event_.wait` -/
  | sleep
  /-- inside `event_.wait`, the mutex released -/
  | asleep
  /-- woken inside `event_.wait`, before it takes the mutex again -/
  | relock
  /-- past the loop, before the unlock -/
  | unlock
  | returned
  deriving DecidableEq, Repr

/-- A thread inside `generic_barrier::arrive`. -/
inductive GenericArriver
  | idle
  | lock
  /-- holding the mutex, before the `fetch_sub` -/
  | decrement
  /-- holding the mutex, before `notify_one` -/
  | notify
  /-- holding the mutex, before the unlock -/
  | unlock
  deriving DecidableEq, Repr

namespace GenericWaiter

/-- The wait is over as soon as the loop has been left. -/
def phase : GenericWaiter -> WaitPhase
  | outside => .before
  | lock | test | sleep | asleep | relock => .inside
  | unlock | returned => .returned

def holds : GenericWaiter -> Bool
  | test | sleep | unlock => true
  | outside | lock | asleep | relock | returned => false

/-- `notify_one` as the waiter experiences it. -/
def unpark : GenericWaiter -> GenericWaiter
  | asleep => relock
  | elsewhere => elsewhere

theorem unpark_ne_asleep (waiter : GenericWaiter) : waiter.unpark ≠ .asleep := by
  cases waiter <;> exact nofun

theorem phase_unpark (waiter : GenericWaiter) : waiter.unpark.phase = waiter.phase := by
  cases waiter <;> rfl

theorem holds_unpark (waiter : GenericWaiter) : waiter.unpark.holds = waiter.holds := by
  cases waiter <;> rfl

theorem unpark_eq_sleep {waiter : GenericWaiter} (place : waiter.unpark = .sleep) : waiter = .sleep := by
  cases waiter <;> first | rfl | cases place

end GenericWaiter

namespace GenericArriver

def pending : GenericArriver -> Nat
  | lock | decrement => 1
  | idle | notify | unlock => 0

def holds : GenericArriver -> Bool
  | decrement | notify | unlock => true
  | idle | lock => false

end GenericArriver

/-- Who owns `mutex_`. -/
inductive MutexOwner (Thread : Type)
  | free
  | waiter
  | arriver (thread : Thread)
  deriving DecidableEq

structure GenericBarrierState (Thread : Type) (width : Nat) where
  barrier : Barrier width
  ledger : ArrivalLedger
  owner : MutexOwner Thread
  waiter : GenericWaiter
  arrivers : Thread -> GenericArriver

section GenericSteps

variable {Thread : Type} [DecidableEq Thread]

/-- One step of the waiter or of a thread that arrives. -/
inductive GenericBarrierStep : GenericBarrierState Thread width -> GenericBarrierState Thread width -> Prop
  | addExpectedArrival {state} : state.waiter = .outside ->
      GenericBarrierStep state { state with
        barrier := state.barrier.addExpectedArrival
        ledger := state.ledger.announce }
  | callArrive {state} (thread : Thread) : state.arrivers thread = .idle ->
      state.ledger.begun < state.ledger.expected ->
      GenericBarrierStep state { state with
        ledger := state.ledger.begin
        arrivers := Function.update state.arrivers thread .lock }
  | arriverLock {state} (thread : Thread) : state.arrivers thread = .lock -> state.owner = .free ->
      GenericBarrierStep state { state with
        owner := .arriver thread
        arrivers := Function.update state.arrivers thread .decrement }
  | arrive {state} (thread : Thread) : state.arrivers thread = .decrement ->
      GenericBarrierStep state { state with
        barrier := state.barrier.arrive
        ledger := state.ledger.arrive
        arrivers := Function.update state.arrivers thread
          (if state.barrier.arriveWakes then .notify else .unlock) }
  | notifyOne {state} (thread : Thread) : state.arrivers thread = .notify ->
      GenericBarrierStep state { state with
        waiter := state.waiter.unpark
        arrivers := Function.update state.arrivers thread .unlock }
  | arriverUnlock {state} (thread : Thread) : state.arrivers thread = .unlock ->
      GenericBarrierStep state { state with
        owner := .free
        arrivers := Function.update state.arrivers thread .idle }
  | callWait {state} : state.waiter = .outside -> GenericBarrierStep state { state with waiter := .lock }
  | waiterLock {state} : state.waiter = .lock ∨ state.waiter = .relock -> state.owner = .free ->
      GenericBarrierStep state { state with owner := .waiter, waiter := .test }
  | test {state} : state.waiter = .test ->
      GenericBarrierStep state { state with
        waiter := if state.barrier.counter ≠ 0 then .sleep else .unlock }
  /-- The condition variable releases the mutex and sleeps in one step. -/
  | sleep {state} : state.waiter = .sleep ->
      GenericBarrierStep state { state with owner := .free, waiter := .asleep }
  | spurious {state} : state.waiter = .asleep -> GenericBarrierStep state { state with waiter := .relock }
  | waiterUnlock {state} : state.waiter = .unlock ->
      GenericBarrierStep state { state with owner := .free, waiter := .returned }

/-- A generic barrier constructed with an initial value. -/
def genericBarrierSystem (Thread : Type) [DecidableEq Thread] (width : Nat) {bits : Nat}
    (initialValue : BitVec bits) : System (GenericBarrierState Thread width) where
  initial := fun state =>
    state = ⟨.construct initialValue, ⟨initialValue.toNat, 0, 0⟩, .free, .outside, fun _ => .idle⟩
  step := GenericBarrierStep

end GenericSteps

namespace GenericBarrierState

variable {Thread : Type}

def Fits (state : GenericBarrierState Thread width) : Prop := state.ledger.Fits width

instance (state : GenericBarrierState Thread width) : Decidable state.Fits :=
  inferInstanceAs (Decidable (state.ledger.Fits width))

/-- As the users of the barrier see it. -/
def rendezvous (state : GenericBarrierState Thread width) : Rendezvous :=
  state.ledger.rendezvous state.waiter.phase

/-- Whoever is inside a critical section owns the mutex. -/
structure Owned (state : GenericBarrierState Thread width) : Prop where
  waiter : state.waiter.holds = true -> state.owner = .waiter
  arriver : forall thread, (state.arrivers thread).holds = true -> state.owner = .arriver thread

variable [Fintype Thread]

/-- The counter is accounted for.  The waiter goes to sleep on a positive
counter, and is about to be notified when the counter has become zero since. -/
structure Sound (state : GenericBarrierState Thread width) : Prop where
  counted : Counted state.barrier state.ledger (census GenericArriver.pending state.arrivers)
  owned : Owned state
  drowsy : state.waiter = .sleep -> state.barrier.counter ≠ 0
  attended : state.waiter = .asleep -> state.barrier.counter = 0 ->
    Exists fun thread => state.arrivers thread = .notify

variable [DecidableEq Thread] {before after : GenericBarrierState Thread width}

section Mutex

omit [Fintype Thread] [DecidableEq Thread]

/-- A free mutex is not held. -/
theorem Owned.of_free (owned : Owned before) (free : before.owner = .free) :
    before.waiter.holds = false ∧ forall thread, (before.arrivers thread).holds = false := by
  constructor
  · by_contra holds
    have owner := owned.waiter (Bool.eq_true_of_not_eq_false holds)
    rw [free] at owner
    cases owner
  · intro thread
    by_contra holds
    have owner := owned.arriver thread (Bool.eq_true_of_not_eq_false holds)
    rw [free] at owner
    cases owner

/-- The waiter holds the mutex alone. -/
theorem Owned.of_waiter (owned : Owned before) (mine : before.waiter.holds = true) (thread : Thread) :
    (before.arrivers thread).holds = false := by
  by_contra holds
  have owner := owned.arriver thread (Bool.eq_true_of_not_eq_false holds)
  rw [owned.waiter mine] at owner
  cases owner

/-- An arriving thread holds the mutex alone. -/
theorem Owned.of_arriver (owned : Owned before) {thread : Thread}
    (mine : (before.arrivers thread).holds = true) :
    before.waiter.holds = false ∧
      forall other, (before.arrivers other).holds = true -> other = thread := by
  have owner := owned.arriver thread mine
  constructor
  · by_contra holds
    have waiter := owned.waiter (Bool.eq_true_of_not_eq_false holds)
    rw [owner] at waiter
    cases waiter
  · intro other holds
    have another := owned.arriver other holds
    rw [owner] at another
    cases another
    rfl

end Mutex

section Steps

omit [Fintype Thread]

/-- One thread goes on, possibly with a new owner of the mutex. -/
theorem Owned.move {thread : Thread} {next : GenericArriver}
    (arrivers : after.arrivers = Function.update before.arrivers thread next)
    (self : next.holds = true -> after.owner = .arriver thread)
    (others : forall other, other ≠ thread -> (before.arrivers other).holds = true ->
      after.owner = .arriver other)
    (waiter : after.waiter.holds = true -> after.owner = .waiter) : Owned after := by
  refine ⟨waiter, ?_⟩
  intro other holds
  rw [arrivers] at holds
  by_cases same : other = thread
  · subst same
    rw [Function.update_self] at holds
    exact self holds
  · rw [Function.update_of_ne same] at holds
    exact others other same holds

omit [DecidableEq Thread] in
/-- A thread past the lock of `arrive` holds the mutex. -/
theorem arriverHolds {thread : Thread} {point : GenericArriver}
    (place : before.arrivers thread = point) (inside : point.holds = true) :
    (before.arrivers thread).holds = true := place ▸ inside

theorem Owned.step (owned : Owned before) (move : GenericBarrierStep before after) : Owned after := by
  cases move with
  | addExpectedArrival place => exact ⟨owned.waiter, owned.arriver⟩
  | callArrive thread place allowed =>
      exact .move rfl nofun (fun other _ => owned.arriver other) owned.waiter
  | arriverLock thread place free =>
      have unheld := owned.of_free free
      refine .move rfl (fun _ => rfl) ?_ ?_
      · intro other _ holds
        exact absurd holds (Bool.eq_false_iff.mp (unheld.2 other))
      · exact fun holds => absurd holds (Bool.eq_false_iff.mp unheld.1)
  | arrive thread place =>
      exact .move rfl (fun _ => owned.arriver thread (by rw [place]; rfl))
        (fun other _ => owned.arriver other) owned.waiter
  | notifyOne thread place =>
      refine .move rfl (fun _ => owned.arriver thread (by rw [place]; rfl))
        (fun other _ => owned.arriver other) ?_
      intro holds
      rw [GenericWaiter.holds_unpark] at holds
      exact owned.waiter holds
  | arriverUnlock thread place =>
      have alone := owned.of_arriver (arriverHolds place rfl)
      refine .move rfl nofun ?_ ?_
      · intro other different holds
        exact absurd (alone.2 other holds) different
      · exact fun holds => absurd holds (Bool.eq_false_iff.mp alone.1)
  | callWait place => exact ⟨nofun, owned.arriver⟩
  | waiterLock place free =>
      have unheld := owned.of_free free
      exact ⟨fun _ => rfl, fun thread holds => absurd holds (Bool.eq_false_iff.mp (unheld.2 thread))⟩
  | test place => exact ⟨fun _ => owned.waiter (by rw [place]; rfl), owned.arriver⟩
  | sleep place =>
      have alone := owned.of_waiter (by rw [place]; rfl)
      exact ⟨nofun, fun thread holds => absurd holds (Bool.eq_false_iff.mp (alone thread))⟩
  | spurious place => exact ⟨nofun, owned.arriver⟩
  | waiterUnlock place =>
      have alone := owned.of_waiter (by rw [place]; rfl)
      exact ⟨nofun, fun thread holds => absurd holds (Bool.eq_false_iff.mp (alone thread))⟩

end Steps

/-- The calls on their way, after one thread has moved. -/
theorem pending_update (arrivers : Thread -> GenericArriver) (thread : Thread) (next : GenericArriver) :
    census GenericArriver.pending (Function.update arrivers thread next) + (arrivers thread).pending =
      census GenericArriver.pending arrivers + next.pending :=
  census_update _ _ _ _

/-- A thread that goes on and neither begins a call nor decrements. -/
theorem Sound.counted_update (sound : Sound before) {thread : Thread} (next : GenericArriver)
    (same : (before.arrivers thread).pending = next.pending) :
    Counted before.barrier before.ledger
      (census GenericArriver.pending (Function.update before.arrivers thread next)) := by
  have update := pending_update before.arrivers thread next
  rw [same] at update
  rw [Nat.add_right_cancel update]
  exact sound.counted

theorem Sound.counted_arriving (sound : Sound before) {thread : Thread}
    (place : before.arrivers thread = .decrement) (next : GenericArriver) (moves : next.pending = 0) :
    Counted before.barrier before.ledger
      (census GenericArriver.pending (Function.update before.arrivers thread next) + 1) := by
  have update := pending_update before.arrivers thread next
  rw [place, moves] at update
  change _ + 1 = _ + 0 at update
  rw [update]
  exact sound.counted

theorem pending_notify (wakes : Bool) :
    (if wakes then GenericArriver.notify else GenericArriver.unlock).pending = 0 := by
  cases wakes <;> rfl

/-- A notification that is still to come survives the step of another thread. -/
theorem Sound.attended_update (sound : Sound before) {thread : Thread} (next : GenericArriver)
    (moves : before.arrivers thread ≠ .notify) (asleep : before.waiter = .asleep)
    (zero : before.barrier.counter = 0) :
    Exists fun notifier => Function.update before.arrivers thread next notifier = .notify := by
  rcases sound.attended asleep zero with ⟨notifier, notifying⟩
  have different : notifier ≠ thread := by
    intro same
    exact moves (same ▸ notifying)
  exact ⟨notifier, by rwa [Function.update_of_ne different]⟩

theorem Sound.step (sound : Sound before) (move : GenericBarrierStep before after)
    (fits : after.Fits) : Sound after := by
  have owned := sound.owned.step move
  cases move with
  | addExpectedArrival place =>
      refine ⟨sound.counted.announce fits, owned, ?_, ?_⟩
      · intro drowsy
        rw [place] at drowsy
        cases drowsy
      · intro asleep
        rw [place] at asleep
        cases asleep
  | callArrive thread place allowed =>
      refine ⟨?_, owned, sound.drowsy, sound.attended_update _ (by rw [place]; exact nofun)⟩
      have update := pending_update before.arrivers thread .lock
      rw [place] at update
      change _ + 0 = _ + 1 at update
      rw [Nat.add_zero] at update
      rw [update]
      exact sound.counted.begin allowed
  | arriverLock thread place free =>
      exact ⟨sound.counted_update _ (by rw [place]; rfl), owned, sound.drowsy,
        sound.attended_update _ (by rw [place]; exact nofun)⟩
  | arrive thread place =>
      have arriving := sound.counted_arriving place _ (pending_notify before.barrier.arriveWakes)
      refine ⟨arriving.arrive, owned, ?_, ?_⟩
      · intro drowsy
        -- The waiter would hold the mutex together with the thread that decrements.
        have alone := (sound.owned.of_arriver (arriverHolds place rfl)).1
        rw [drowsy] at alone
        cases alone
      · intro asleep zero
        refine ⟨thread, ?_⟩
        change Function.update before.arrivers thread _ thread = .notify
        rw [Function.update_self, arriving.wakes zero]
        rfl
  | notifyOne thread place =>
      refine ⟨sound.counted_update _ (by rw [place]; rfl), owned, ?_, ?_⟩
      · exact fun drowsy => sound.drowsy (GenericWaiter.unpark_eq_sleep drowsy)
      · exact fun asleep => absurd asleep (GenericWaiter.unpark_ne_asleep _)
  | arriverUnlock thread place =>
      exact ⟨sound.counted_update _ (by rw [place]; rfl), owned, sound.drowsy,
        sound.attended_update _ (by rw [place]; exact nofun)⟩
  | callWait place => exact ⟨sound.counted, owned, nofun, nofun⟩
  | waiterLock place free => exact ⟨sound.counted, owned, nofun, nofun⟩
  | test place =>
      refine ⟨sound.counted, owned, ?_, ?_⟩
      · intro drowsy
        by_contra zero
        change (if before.barrier.counter ≠ 0 then _ else _) = GenericWaiter.sleep at drowsy
        rw [if_neg (not_not_intro zero)] at drowsy
        cases drowsy
      · intro asleep
        change (if before.barrier.counter ≠ 0 then _ else _) = GenericWaiter.asleep at asleep
        split at asleep <;> cases asleep
  | sleep place =>
      exact ⟨sound.counted, owned, nofun, fun _asleep zero => absurd zero (sound.drowsy place)⟩
  | spurious place => exact ⟨sound.counted, owned, nofun, nofun⟩
  | waiterUnlock place => exact ⟨sound.counted, owned, nofun, nofun⟩

/-- The generic barrier does what a barrier is for. -/
theorem Sound.refines (sound : Sound before) (move : GenericBarrierStep before after) :
    RendezvousStep before.rendezvous after.rendezvous := by
  cases move with
  | addExpectedArrival place =>
      rw [rendezvous, rendezvous, place]
      exact .announce _ _
  | callArrive thread place allowed => exact .invisible _
  | arriverLock thread place free => exact .invisible _
  | arrive thread place =>
      have arriving := sound.counted_arriving place _ (pending_notify before.barrier.arriveWakes)
      exact .arrive _ _ _ arriving.arrived_lt_expected
  | notifyOne thread place =>
      rw [rendezvous, rendezvous, GenericWaiter.phase_unpark]
      exact .invisible _
  | arriverUnlock thread place => exact .invisible _
  | callWait place =>
      rw [rendezvous, rendezvous, place]
      exact .wait _ _
  | waiterLock place free =>
      rcases place with first | again
      · rw [rendezvous, rendezvous, first]
        exact .invisible _
      · rw [rendezvous, rendezvous, again]
        exact .invisible _
  | test place =>
      rw [rendezvous, rendezvous, place]
      by_cases zero : before.barrier.counter = 0
      · have complete := sound.counted.complete zero
        simp only [zero, ne_eq, not_true_eq_false, if_false, ArrivalLedger.rendezvous, complete]
        exact .leave _
      · simp only [ne_eq, zero, not_false_eq_true, if_true]
        exact .invisible _
  | sleep place =>
      rw [rendezvous, rendezvous, place]
      exact .invisible _
  | spurious place =>
      rw [rendezvous, rendezvous, place]
      exact .invisible _
  | waiterUnlock place =>
      rw [rendezvous, rendezvous, place]
      exact .invisible _

theorem sound_of_reachable {bits : Nat} (narrow : bits ≤ width) (initialValue : BitVec bits)
    {state : GenericBarrierState Thread width}
    (reachable : ((genericBarrierSystem Thread width initialValue).within Fits).Reachable state) :
    Sound state := by
  refine reachable.invariant ?_ ?_
  · rintro _ ⟨rfl, _⟩
    have none : census GenericArriver.pending (fun _ : Thread => GenericArriver.idle) = 0 :=
      (census_eq_zero_iff _ _).mpr (fun _thread => rfl)
    exact ⟨none ▸ Counted.construct narrow initialValue, ⟨nofun, nofun⟩, nofun, nofun⟩
  · intro before after _ sound move
    exact sound.step move.1 move.2

theorem rendezvous_of_reachable {bits : Nat} (narrow : bits ≤ width) (initialValue : BitVec bits)
    {state : GenericBarrierState Thread width}
    (reachable : ((genericBarrierSystem Thread width initialValue).within Fits).Reachable state) :
    (rendezvousSystem initialValue.toNat).Reachable state.rendezvous := by
  refine reachable.simulates rendezvous ?_ ?_
  · rintro _ ⟨rfl, _⟩
    rfl
  · intro before after earlier move
    exact (sound_of_reachable narrow initialValue earlier).refines move.1

end GenericBarrierState

/-! ## Both classes -/

section Law

variable {Thread : Type} [Fintype Thread] [DecidableEq Thread]

/-- A waiter leaves either barrier only when every expected arrival has been
made, and is never left blocked on a zero counter without an arriving thread
that still has its wake or its notification to perform. -/
theorem barrier_wait_wakes_and_only_then (concurrency : HardwareConcurrency)
    (initialValue : BitVec concurrency.bits) :
    (forall (backend : FutexBackend) (state : FutexBarrierState Thread (backend.valueBits concurrency)),
      ((futexBarrierSystem Thread (backend.valueBits concurrency) initialValue).within
        FutexBarrierState.Fits).Reachable state ->
      (state.waiter = .returned -> state.ledger.arrived = state.ledger.expected) ∧
      (state.waiter = .parked -> state.barrier.counter = 0 ->
        Exists fun thread => state.arrivers thread = .wake)) ∧
    (forall state : GenericBarrierState Thread concurrency.bits,
      ((genericBarrierSystem Thread concurrency.bits initialValue).within
        GenericBarrierState.Fits).Reachable state ->
      (state.waiter = .returned -> state.ledger.arrived = state.ledger.expected) ∧
      (state.waiter = .asleep -> state.barrier.counter = 0 ->
        Exists fun thread => state.arrivers thread = .notify)) := by
  constructor
  · intro backend state reachable
    have narrow := concurrency.bits_le_valueBits backend
    have sound := FutexBarrierState.sound_of_reachable narrow initialValue reachable
    have abstract := FutexBarrierState.rendezvous_of_reachable narrow initialValue reachable
    refine ⟨?_, sound.attended⟩
    intro returned
    exact Rendezvous.complete abstract (congrArg FutexWaiter.phase returned)
  · intro state reachable
    have sound := GenericBarrierState.sound_of_reachable (Nat.le_refl _) initialValue reachable
    have abstract := GenericBarrierState.rendezvous_of_reachable (Nat.le_refl _) initialValue reachable
    refine ⟨?_, sound.attended⟩
    intro returned
    exact Rendezvous.complete abstract (congrArg GenericWaiter.phase returned)

end Law

/-- The waiter has parked, and the only arrival has been made but has not woken it yet. -/
def parkedBeforeWake : FutexBarrierState (Fin 1) 32 where
  barrier := ⟨0, false⟩
  ledger := ⟨1, 1, 1⟩
  waiter := .parked
  arrivers := fun _ => .wake

theorem parkedBeforeWake_reachable :
    ((futexBarrierSystem (Fin 1) 32 (1 : BitVec 8)).within FutexBarrierState.Fits).Reachable
      parkedBeforeWake := by
  have start : ((futexBarrierSystem (Fin 1) 32 (1 : BitVec 8)).within FutexBarrierState.Fits).Reachable
      ⟨.construct (1 : BitVec 8), ⟨1, 0, 0⟩, .outside, fun _ => .idle⟩ := .initial ⟨rfl, by decide⟩
  have waits := System.Reachable.step start ⟨FutexBarrierStep.callWait rfl, by decide⟩
  have loads := System.Reachable.step waits ⟨FutexBarrierStep.load rfl, by decide⟩
  have parks := System.Reachable.step loads ⟨FutexBarrierStep.park (by decide) rfl, by decide⟩
  have calls := System.Reachable.step parks ⟨FutexBarrierStep.callArrive 0 rfl (by decide), by decide⟩
  have arrives := System.Reachable.step calls ⟨FutexBarrierStep.arrive 0 rfl, by decide⟩
  convert arrives using 1
  rw [parkedBeforeWake, FutexBarrierState.mk.injEq]
  refine ⟨by decide, rfl, rfl, ?_⟩
  funext thread
  fin_cases thread
  decide

/-- The waiter sleeps, and the only arrival has been made but has not notified it yet. -/
def asleepBeforeNotify : GenericBarrierState (Fin 1) 8 where
  barrier := ⟨0, false⟩
  ledger := ⟨1, 1, 1⟩
  owner := .arriver 0
  waiter := .asleep
  arrivers := fun _ => .notify

theorem asleepBeforeNotify_reachable :
    ((genericBarrierSystem (Fin 1) 8 (1 : BitVec 8)).within GenericBarrierState.Fits).Reachable
      asleepBeforeNotify := by
  have start : ((genericBarrierSystem (Fin 1) 8 (1 : BitVec 8)).within GenericBarrierState.Fits).Reachable
      ⟨.construct (1 : BitVec 8), ⟨1, 0, 0⟩, .free, .outside, fun _ => .idle⟩ := .initial ⟨rfl, by decide⟩
  have waits := System.Reachable.step start ⟨GenericBarrierStep.callWait rfl, by decide⟩
  have locks := System.Reachable.step waits ⟨GenericBarrierStep.waiterLock (Or.inl rfl) rfl, by decide⟩
  have tests := System.Reachable.step locks ⟨GenericBarrierStep.test rfl, by decide⟩
  have sleeps := System.Reachable.step tests ⟨GenericBarrierStep.sleep rfl, by decide⟩
  have calls := System.Reachable.step sleeps ⟨GenericBarrierStep.callArrive 0 rfl (by decide), by decide⟩
  have enters := System.Reachable.step calls ⟨GenericBarrierStep.arriverLock 0 rfl rfl, by decide⟩
  have arrives := System.Reachable.step enters ⟨GenericBarrierStep.arrive 0 rfl, by decide⟩
  convert arrives using 1
  rw [asleepBeforeNotify, GenericBarrierState.mk.injEq]
  refine ⟨by decide, rfl, rfl, rfl, ?_⟩
  funext thread
  fin_cases thread
  decide

theorem barrier_wait_wakes_and_only_then_one :
    (Exists fun thread => parkedBeforeWake.arrivers thread = .wake) ∧
      Exists fun thread => asleepBeforeNotify.arrivers thread = .notify :=
  ⟨((barrier_wait_wakes_and_only_then .uint8 1).1 .linux parkedBeforeWake parkedBeforeWake_reachable).2
      rfl rfl,
    ((barrier_wait_wakes_and_only_then .uint8 1).2 asleepBeforeNotify asleepBeforeNotify_reachable).2
      rfl rfl⟩

end Threading
end Sweater
