import Sweater.Threading.BarrierWait

namespace Sweater
namespace Threading

open Interleaving

/-!
# When a barrier may be destroyed

A completion barrier is a local variable of the call that waits for it, and
goes out of scope when the wait is over.  `generic_barrier::arrive` therefore
notifies with the mutex held: when `wait` has returned, every call of `arrive`
has come to its end, and nobody uses the barrier any more.

`futex_barrier::arrive` wakes after its decrement.  A wake may then be left
over for a barrier that is gone, but nothing else; it uses the address of the
counter only.
-/

variable {Thread : Type} {width : Nat}

/-! ## The generic barrier -/

/-- Past its loop. -/
def GenericWaiter.past : GenericWaiter -> Bool
  | .unlock | .returned => true
  | .outside | .lock | .test | .sleep | .asleep | .relock => false

theorem GenericWaiter.past_unpark (waiter : GenericWaiter) : waiter.unpark.past = waiter.past := by
  cases waiter <;> rfl

namespace GenericBarrierState

variable {state before after : GenericBarrierState Thread width}

/-- Every call of `arrive` that has been announced has returned. -/
structure Settled (state : GenericBarrierState Thread width) : Prop where
  idle : forall thread, state.arrivers thread = .idle
  begun : state.ledger.begun = state.ledger.expected
  free : state.waiter = .returned -> state.owner = .free

variable [DecidableEq Thread]

/-- Nobody comes any more, so that only the waiter itself is left. -/
theorem Settled.step (settled : Settled before) (past : before.waiter.past = true)
    (move : GenericBarrierStep before after) :
    before.waiter = .unlock ∧ after.barrier = before.barrier ∧ Settled after := by
  have nobody : forall {thread point}, before.arrivers thread = point -> point ≠ .idle -> False :=
    fun place busy => busy (place.symm.trans (settled.idle _))
  cases move with
  | addExpectedArrival place | callWait place | test place | sleep place | spurious place =>
      rw [place] at past
      cases past
  | waiterLock place free => rcases place with place | place <;> (rw [place] at past; cases past)
  | callArrive thread place allowed => exact absurd settled.begun (Nat.ne_of_lt allowed)
  | arriverLock thread place => exact (nobody place nofun).elim
  | arrive thread place => exact (nobody place nofun).elim
  | notifyOne thread place => exact (nobody place nofun).elim
  | arriverUnlock thread place => exact (nobody place nofun).elim
  | waiterUnlock place => exact ⟨place, rfl, settled.idle, settled.begun, fun _ => rfl⟩

variable [Fintype Thread]

omit [DecidableEq Thread] in
/-- The waiter leaves the loop with the mutex held, at a counter of zero. -/
theorem Sound.settled (sound : Sound before) (place : before.waiter = .test) (zero : before.barrier.counter = 0) :
    (forall thread, before.arrivers thread = .idle) ∧ before.ledger.begun = before.ledger.expected := by
  have all := sound.counted.complete zero
  have underway := sound.counted.underway
  have promised := sound.counted.promised
  have none : census GenericArriver.pending before.arrivers = 0 := by omega
  have outside := sound.owned.of_waiter (by rw [place]; rfl)
  constructor
  · intro thread
    have pending := (census_eq_zero_iff _ _).mp none thread
    have holds := outside thread
    cases point : before.arrivers thread with
    | idle => rfl
    | lock =>
        rw [point] at pending
        cases pending
    | decrement | notify | unlock =>
        rw [point] at holds
        cases holds
  · omega

theorem settled_of_reachable {bits : Nat} (narrow : bits ≤ width) (initialValue : BitVec bits)
    (reachable : ((genericBarrierSystem Thread width initialValue).within Fits).Reachable state)
    (past : state.waiter.past = true) : Settled state := by
  induction reachable with
  | initial first =>
      rw [first.1] at past
      cases past
  | @step before after earlier move inductionHypothesis =>
      by_cases already : before.waiter.past = true
      · exact ((inductionHypothesis already).step already move.1).2.2
      · cases move.1 with
        | test place =>
            by_cases zero : before.barrier.counter = 0
            · have settled := (sound_of_reachable narrow initialValue earlier).settled place zero
              refine ⟨settled.1, settled.2, fun returned => ?_⟩
              change (if before.barrier.counter ≠ 0 then _ else _) = GenericWaiter.returned at returned
              split at returned <;> cases returned
            · change GenericWaiter.past (if before.barrier.counter ≠ 0 then _ else _) = true at past
              rw [if_pos zero] at past
              cases past
        | waiterUnlock place =>
            rw [place] at already
            exact absurd rfl already
        | callWait | waiterLock | sleep | spurious => cases past
        | notifyOne thread place =>
            change before.waiter.unpark.past = true at past
            rw [GenericWaiter.past_unpark] at past
            exact absurd past already
        | addExpectedArrival | callArrive | arriverLock | arrive | arriverUnlock => exact absurd past already

end GenericBarrierState

/-! ## The futex barrier -/

namespace FutexBarrierState

variable {state before after : FutexBarrierState Thread width}

/-- No decrement is to come any more. -/
structure Settled (state : FutexBarrierState Thread width) : Prop where
  decremented : forall thread, state.arrivers thread ≠ .decrement
  begun : state.ledger.begun = state.ledger.expected

variable [DecidableEq Thread]

/-- Only a wake can still happen. -/
theorem Settled.step (settled : Settled before) (returned : before.waiter = .returned)
    (move : FutexBarrierStep before after) :
    after.barrier = before.barrier ∧ after.waiter = .returned ∧ Settled after ∧
      forall thread, after.arrivers thread ≠ .idle -> after.arrivers thread = before.arrivers thread := by
  have outside : forall {point : FutexWaiter width}, before.waiter = point -> point = .returned :=
    fun place => place.symm.trans returned
  cases move with
  | addExpectedArrival place | callWait place | load place | park _ place | parkRefused _ _ place | spurious place =>
      cases outside place
  | callArrive thread place allowed => exact absurd settled.begun (Nat.ne_of_lt allowed)
  | arrive thread place => exact absurd place (settled.decremented thread)
  | wakeOne thread place =>
      have others : forall other, other ≠ thread ->
          Function.update before.arrivers thread .idle other = before.arrivers other :=
        fun other different => Function.update_of_ne different _ _
      refine ⟨rfl, ?_, ⟨fun other => ?_, settled.begun⟩, fun other busy => ?_⟩
      · change before.waiter.unpark = _
        rw [returned]
        rfl
      · change Function.update before.arrivers thread .idle other ≠ _
        by_cases same : other = thread
        · rw [same, Function.update_self]
          exact nofun
        · rw [others other same]
          exact settled.decremented other
      · apply others other
        rintro rfl
        exact busy (Function.update_self _ _ _)

variable [Fintype Thread]

omit [DecidableEq Thread] in
theorem Sound.settled (sound : Sound before) (zero : before.barrier.counter = 0) : Settled before := by
  have all := sound.counted.complete zero
  have underway := sound.counted.underway
  have promised := sound.counted.promised
  have none : census FutexArriver.pending before.arrivers = 0 := by omega
  constructor
  · intro thread place
    have pending := (census_eq_zero_iff _ _).mp none thread
    rw [place] at pending
    cases pending
  · omega

theorem settled_of_reachable {bits : Nat} (narrow : bits ≤ width) (initialValue : BitVec bits)
    (reachable : ((futexBarrierSystem Thread width initialValue).within Fits).Reachable state)
    (returned : state.waiter = .returned) : Settled state := by
  induction reachable with
  | initial first =>
      rw [first.1] at returned
      cases returned
  | @step before after earlier move inductionHypothesis =>
      by_cases already : before.waiter = .returned
      · exact ((inductionHypothesis already).step already move.1).2.2.1
      · cases move.1 with
        | load place =>
            by_cases zero : before.barrier.counter = 0
            · have settled := (sound_of_reachable narrow initialValue earlier).settled zero
              exact ⟨settled.decremented, settled.begun⟩
            · change FutexWaiter.look before.barrier.counter = _ at returned
              rw [FutexWaiter.look, dif_neg zero] at returned
              cases returned
        | callWait | park | parkRefused | spurious => cases returned
        | wakeOne thread place =>
            change before.waiter.unpark = _ at returned
            exfalso
            apply already
            cases point : before.waiter with
            | returned => rfl
            | outside | load | park | parked =>
                rw [point] at returned
                cases returned
        | addExpectedArrival | callArrive | arrive => exact absurd returned already

end FutexBarrierState

/-! ## Both classes -/

section Law

variable [Fintype Thread] [DecidableEq Thread]

/-- When the wait at a generic barrier has returned, nothing happens at the
barrier any more: every call of `arrive` has returned, and nobody holds the
mutex.  After the wait at a futex barrier the counter stays as it is, and the
calls of `arrive` that have not returned have only their wake to perform. -/
theorem barrier_may_be_destroyed (concurrency : HardwareConcurrency) (initialValue : BitVec concurrency.bits) :
    (forall state later : GenericBarrierState Thread concurrency.bits,
      ((genericBarrierSystem Thread concurrency.bits initialValue).within
        GenericBarrierState.Fits).Reachable state -> state.waiter = .returned ->
      (genericBarrierSystem Thread concurrency.bits initialValue).Continues state later ->
        later = state ∧ state.owner = .free ∧ forall thread, state.arrivers thread = .idle) ∧
    (forall (backend : FutexBackend) (state later : FutexBarrierState Thread (backend.valueBits concurrency)),
      ((futexBarrierSystem Thread (backend.valueBits concurrency) initialValue).within
        FutexBarrierState.Fits).Reachable state -> state.waiter = .returned ->
      (futexBarrierSystem Thread (backend.valueBits concurrency) initialValue).Continues state later ->
        later.barrier = state.barrier ∧
          forall thread, later.arrivers thread = .idle ∨
            (later.arrivers thread = .wake ∧ state.arrivers thread = .wake)) := by
  constructor
  · intro state later reachable returned continues
    have past : state.waiter.past = true := by rw [returned]; rfl
    have settled := GenericBarrierState.settled_of_reachable (Nat.le_refl _) initialValue reachable past
    refine ⟨?_, settled.free returned, settled.idle⟩
    induction continues with
    | refl => rfl
    | tail _ move inductionHypothesis =>
        subst inductionHypothesis
        have unlocking := (settled.step past move).1
        cases unlocking.symm.trans returned
  · intro backend state later reachable returned continues
    have narrow := concurrency.bits_le_valueBits backend
    have settled := FutexBarrierState.settled_of_reachable narrow initialValue reachable returned
    suffices kept : later.barrier = state.barrier ∧ later.waiter = .returned ∧ FutexBarrierState.Settled later ∧
        forall thread, later.arrivers thread ≠ .idle -> later.arrivers thread = state.arrivers thread by
      refine ⟨kept.1, fun thread => ?_⟩
      have undone := kept.2.2.1.decremented thread
      have same := kept.2.2.2 thread
      cases point : later.arrivers thread with
      | idle => exact Or.inl rfl
      | decrement => exact absurd point undone
      | wake =>
          right
          rw [point] at same
          exact ⟨rfl, (same nofun).symm⟩
    induction continues with
    | refl => exact ⟨rfl, returned, settled, fun _ _ => rfl⟩
    | tail _ move inductionHypothesis =>
        obtain ⟨barrier, still, quiet, arrivers⟩ := inductionHypothesis
        have next := quiet.step still move
        refine ⟨next.1.trans barrier, next.2.1, next.2.2.1, fun thread busy => ?_⟩
        have same := next.2.2.2 thread busy
        exact same.trans (arrivers thread (same ▸ busy))

end Law

/-- The only arrival has made its decrement when the waiter looks. -/
def returnedBeforeWake : FutexBarrierState (Fin 1) 32 where
  barrier := ⟨0, false⟩
  ledger := ⟨1, 1, 1⟩
  waiter := .returned
  arrivers := fun _ => .wake

theorem returnedBeforeWake_reachable :
    ((futexBarrierSystem (Fin 1) 32 (1 : BitVec 8)).within FutexBarrierState.Fits).Reachable
      returnedBeforeWake := by
  have start : ((futexBarrierSystem (Fin 1) 32 (1 : BitVec 8)).within FutexBarrierState.Fits).Reachable
      ⟨.construct (1 : BitVec 8), ⟨1, 0, 0⟩, .outside, fun _ => .idle⟩ := .initial ⟨rfl, by decide⟩
  have waits := System.Reachable.step start ⟨FutexBarrierStep.callWait rfl, by decide⟩
  have calls := System.Reachable.step waits ⟨FutexBarrierStep.callArrive 0 rfl (by decide), by decide⟩
  have arrives := System.Reachable.step calls ⟨FutexBarrierStep.arrive 0 rfl, by decide⟩
  have loads := System.Reachable.step arrives ⟨FutexBarrierStep.load rfl, by decide⟩
  convert loads using 1
  rw [returnedBeforeWake, FutexBarrierState.mk.injEq]
  refine ⟨by decide, rfl, by decide, ?_⟩
  funext thread
  fin_cases thread
  decide

/-- The waiter sleeps at a generic barrier, and the only arrival is about to wake
it up. -/
def notifying : GenericBarrierState (Fin 1) 8 :=
  ⟨⟨0, false⟩, ⟨1, 1, 1⟩, .arriver ⟨0, Nat.one_pos⟩, .asleep, fun _ => .notify⟩

theorem notifying_reachable :
    ((genericBarrierSystem (Fin 1) 8 (1 : BitVec 8)).within GenericBarrierState.Fits).Reachable notifying := by
  have start : ((genericBarrierSystem (Fin 1) 8 (1 : BitVec 8)).within GenericBarrierState.Fits).Reachable
      ⟨⟨1, false⟩, ⟨1, 0, 0⟩, .free, .outside, fun _ => .idle⟩ := .initial ⟨rfl, by decide⟩
  have waits : ((genericBarrierSystem (Fin 1) 8 (1 : BitVec 8)).within GenericBarrierState.Fits).Reachable
      ⟨⟨1, false⟩, ⟨1, 0, 0⟩, .free, .lock, fun _ => .idle⟩ := .step start ⟨.callWait rfl, by decide⟩
  have locks : ((genericBarrierSystem (Fin 1) 8 (1 : BitVec 8)).within GenericBarrierState.Fits).Reachable
      ⟨⟨1, false⟩, ⟨1, 0, 0⟩, .waiter, .test, fun _ => .idle⟩ :=
    .step waits ⟨.waiterLock (Or.inl rfl) rfl, by decide⟩
  have tests : ((genericBarrierSystem (Fin 1) 8 (1 : BitVec 8)).within GenericBarrierState.Fits).Reachable
      ⟨⟨1, false⟩, ⟨1, 0, 0⟩, .waiter, .sleep, fun _ => .idle⟩ := .step locks ⟨.test rfl, by decide⟩
  have sleeps : ((genericBarrierSystem (Fin 1) 8 (1 : BitVec 8)).within GenericBarrierState.Fits).Reachable
      ⟨⟨1, false⟩, ⟨1, 0, 0⟩, .free, .asleep, fun _ => .idle⟩ := .step tests ⟨.sleep rfl, by decide⟩
  have calls := System.Reachable.step sleeps ⟨GenericBarrierStep.callArrive 0 rfl (by decide), by decide⟩
  have enters := System.Reachable.step calls ⟨GenericBarrierStep.arriverLock 0 rfl rfl, by decide⟩
  have arrives := System.Reachable.step enters ⟨GenericBarrierStep.arrive 0 rfl, by decide⟩
  convert arrives using 1
  rw [notifying, GenericBarrierState.mk.injEq]
  refine ⟨by decide, by decide, rfl, rfl, ?_⟩
  funext thread
  fin_cases thread
  decide

/-- The arrival has woken the waiter up and has left before it. -/
def returnedWoken : GenericBarrierState (Fin 1) 8 := ⟨⟨0, false⟩, ⟨1, 1, 1⟩, .free, .returned, fun _ => .idle⟩

theorem returnedWoken_reachable :
    ((genericBarrierSystem (Fin 1) 8 (1 : BitVec 8)).within GenericBarrierState.Fits).Reachable returnedWoken := by
  have notifies := System.Reachable.step notifying_reachable ⟨GenericBarrierStep.notifyOne 0 rfl, by decide⟩
  have leaves := System.Reachable.step notifies ⟨GenericBarrierStep.arriverUnlock 0 rfl, by decide⟩
  have locks := System.Reachable.step leaves ⟨GenericBarrierStep.waiterLock (Or.inr rfl) rfl, by decide⟩
  have tests := System.Reachable.step locks ⟨GenericBarrierStep.test rfl, by decide⟩
  have returns := System.Reachable.step tests ⟨GenericBarrierStep.waiterUnlock (by decide), by decide⟩
  convert returns using 1
  rw [returnedWoken, GenericBarrierState.mk.injEq]
  refine ⟨rfl, rfl, rfl, rfl, ?_⟩
  funext thread
  fin_cases thread
  decide

/-- The arrival has left the generic barrier when its wait returns; at the futex
barrier it has its wake left, and the counter stays as it is. -/
theorem barrier_may_be_destroyed_woken :
    (forall thread, returnedWoken.arrivers thread = .idle) ∧
      (forall later, (futexBarrierSystem (Fin 1) 32 (1 : BitVec 8)).Continues returnedBeforeWake later ->
        later.barrier.counter = 0) := by
  constructor
  · exact ((barrier_may_be_destroyed .uint8 1).1 returnedWoken returnedWoken returnedWoken_reachable rfl .refl).2.2
  · intro later continues
    have kept := ((barrier_may_be_destroyed .uint8 1).2 .linux returnedBeforeWake later
      returnedBeforeWake_reachable rfl continues).1
    exact congrArg Barrier.counter kept

end Threading
end Sweater
