import Sweater.Futures.State
import Sweater.Threading.SemaphoreWakeups

namespace Sweater
namespace Futures

open Interleaving
open Threading
open Threading.SemaphoreState
open Threading.SemaphorePoint

/-!
# The semaphore of a slot

The thread of the promises only signals it, and the thread of the futures only
waits for it.  `Uses` counts the calls that each of them has made.  With one
call of each, the accounts of the futex semaphore leave no state in which the
signal has returned and the waiter is parked.
-/

variable {width bits : Nat}

/-! ## One signaler and one waiter -/

/-- Inside `signal()`. -/
def signalling : SemaphorePoint width bits -> Bool
  | .idle => true
  | .signalAdd count => count == 1
  | .signalDeposit _ => true
  | .signalGate _ => true
  | .signalWake _ => true
  | _ => false

/-- Inside `wait()`. -/
def awaiting : SemaphorePoint width bits -> Bool
  | .idle => true
  | .waitSubtract => true
  | .waitRegister => true
  | .waitFence => true
  | .waitLoad => true
  | .waitTake _ => true
  | .waitDeregister => true
  | .waitPark => true
  | .parked => true
  | _ => false

/-- One before the `fetch_add` of a signal. -/
def unsent : SemaphorePoint width bits -> Nat
  | .signalAdd _ => 1
  | _ => 0

/-- One for a wait that has not taken its token or credit. -/
def untaken : SemaphorePoint width bits -> Nat
  | .waitSubtract => 1
  | .waitRegister => 1
  | .waitFence => 1
  | .waitLoad => 1
  | .waitTake _ => 1
  | .waitPark => 1
  | .parked => 1
  | _ => 0

/-- The calls of `signal()` and of `wait()` that have been made. -/
structure Uses (signals waits : Nat) (semaphore : SemaphoreState Side width bits) : Prop where
  promise : signalling (semaphore.points .promise) = true
  future : awaiting (semaphore.points .future) = true
  signals : semaphore.signalled + unsent (semaphore.points .promise) = signals
  waits : semaphore.completed + untaken (semaphore.points .future) = waits

/-- No thread calls `signal()` or `wait()` in this step. -/
def Inside (before after : SemaphoreState Side width bits) : Prop :=
  forall side, before.points side = .idle -> after.points side = .idle

section Steps

variable {semaphore after : SemaphoreState Side width bits} {signals waits : Nat}

/-- A step of the thread of the promises. -/
theorem Uses.of_promise (uses : Uses signals waits semaphore) {point : SemaphorePoint width bits}
    (points : after.points = Function.update semaphore.points .promise point) (inside : signalling point = true)
    (signalled : after.signalled + unsent point = semaphore.signalled + unsent (semaphore.points .promise))
    (completed : after.completed = semaphore.completed) : Uses signals waits after := by
  have other : after.points .future = semaphore.points .future := by
    rw [points]
    exact Function.update_of_ne (by decide) _ _
  have own : after.points .promise = point := by
    rw [points]
    exact Function.update_self _ _ _
  refine ⟨by rw [own]; exact inside, by rw [other]; exact uses.future, ?_, ?_⟩
  · rw [own, signalled, uses.signals]
  · rw [other, completed, uses.waits]

/-- A step of the thread of the futures. -/
theorem Uses.of_future (uses : Uses signals waits semaphore) {point : SemaphorePoint width bits}
    (points : after.points = Function.update semaphore.points .future point) (inside : awaiting point = true)
    (completed : after.completed + untaken point = semaphore.completed + untaken (semaphore.points .future))
    (signalled : after.signalled = semaphore.signalled) : Uses signals waits after := by
  have other : after.points .promise = semaphore.points .promise := by
    rw [points]
    exact Function.update_of_ne (by decide) _ _
  have own : after.points .future = point := by
    rw [points]
    exact Function.update_self _ _ _
  refine ⟨by rw [other]; exact uses.promise, by rw [own]; exact inside, ?_, ?_⟩
  · rw [other, signalled, uses.signals]
  · rw [own, completed, uses.waits]

theorem awaiting_creditHead (credits : BitVec width) :
    awaiting (.creditHead credits : SemaphorePoint width bits) = true := by
  unfold SemaphorePoint.creditHead
  split <;> rfl

theorem untaken_creditHead (credits : BitVec width) :
    untaken (.creditHead credits : SemaphorePoint width bits) = 1 := by
  unfold SemaphorePoint.creditHead
  split <;> rfl

/-- A wake-up by the thread of the promises. -/
theorem Uses.wake (uses : Uses signals waits semaphore) {toWake : BitVec bits} {woken : Finset Side}
    (place : semaphore.points .promise = .signalWake toWake)
    (asleep : forall other, other ∈ woken -> semaphore.points other = .parked) :
    Uses signals waits
      ({ semaphore with
          points := fun other => if other ∈ woken then .waitLoad else semaphore.points other }.goto
        .promise .idle) := by
  have own : unsent (semaphore.points .promise) = 0 := by rw [place]; rfl
  have sent := uses.signals
  rw [own] at sent
  have kept : forall next : SemaphoreState Side width bits, next.points .promise = .idle ->
      awaiting (next.points .future) = true -> untaken (next.points .future) = untaken (semaphore.points .future) ->
      next.signalled = semaphore.signalled -> next.completed = semaphore.completed -> Uses signals waits next := by
    intro next idle inside same signalled completed
    refine ⟨by rw [idle]; rfl, inside, ?_, ?_⟩
    · rw [idle, signalled]
      exact sent
    · rw [same, completed]
      exact uses.waits
  by_cases reached : Side.future ∈ woken
  · have parked := asleep .future reached
    apply kept
    · simp [goto]
    · simp [goto, reached, awaiting]
    · simp [goto, reached, untaken, parked]
    · rfl
    · rfl
  · apply kept
    · simp [goto]
    · simpa [goto, reached] using uses.future
    · simp [goto, reached]
    · rfl
    · rfl

/-- The steps inside the two calls keep their number. -/
theorem Uses.step (wide : 0 < bits) (uses : Uses signals waits semaphore) (move : SemaphoreStep semaphore after)
    (inside : Inside semaphore after) : Uses signals waits after := by
  have signaller : forall {thread : Side} {point : SemaphorePoint width bits}, semaphore.points thread = point ->
      awaiting point = false -> thread = .promise := by
    intro thread point place foreign
    cases thread with
    | promise => rfl
    | future => cases foreign.symm.trans (place ▸ uses.future)
  have waiter : forall {thread : Side} {point : SemaphorePoint width bits}, semaphore.points thread = point ->
      signalling point = false -> thread = .future := by
    intro thread point place foreign
    cases thread with
    | promise => cases foreign.symm.trans (place ▸ uses.promise)
    | future => rfl
  cases move with
  | callSignal thread count place | callWait thread place | callSpinWait thread spinCount place =>
      have stays := inside thread place
      simp [goto] at stays
  | addUncontended thread count place sign | addIndebted thread count place sign =>
      cases signaller place rfl
      have one : count = 1 := by
        have counted := uses.promise
        rw [place] at counted
        exact beq_iff_eq.mp counted
      refine uses.of_promise rfl rfl ?_ rfl
      rw [place, one]
      change semaphore.signalled + (BitVec.ofNat bits 1).toNat + 0 = semaphore.signalled + 1
      rw [BitVec.toNat_ofNat, Nat.mod_eq_of_lt (Nat.one_lt_two_pow (Nat.ne_of_gt wide)), Nat.add_zero]
  | deposit thread toWake place | gateOpen thread toWake place | gateClosed thread toWake place =>
      cases signaller place rfl
      exact uses.of_promise rfl rfl (by rw [place]; rfl) rfl
  | wake thread toWake woken place asleep =>
      cases signaller place rfl
      exact uses.wake place asleep
  | spinBegin thread spinCount place | spinReload thread spinCount spinTry value place =>
      cases waiter place rfl
      cases (place ▸ uses.future : awaiting _ = true)
  | spinTake thread spinCount spinTry value place | spinFail thread spinCount spinTry value place =>
      cases waiter place rfl
      cases (place ▸ uses.future : awaiting _ = true)
  | loadCredits thread place | takeFail thread credits place =>
      cases waiter place rfl
      refine uses.of_future rfl (awaiting_creditHead _) ?_ rfl
      rw [place, untaken_creditHead]
      rfl
  | subtractToken thread place | subtractDebt thread place | register thread place | fence thread place
  | takeCredit thread credits place | deregister thread place | park thread place | parkRefused thread place
  | spuriousReturn thread place =>
      cases waiter place rfl
      exact uses.of_future rfl rfl (by rw [place]; rfl) rfl

end Steps

/-! ## One call of each -/

theorem census_sides (weight : SemaphorePoint width bits -> Nat) (points : Side -> SemaphorePoint width bits) :
    census weight points = weight (points .promise) + weight (points .future) :=
  Finset.sum_pair (by decide)

theorem waiting_of_signalling {point : SemaphorePoint width bits} (inside : signalling point = true) :
    point.waiting = 0 ∧ point.inDebt = 0 ∧ point.isParked = 0 ∧ point.inDebtAwake = 0 := by
  cases point <;> first | exact ⟨rfl, rfl, rfl, rfl⟩ | cases inside

theorem undeposited_of_awaiting {point : SemaphorePoint width bits} (inside : awaiting point = true) :
    point.undeposited = 0 ∧ point.owedWakes = 0 ∧ point.waiting ≤ 1 := by
  cases point <;> first | exact ⟨rfl, rfl, Nat.le_refl _⟩ | exact ⟨rfl, rfl, Nat.zero_le _⟩ | cases inside

section Ranges

variable {semaphore : SemaphoreState Side width bits} {signals waits : Nat}

theorem Uses.inRange (uses : Uses signals waits semaphore) (few : signals ≤ 1) (wide : 0 < bits)
    (large : 1 < width) : InRange semaphore := by
  have waiting : census SemaphorePoint.waiting semaphore.points ≤ 1 := by
    rw [census_sides, (waiting_of_signalling uses.promise).1, Nat.zero_add]
    exact (undeposited_of_awaiting uses.future).2.2
  have sent := uses.signals
  have counted : 1 < 2 ^ bits := Nat.one_lt_two_pow (Nat.ne_of_gt wide)
  have signed : 2 ^ 2 ≤ 2 ^ width := Nat.pow_le_pow_right (by decide) large
  constructor <;> omega

end Ranges

section Runs

variable {backend : FutexBackend} {concurrency : HardwareConcurrency}
  {semaphore : SemaphoreState Side (backend.valueBits concurrency) concurrency.bits} {waits : Nat}

/-- The runs of the semaphore of a slot. -/
abbrev SlotReachable (semaphore : SemaphoreState Side (backend.valueBits concurrency) concurrency.bits) : Prop :=
  ((semaphoreSystem Side (backend.valueBits concurrency) concurrency.bits).within InRange).Reachable semaphore

/-- Once the signal has returned, a waiter that has not been served finds its
token in the value or, if it is in debt, its credit. -/
theorem token_of_signalled (reachable : SlotReachable semaphore) (uses : Uses 1 waits semaphore)
    (returned : semaphore.points .promise = .idle) (open_ : semaphore.completed = 0) :
    ((semaphore.points .future).inDebt = 0 -> 0 < semaphore.value.toInt) ∧
      ((semaphore.points .future).inDebt = 1 -> semaphore.credits = 1) := by
  have account := tokenAccount_of_reachable backend concurrency reachable
  have debts := account.debts
  have tokens := account.tokens
  have sent := uses.signals
  rw [census_sides undeposited, (undeposited_of_awaiting uses.future).1, returned] at tokens debts
  rw [census_sides inDebt, returned] at debts
  rw [returned] at sent
  change 0 + (semaphore.points .future).inDebt = _ + (0 + 0) at debts
  change _ + (0 + 0) = semaphore.signalled at tokens
  change semaphore.signalled + 0 = 1 at sent
  constructor
  · intro solvent
    omega
  · intro indebted
    have one : semaphore.credits.toNat = 1 := by omega
    apply BitVec.eq_of_toNat_eq
    rw [one, BitVec.ofNat_eq_ofNat, BitVec.toNat_ofNat, Nat.mod_eq_of_lt]
    exact Nat.one_lt_two_pow (Nat.ne_of_gt (Nat.lt_of_succ_lt (backend.one_lt_valueBits concurrency)))

/-- Once the signal has returned, nobody is parked. -/
theorem not_parked_of_signalled (reachable : SlotReachable semaphore) (uses : Uses 1 waits semaphore)
    (few : waits ≤ 1) (returned : semaphore.points .promise = .idle) : semaphore.points .future ≠ .parked := by
  intro parked
  have open_ : semaphore.completed = 0 := by
    have taken := uses.waits
    rw [parked] at taken
    change semaphore.completed + 1 = waits at taken
    omega
  have credit := (token_of_signalled reachable uses returned open_).2 (by rw [parked]; rfl)
  have covered := (wakeAccount_of_reachable backend concurrency reachable).covered
  rw [census_sides, census_sides, census_sides, returned, parked, credit] at covered
  have one : (1 : BitVec (backend.valueBits concurrency)).toNat = 1 := by
    rw [BitVec.ofNat_eq_ofNat, BitVec.toNat_ofNat, Nat.mod_eq_of_lt]
    exact Nat.one_lt_two_pow (Nat.ne_of_gt (Nat.lt_of_succ_lt (backend.one_lt_valueBits concurrency)))
  rw [one] at covered
  simp [isParked, inDebtAwake, owedWakes] at covered

/-- How far a waiter is from its return when its token or credit is there. -/
def stepsToReturn (credits : BitVec width) : SemaphorePoint width bits -> Nat
  | .waitDeregister => 1
  | .waitSubtract => 1
  | .waitTake found => if found = credits then 2 else 3
  | .waitLoad => 4
  | .waitPark => 5
  | .waitFence => 5
  | .waitRegister => 6
  | _ => 0

/-- Once the signal has returned, the waiter has a step that brings it nearer
to its return. -/
theorem nearer_of_signalled (reachable : SlotReachable semaphore) (uses : Uses 1 waits semaphore)
    (few : waits ≤ 1) (returned : semaphore.points .promise = .idle) (inside : semaphore.points .future ≠ .idle) :
    Exists fun next => SemaphoreStep semaphore next ∧ Inside semaphore next ∧ next.points .promise = .idle ∧
      stepsToReturn next.credits (next.points .future) <
        stepsToReturn semaphore.credits (semaphore.points .future) := by
  have kept : forall (next : SemaphoreState Side (backend.valueBits concurrency) concurrency.bits)
      (point : SemaphorePoint (backend.valueBits concurrency) concurrency.bits),
      next.points = Function.update semaphore.points .future point ->
      Inside semaphore next ∧ next.points .promise = .idle ∧ next.points .future = point := by
    intro next point points
    have own : next.points .future = point := by
      rw [points]
      exact Function.update_self _ _ _
    have other : next.points .promise = .idle := by
      rw [points, ← returned]
      exact Function.update_of_ne (by decide) _ _
    refine ⟨?_, other, own⟩
    intro side idle
    cases side with
    | promise => exact other
    | future => exact absurd idle inside
  have open_ : untaken (semaphore.points .future) = 1 -> semaphore.completed = 0 := by
    intro waiting
    have taken := uses.waits
    omega
  have token := token_of_signalled reachable uses returned
  have one : (1 : BitVec (backend.valueBits concurrency)) ≠ 0 := by
    intro same
    have value := congrArg BitVec.toNat same
    rw [BitVec.ofNat_eq_ofNat, BitVec.toNat_ofNat, Nat.mod_eq_of_lt] at value
    · cases value
    · exact Nat.one_lt_two_pow (Nat.ne_of_gt (Nat.lt_of_succ_lt (backend.one_lt_valueBits concurrency)))
  have advance : forall (next : SemaphoreState Side (backend.valueBits concurrency) concurrency.bits)
      (point : SemaphorePoint (backend.valueBits concurrency) concurrency.bits),
      SemaphoreStep semaphore next -> next.points = Function.update semaphore.points .future point ->
      stepsToReturn next.credits point < stepsToReturn semaphore.credits (semaphore.points .future) ->
      Exists fun next => SemaphoreStep semaphore next ∧ Inside semaphore next ∧ next.points .promise = .idle ∧
        stepsToReturn next.credits (next.points .future) <
          stepsToReturn semaphore.credits (semaphore.points .future) := by
    intro next point move points nearer
    rcases kept next point points with ⟨stays, other, own⟩
    exact ⟨next, move, stays, other, own ▸ nearer⟩
  cases place : semaphore.points .future with
  | idle => exact absurd place inside
  | waitSubtract =>
      have value := (token (open_ (by rw [place]; rfl))).1 (by rw [place]; rfl)
      rw [← place]
      exact advance _ _ (.subtractToken .future place value) rfl (by rw [place]; exact Nat.zero_lt_one)
  | waitRegister =>
      rw [← place]
      exact advance _ _ (.register .future place) rfl (by rw [place]; exact (by decide : 5 < 6))
  | waitFence =>
      rw [← place]
      exact advance _ _ (.fence .future place) rfl (by rw [place]; exact (by decide : 4 < 5))
  | waitLoad =>
      have credit := (token (open_ (by rw [place]; rfl))).2 (by rw [place]; rfl)
      rw [← place]
      refine advance _ _ (.loadCredits .future place) rfl ?_
      change stepsToReturn semaphore.credits _ < _
      rw [place, credit, SemaphorePoint.creditHead, if_neg one, stepsToReturn, if_pos rfl]
      exact (by decide : 2 < 4)
  | waitTake found =>
      have credit := (token (open_ (by rw [place]; rfl))).2 (by rw [place]; rfl)
      rw [← place]
      by_cases same : semaphore.credits = found
      · refine advance _ _ (.takeCredit .future found place same (by rw [← same, credit]; exact one)) rfl ?_
        rw [place, stepsToReturn, stepsToReturn, if_pos same.symm]
        exact (by decide : 1 < 2)
      · refine advance _ _ (.takeFail .future found place) rfl ?_
        change stepsToReturn semaphore.credits _ < _
        rw [place, stepsToReturn, if_neg (Ne.symm same), credit, SemaphorePoint.creditHead, if_neg one, stepsToReturn,
          if_pos rfl]
        exact (by decide : 2 < 3)
  | waitDeregister =>
      rw [← place]
      exact advance _ _ (.deregister .future place) rfl (by rw [place]; exact Nat.zero_lt_one)
  | waitPark =>
      rw [← place]
      exact advance _ _ (.parkRefused .future place) rfl (by rw [place]; exact (by decide : 4 < 5))
  | parked => exact absurd place (not_parked_of_signalled reachable uses few returned)
  | _ => cases (place ▸ uses.future : awaiting _ = true)

end Runs

end Futures
end Sweater
