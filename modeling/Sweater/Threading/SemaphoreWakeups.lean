import Sweater.Threading.SemaphoreTokens

namespace Sweater
namespace Threading

open Interleaving
open SemaphorePoint

/-!
# No lost wake-up in the futex semaphore

A signaler that has deposited credits owes as many wakes until it has either
issued them or found `sleepers_` to be zero.  While some waiter is parked, the
credits never exceed the indebted waiters that can run plus the wakes owed.
The gate is safe because every parked waiter is registered, and parking is
safe because it compares `credits_` with zero in the same atomic step.
-/

variable {Thread : Type} [Fintype Thread] {width bits : Nat}

namespace SemaphoreState

/-- `sleepers_` is exact, and no credit waits beside parked waiters only. -/
structure WakeAccount (state : SemaphoreState Thread width bits) : Prop where
  sleepers : state.sleepers.toNat = census registered state.points
  covered : census isParked state.points = 0 ∨
    state.credits.toNat ≤ census inDebtAwake state.points + census owedWakes state.points

omit [Fintype Thread] in
theorem isParked_le_registered (point : SemaphorePoint width bits) :
    point.isParked ≤ point.registered := by
  cases point <;> simp only [isParked, registered, Nat.le_refl, Nat.zero_le]

omit [Fintype Thread] in
theorem registered_le_waiting (point : SemaphorePoint width bits) :
    point.registered ≤ point.waiting := by
  cases point <;> simp only [registered, waiting, Nat.le_refl, Nat.zero_le]

section Moves

variable [DecidableEq Thread]

/-- A local step that leaves the registration alone, parks nobody and does not
reduce the runnable waiters and owed wakes together keeps the account. -/
theorem WakeAccount.goto {state : SemaphoreState Thread width bits}
    (account : WakeAccount state) (thread : Thread) {here next : SemaphorePoint width bits}
    (place : state.points thread = here) (registration : next.registered = here.registered)
    (asleep : next.isParked ≤ here.isParked)
    (runnable : here.inDebtAwake + here.owedWakes ≤ next.inDebtAwake + next.owedWakes) :
    WakeAccount (state.goto thread next) where
  sleepers := by
    rw [census_goto_same registered state thread place _ registration]
    exact account.sleepers
  covered := by
    have parkedThere := census_goto isParked state thread place next
    have awake := census_goto inDebtAwake state thread place next
    have owed := census_goto owedWakes state thread place next
    change _ ∨ state.credits.toNat ≤ _
    rcases account.covered with none | covered
    · left
      omega
    · right
      omega

theorem registered_spinHead (spinCount spinTry : Nat) (value : BitVec width) :
    (spinHead spinCount spinTry value : SemaphorePoint width bits).registered = 0 := by
  unfold spinHead
  split <;> rfl

theorem isParked_spinHead (spinCount spinTry : Nat) (value : BitVec width) :
    (spinHead spinCount spinTry value : SemaphorePoint width bits).isParked = 0 := by
  unfold spinHead
  split <;> rfl

theorem registered_creditHead (credits : BitVec width) :
    (creditHead credits : SemaphorePoint width bits).registered = 1 := by
  unfold creditHead
  split <;> rfl

theorem isParked_creditHead (credits : BitVec width) :
    (creditHead credits : SemaphorePoint width bits).isParked = 0 := by
  unfold creditHead
  split <;> rfl

theorem inDebtAwake_creditHead (credits : BitVec width) :
    (creditHead credits : SemaphorePoint width bits).inDebtAwake = 1 := by
  unfold creditHead
  split <;> rfl

/-- A wake either empties the wait queue or releases as many waiters as it
was asked for, each of which can then run. -/
theorem WakeAccount.wake {state : SemaphoreState Thread width bits}
    (account : WakeAccount state) (thread : Thread) (toWake : BitVec bits) (woken : Finset Thread)
    (place : state.points thread = signalWake toWake)
    (asleep : forall other, other ∈ woken -> state.points other = parked)
    (enough : min toWake.toNat (census isParked state.points) ≤ woken.card) :
    WakeAccount ((state.release woken).goto thread idle) := by
  have stays := state.release_other woken asleep place nofun
  have parkedLeft := census_release isParked state woken asleep
  have awake := census_release inDebtAwake state woken asleep
  have owed := census_release owedWakes state woken asleep
  have registration := census_release registered state woken asleep
  have parkedAfter := census_goto_same isParked (state.release woken) thread stays idle rfl
  have awakeAfter := census_goto_same inDebtAwake (state.release woken) thread stays idle rfl
  have registeredAfter :=
    census_goto_same registered (state.release woken) thread stays idle rfl
  have owedAfter := census_goto owedWakes (state.release woken) thread stays idle
  change _ + woken.card * 1 = _ + woken.card * 0 at parkedLeft
  change _ + woken.card * 0 = _ + woken.card * 1 at awake
  change _ + woken.card * 0 = _ + woken.card * 0 at owed
  change _ + woken.card * 1 = _ + woken.card * 1 at registration
  change _ + toWake.toNat = _ + 0 at owedAfter
  constructor
  · change state.sleepers.toNat = _
    have sleepers := account.sleepers
    omega
  · change _ ∨ state.credits.toNat ≤ _
    rcases account.covered with none | covered
    · left
      omega
    · by_cases left : census isParked ((state.release woken).goto thread idle).points = 0
      · exact Or.inl left
      · right
        omega

end Moves

theorem WakeAccount.step [DecidableEq Thread] (wide : bits ≤ width)
    {before after : SemaphoreState Thread width bits} (account : WakeAccount before)
    (tokens : TokenAccount before) (small : InRange before) (move : SemaphoreStep before after)
    (range : InRange after) : WakeAccount after := by
  have sleepers := account.sleepers
  cases move with
  | callSignal thread count place => exact account.goto thread place rfl (Nat.le_refl _) (Nat.zero_le _)
  | callWait thread place => exact account.goto thread place rfl (Nat.le_refl _) (Nat.zero_le _)
  | callSpinWait thread spinCount place =>
      exact account.goto thread place rfl (Nat.le_refl _) (Nat.zero_le _)
  | addUncontended thread count place =>
      have kept : WakeAccount (before.goto thread idle) :=
        account.goto thread place rfl (Nat.le_refl _) (Nat.zero_le _)
      exact ⟨kept.sleepers, kept.covered⟩
  | addIndebted thread count place =>
      have kept : WakeAccount (before.goto thread (signalDeposit (toWake before.value count))) :=
        account.goto thread place rfl (Nat.le_refl _) (Nat.zero_le _)
      exact ⟨kept.sleepers, kept.covered⟩
  | deposit thread toWake place =>
      have balance := tokens.tokens
      have held := weight_le_census undeposited before.points thread
      rw [place] at held
      change toWake.toNat ≤ _ at held
      have bound := small.tokensCounted
      have widen := Nat.pow_le_pow_right (n := 2) (by decide) wide
      have credits := Machine.toNat_add_setWidth wide before.credits toWake (by omega)
      have owed := census_goto owedWakes before thread place (signalGate toWake)
      change _ + 0 = _ + toWake.toNat at owed
      constructor
      · change _ = census registered (before.goto thread _).points
        rw [census_goto_same registered before thread place (signalGate toWake) rfl]
        exact sleepers
      · change census isParked (before.goto thread _).points = 0 ∨
          (before.credits + toWake.setWidth width).toNat ≤
            census inDebtAwake (before.goto thread _).points +
              census owedWakes (before.goto thread (signalGate toWake)).points
        rw [census_goto_same isParked before thread place (signalGate toWake) rfl,
          census_goto_same inDebtAwake before thread place (signalGate toWake) rfl, credits]
        rcases account.covered with none | covered
        · exact Or.inl none
        · right
          omega
  | gateOpen thread toWake place =>
      exact account.goto thread place rfl (Nat.le_refl _) (Nat.le_refl _)
  | gateClosed thread toWake place none =>
      -- Nobody is registered, hence nobody is parked.
      have empty : census registered before.points = 0 := by
        rw [← sleepers, none]
        exact BitVec.toNat_zero
      have unparked : census isParked before.points ≤ census registered before.points :=
        census_le_census (fun _ => isParked_le_registered _)
      constructor
      · rw [census_goto_same registered before thread place idle rfl]
        exact sleepers
      · left
        rw [census_goto_same isParked before thread place idle rfl]
        omega
  | wake thread toWake woken place asleep enough =>
      exact account.wake thread toWake woken place asleep enough
  | spinBegin thread spinCount place =>
      exact account.goto thread place (registered_spinHead _ _ _)
        (Nat.le_of_eq (isParked_spinHead _ _ _)) (Nat.zero_le _)
  | spinReload thread spinCount spinTry value place =>
      exact account.goto thread place (registered_spinHead _ _ _)
        (Nat.le_of_eq (isParked_spinHead _ _ _)) (Nat.zero_le _)
  | spinTake thread spinCount spinTry value place =>
      have kept : WakeAccount (before.goto thread idle) :=
        account.goto thread place rfl (Nat.le_refl _) (Nat.zero_le _)
      exact ⟨kept.sleepers, kept.covered⟩
  | spinFail thread spinCount spinTry value place =>
      exact account.goto thread place rfl (Nat.le_refl _) (Nat.zero_le _)
  | subtractToken thread place =>
      have kept : WakeAccount (before.goto thread idle) :=
        account.goto thread place rfl (Nat.le_refl _) (Nat.zero_le _)
      exact ⟨kept.sleepers, kept.covered⟩
  | subtractDebt thread place =>
      have kept : WakeAccount (before.goto thread waitRegister) :=
        account.goto thread place rfl (Nat.le_refl _) (Nat.zero_le _)
      exact ⟨kept.sleepers, kept.covered⟩
  | register thread place =>
      have moved := census_goto registered before thread place waitFence
      change _ + 0 = _ + 1 at moved
      have counted : census registered (before.goto thread waitFence).points ≤
          census waiting (before.goto thread waitFence).points :=
        census_le_census (fun _ => registered_le_waiting _)
      have bound : census waiting (before.goto thread waitFence).points < 2 ^ bits :=
        range.waitersCounted
      have word := Machine.toNat_add_one before.sleepers (by omega)
      constructor
      · change (before.sleepers + 1).toNat = census registered (before.goto thread _).points
        omega
      · change census isParked (before.goto thread _).points = 0 ∨ before.credits.toNat ≤
          census inDebtAwake (before.goto thread _).points +
            census owedWakes (before.goto thread _).points
        rw [census_goto_same isParked before thread place waitFence rfl,
          census_goto_same inDebtAwake before thread place waitFence rfl,
          census_goto_same owedWakes before thread place waitFence rfl]
        exact account.covered
  | fence thread place => exact account.goto thread place rfl (Nat.le_refl _) (Nat.le_refl _)
  | loadCredits thread place =>
      exact account.goto thread place (registered_creditHead _) (Nat.le_of_eq (isParked_creditHead _))
        (by rw [inDebtAwake_creditHead]; exact Nat.le_add_right _ _)
  | takeCredit thread credits place same positive =>
      subst same
      have some : 0 < before.credits.toNat := by
        apply Nat.pos_of_ne_zero
        intro none
        exact positive (BitVec.eq_of_toNat_eq (by simpa using none))
      have taken := Machine.toNat_sub_one before.credits some
      have awake := census_goto inDebtAwake before thread place waitDeregister
      change _ + 1 = _ + 0 at awake
      constructor
      · change _ = census registered (before.goto thread _).points
        rw [census_goto_same registered before thread place waitDeregister rfl]
        exact sleepers
      · change census isParked (before.goto thread _).points = 0 ∨ (before.credits - 1).toNat ≤
          census inDebtAwake (before.goto thread waitDeregister).points +
            census owedWakes (before.goto thread _).points
        rw [census_goto_same isParked before thread place waitDeregister rfl,
          census_goto_same owedWakes before thread place waitDeregister rfl]
        rcases account.covered with none | covered
        · exact Or.inl none
        · right
          omega
  | takeFail thread credits place =>
      exact account.goto thread place (registered_creditHead _) (Nat.le_of_eq (isParked_creditHead _))
        (by rw [inDebtAwake_creditHead]; exact Nat.le_add_right _ _)
  | deregister thread place =>
      have moved := census_goto registered before thread place idle
      change _ + 1 = _ + 0 at moved
      have word := Machine.toNat_sub_one before.sleepers (by omega)
      constructor
      · change (before.sleepers - 1).toNat = census registered (before.goto thread _).points
        omega
      · change census isParked (before.goto thread _).points = 0 ∨ before.credits.toNat ≤
          census inDebtAwake (before.goto thread _).points +
            census owedWakes (before.goto thread _).points
        rw [census_goto_same isParked before thread place idle rfl,
          census_goto_same inDebtAwake before thread place idle rfl,
          census_goto_same owedWakes before thread place idle rfl]
        exact account.covered
  | park thread place empty =>
      constructor
      · rw [census_goto_same registered before thread place parked rfl]
        exact sleepers
      · right
        change before.credits.toNat ≤ _
        rw [empty, BitVec.ofNat_eq_ofNat, BitVec.toNat_zero]
        exact Nat.zero_le _
  | parkRefused thread place =>
      exact account.goto thread place rfl (Nat.le_refl _) (Nat.le_refl _)
  | spuriousReturn thread place =>
      exact account.goto thread place rfl (Nat.zero_le _) (Nat.zero_le _)

end SemaphoreState

open SemaphoreState

theorem wakeAccount_of_reachable [DecidableEq Thread] (backend : FutexBackend)
    (concurrency : HardwareConcurrency)
    {state : SemaphoreState Thread (backend.valueBits concurrency) concurrency.bits}
    (reachable : ((semaphoreSystem Thread (backend.valueBits concurrency)
      concurrency.bits).within InRange).Reachable state) : WakeAccount state := by
  refine reachable.invariant ?_ ?_
  · rintro _ ⟨rfl, _⟩
    have none : forall weight : SemaphorePoint (backend.valueBits concurrency) concurrency.bits -> Nat,
        weight idle = 0 -> census weight (fun _thread : Thread => idle) = 0 :=
      fun weight zero => (census_eq_zero_iff _ _).mpr (fun _thread => zero)
    exact ⟨BitVec.toNat_zero.trans (none registered rfl).symm, Or.inl (none isParked rfl)⟩
  · intro before after earlier account move
    exact account.step (concurrency.bits_le_valueBits backend)
      (tokenAccount_of_reachable backend concurrency earlier) earlier.inside move.1 move.2

/-- Unless no waiter is parked, the credits are covered by indebted waiters
that can run and by wakes that signalers still owe.  In particular a credit
beside a parked waiter always has somebody left who will see it. -/
theorem semaphore_loses_no_wakeup [DecidableEq Thread] (backend : FutexBackend)
    (concurrency : HardwareConcurrency)
    (state : SemaphoreState Thread (backend.valueBits concurrency) concurrency.bits)
    (reachable : ((semaphoreSystem Thread (backend.valueBits concurrency)
      concurrency.bits).within InRange).Reachable state) :
    (census isParked state.points = 0 ∨
      state.credits.toNat ≤ census inDebtAwake state.points + census owedWakes state.points) ∧
    ((Exists fun thread => state.points thread = parked) -> 0 < state.credits.toNat ->
      (Exists fun thread => 0 < (state.points thread).inDebtAwake) ∨
        Exists fun thread => 0 < (state.points thread).owedWakes) := by
  have account := wakeAccount_of_reachable backend concurrency reachable
  refine ⟨account.covered, ?_⟩
  rintro ⟨thread, asleep⟩ credit
  have present := weight_le_census isParked state.points thread
  rw [asleep] at present
  change 1 ≤ _ at present
  have covered := account.covered.resolve_left (by omega)
  rw [← census_pos_iff, ← census_pos_iff]
  omega

/-- A waiter that has parked, and a signaler that has deposited its credit and
has not looked at `sleepers_` yet. -/
def deposited : SemaphoreState (Fin 2) 32 16 where
  value := 0
  credits := 1
  sleepers := 1
  points := fun thread => if thread.val = 0 then .parked else .signalGate 1
  signalled := 1
  completed := 0

theorem deposited_reachable : ((semaphoreSystem (Fin 2) 32 16).within InRange).Reachable deposited := by
  have start : ((semaphoreSystem (Fin 2) 32 16).within InRange).Reachable fresh :=
    .initial ⟨rfl, by constructor <;> decide⟩
  have waits := System.Reachable.step start ⟨SemaphoreStep.callWait 0 rfl, by constructor <;> decide⟩
  have owes := System.Reachable.step waits ⟨SemaphoreStep.subtractDebt 0 rfl (by decide), by constructor <;> decide⟩
  have counted := System.Reachable.step owes ⟨SemaphoreStep.register 0 rfl, by constructor <;> decide⟩
  have fenced := System.Reachable.step counted ⟨SemaphoreStep.fence 0 rfl, by constructor <;> decide⟩
  have reads := System.Reachable.step fenced ⟨SemaphoreStep.loadCredits 0 rfl, by constructor <;> decide⟩
  have parks := System.Reachable.step reads ⟨SemaphoreStep.park 0 rfl rfl, by constructor <;> decide⟩
  have signals := System.Reachable.step parks ⟨SemaphoreStep.callSignal 1 1 rfl (by decide), by constructor <;> decide⟩
  have adds := System.Reachable.step signals ⟨SemaphoreStep.addIndebted 1 1 rfl (by decide), by constructor <;> decide⟩
  have deposits := System.Reachable.step adds ⟨SemaphoreStep.deposit 1 1 rfl, by constructor <;> decide⟩
  convert deposits using 1
  simp only [deposited, SemaphoreState.mk.injEq]
  refine ⟨by decide, by decide, by decide, ?_, rfl, rfl⟩
  funext thread
  fin_cases thread <;> decide

/-- In `deposited` there is a credit beside the parked waiter, nobody in debt is
awake, and the wake is still owed. -/
theorem semaphore_loses_no_wakeup_deposited :
    deposited.points 0 = parked ∧ 0 < deposited.credits.toNat ∧ census inDebtAwake deposited.points = 0 ∧
      (census isParked deposited.points = 0 ∨
        deposited.credits.toNat ≤ census inDebtAwake deposited.points + census owedWakes deposited.points) ∧
      ((Exists fun thread => 0 < (deposited.points thread).inDebtAwake) ∨
        Exists fun thread => 0 < (deposited.points thread).owedWakes) := by
  have covering := semaphore_loses_no_wakeup .linux .uint16 deposited deposited_reachable
  exact ⟨rfl, by decide, by decide, covering.1, covering.2 ⟨0, rfl⟩ (by decide)⟩

end Threading
end Sweater
