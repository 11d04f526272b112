import Sweater.Threading.FutexSemaphore
import Sweater.Machine.Words
import Mathlib.Tactic.FinCases

namespace Sweater
namespace Threading

open Interleaving
open SemaphorePoint

/-!
# Token conservation of the futex semaphore

A token is in `value_`, in `credits_`, in the hands of a signaler that has not
deposited it yet, or taken by a completed wait.  A waiter in debt is matched
by the negative part of `value_`, by a credit, or by an undeposited credit.
`TokenAccount` states both balances.  Each atomic operation changes at most
one word and one program point, and the balances are re-established from the
two weights of that point.
-/

variable {Thread : Type} [Fintype Thread] {width bits : Nat}

namespace SemaphoreState

/-- Fewer waiters and fewer outstanding tokens than `hardware_concurrency_t`
and the signed `value_` can represent. -/
structure InRange (state : SemaphoreState Thread width bits) : Prop where
  waitersCounted : census waiting state.points < 2 ^ bits
  waitersSigned : 2 * census waiting state.points < 2 ^ width
  tokensCounted : state.signalled < state.completed + 2 ^ bits
  tokensSigned : 2 * state.signalled < 2 * state.completed + 2 ^ width

/-- The two balances of the semaphore. -/
structure TokenAccount (state : SemaphoreState Thread width bits) : Prop where
  debts : census inDebt state.points =
    (-state.value.toInt).toNat + state.credits.toNat + census undeposited state.points
  tokens : state.completed + state.value.toInt.toNat + state.credits.toNat +
    census undeposited state.points = state.signalled

end SemaphoreState

namespace SemaphoreState

omit [Fintype Thread] in
theorem inDebt_le_waiting (point : SemaphorePoint width bits) :
    point.inDebt ≤ point.waiting := by
  cases point <;> simp only [inDebt, waiting, Nat.le_refl, Nat.zero_le]

/-- Both balances, from the values that a step leaves in the five quantities. -/
theorem TokenAccount.of_values {after : SemaphoreState Thread width bits}
    {value : Int} {credits debt held completed signalled : Nat}
    (valueIs : after.value.toInt = value) (creditsAre : after.credits.toNat = credits)
    (debtIs : census inDebt after.points = debt)
    (heldIs : census undeposited after.points = held)
    (completedAre : after.completed = completed) (signalledAre : after.signalled = signalled)
    (debts : debt = (-value).toNat + credits + held)
    (tokens : completed + value.toNat + credits + held = signalled) : TokenAccount after := by
  subst valueIs creditsAre debtIs heldIs completedAre signalledAre
  exact ⟨debts, tokens⟩

section Moves

variable [DecidableEq Thread]

/-- The census after a thread has moved between two known points. -/
theorem census_goto (weight : SemaphorePoint width bits -> Nat)
    (state : SemaphoreState Thread width bits) (thread : Thread)
    {here : SemaphorePoint width bits} (place : state.points thread = here)
    (next : SemaphorePoint width bits) :
    census weight (state.goto thread next).points + weight here =
      census weight state.points + weight next := by
  rw [← place]
  exact census_update weight state.points thread next

/-- A thread whose two points have the same weight leaves the census alone. -/
theorem census_goto_same (weight : SemaphorePoint width bits -> Nat)
    (state : SemaphoreState Thread width bits) (thread : Thread)
    {here : SemaphorePoint width bits} (place : state.points thread = here)
    (next : SemaphorePoint width bits) (same : weight next = weight here) :
    census weight (state.goto thread next).points = census weight state.points := by
  have moved := census_goto weight state thread place next
  omega

/-- A local step that neither takes on debt nor holds a deposit back keeps
both balances. -/
theorem TokenAccount.goto {state : SemaphoreState Thread width bits}
    (account : TokenAccount state) (thread : Thread) {here next : SemaphorePoint width bits}
    (place : state.points thread = here) (debt : next.inDebt = here.inDebt)
    (deposit : next.undeposited = here.undeposited) : TokenAccount (state.goto thread next) :=
  .of_values rfl rfl (census_goto_same _ state thread place _ debt)
    (census_goto_same _ state thread place _ deposit) rfl rfl account.debts account.tokens

theorem inDebt_spinHead (spinCount spinTry : Nat) (value : BitVec width) :
    (spinHead spinCount spinTry value : SemaphorePoint width bits).inDebt = 0 := by
  unfold spinHead
  split <;> rfl

theorem undeposited_spinHead (spinCount spinTry : Nat) (value : BitVec width) :
    (spinHead spinCount spinTry value : SemaphorePoint width bits).undeposited = 0 := by
  unfold spinHead
  split <;> rfl

theorem inDebt_creditHead (credits : BitVec width) :
    (creditHead credits : SemaphorePoint width bits).inDebt = 1 := by
  unfold creditHead
  split <;> rfl

theorem undeposited_creditHead (credits : BitVec width) :
    (creditHead credits : SemaphorePoint width bits).undeposited = 0 := by
  unfold creditHead
  split <;> rfl

/-- The state in the middle of a wake, after the parked threads have left and
before the signaler has. -/
def release (state : SemaphoreState Thread width bits) (woken : Finset Thread) :
    SemaphoreState Thread width bits :=
  { state with points := fun other => if other ∈ woken then .waitLoad else state.points other }

theorem census_release (weight : SemaphorePoint width bits -> Nat)
    (state : SemaphoreState Thread width bits) (woken : Finset Thread)
    (asleep : forall other, other ∈ woken -> state.points other = .parked) :
    census weight (state.release woken).points + woken.card * weight parked =
      census weight state.points + woken.card * weight waitLoad :=
  census_broadcast weight state.points woken parked waitLoad asleep

omit [Fintype Thread] in
/-- A thread that is not parked is left where it was by a wake. -/
theorem release_other (state : SemaphoreState Thread width bits) (woken : Finset Thread)
    (asleep : forall other, other ∈ woken -> state.points other = .parked) {thread : Thread}
    {here : SemaphorePoint width bits} (place : state.points thread = here)
    (running : here ≠ .parked) : (state.release woken).points thread = here := by
  have absent : thread ∉ woken := by
    intro member
    exact running (place.symm.trans (asleep thread member))
  exact (if_neg absent).trans place

end Moves

/-! ## The arithmetic of one signal -/

omit [Fintype Thread] in
/-- The credits handed over by a signal are the smaller one of the debt it
found and its own count. -/
theorem toNat_toWake (oldValue : BitVec width) (count : BitVec bits) (indebted : oldValue.toInt < 0)
    (counted : (-oldValue.toInt).toNat < 2 ^ bits) :
    (toWake oldValue count).toNat = min (-oldValue.toInt).toNat count.toNat := by
  have debt : (BitVec.ofInt bits (-oldValue.toInt)).toNat = (-oldValue.toInt).toNat := by
    have bound : (((-oldValue.toInt).toNat : Nat) : Int) < ((2 ^ bits : Nat) : Int) :=
      Int.ofNat_lt.mpr counted
    rw [BitVec.toNat_ofInt, Int.emod_eq_of_lt (by omega) (by omega)]
  unfold toWake
  rw [debt]
  split
  · rw [debt]
    omega
  · omega

/-- A signal adds its count to the value without wrapping. -/
theorem TokenAccount.value_add (wide : bits ≤ width) {state : SemaphoreState Thread width bits}
    (account : TokenAccount state) (count : BitVec bits)
    (room : 2 * (state.signalled + count.toNat) < 2 * state.completed + 2 ^ width) :
    (state.value + count.setWidth width).toInt = state.value.toInt + count.toNat := by
  have tokens := account.tokens
  exact Machine.toInt_add_setWidth wide state.value count (by omega) (by omega)

/-! ## Every step keeps the balances -/

theorem TokenAccount.step [DecidableEq Thread] (wide : bits ≤ width) (large : 1 < width)
    {before after : SemaphoreState Thread width bits} (account : TokenAccount before)
    (small : InRange before) (move : SemaphoreStep before after) (range : InRange after) :
    TokenAccount after := by
  have debts := account.debts
  have tokens := account.tokens
  have owing : census inDebt before.points ≤ census waiting before.points :=
    census_le_census (fun thread => inDebt_le_waiting _)
  have counted := small.waitersCounted
  cases move with
  | callSignal thread count place => exact account.goto thread place rfl rfl
  | callWait thread place => exact account.goto thread place rfl rfl
  | callSpinWait thread spinCount place => exact account.goto thread place rfl rfl
  | addUncontended thread count place paid =>
      exact .of_values (account.value_add wide count range.tokensSigned)
        (Eq.refl before.credits.toNat) (census_goto_same _ before thread place _ rfl)
        (census_goto_same _ before thread place _ rfl) (Eq.refl before.completed)
        (Eq.refl (before.signalled + count.toNat)) (by omega) (by omega)
  | addIndebted thread count place indebted =>
      have handed := toNat_toWake before.value count indebted (by omega)
      have moved := census_goto undeposited before thread place
        (signalDeposit (SemaphoreState.toWake before.value count))
      change _ + 0 = _ + (SemaphoreState.toWake before.value count).toNat at moved
      exact .of_values (account.value_add wide count range.tokensSigned)
        (Eq.refl before.credits.toNat) (census_goto_same _ before thread place _ rfl)
        (Eq.refl (census undeposited (before.goto thread _).points)) (Eq.refl before.completed)
        (Eq.refl (before.signalled + count.toNat)) (by omega) (by omega)
  | deposit thread toWake place =>
      have held := weight_le_census undeposited before.points thread
      rw [place] at held
      change toWake.toNat ≤ _ at held
      have bound := small.tokensCounted
      have widen := Nat.pow_le_pow_right (n := 2) (by decide) wide
      have moved := census_goto undeposited before thread place (signalGate toWake)
      change _ + toWake.toNat = _ + 0 at moved
      exact .of_values (Eq.refl before.value.toInt)
        (Machine.toNat_add_setWidth wide before.credits toWake (by omega))
        (census_goto_same _ before thread place _ rfl)
        (Eq.refl (census undeposited (before.goto thread _).points)) (Eq.refl before.completed)
        (Eq.refl before.signalled) (by omega) (by omega)
  | gateOpen thread toWake place => exact account.goto thread place rfl rfl
  | gateClosed thread toWake place => exact account.goto thread place rfl rfl
  | wake thread toWake woken place asleep =>
      have debt := census_release inDebt before woken asleep
      have held := census_release undeposited before woken asleep
      change _ + woken.card * 1 = _ + woken.card * 1 at debt
      change _ + woken.card * 0 = _ + woken.card * 0 at held
      have released : TokenAccount (before.release woken) :=
        .of_values (Eq.refl before.value.toInt) (Eq.refl before.credits.toNat) rfl rfl
          (Eq.refl before.completed) (Eq.refl before.signalled) (by omega) (by omega)
      exact released.goto thread (before.release_other woken asleep place nofun) rfl rfl
  | spinBegin thread spinCount place =>
      exact account.goto thread place (inDebt_spinHead _ _ _) (undeposited_spinHead _ _ _)
  | spinReload thread spinCount spinTry value place =>
      exact account.goto thread place (inDebt_spinHead _ _ _) (undeposited_spinHead _ _ _)
  | spinTake thread spinCount spinTry value place positive same =>
      subst same
      exact .of_values (Machine.toInt_sub_one large before.value (by omega))
        (Eq.refl before.credits.toNat) (census_goto_same _ before thread place _ rfl)
        (census_goto_same _ before thread place _ rfl) (Eq.refl (before.completed + 1))
        (Eq.refl before.signalled) (by omega) (by omega)
  | spinFail thread spinCount spinTry value place => exact account.goto thread place rfl rfl
  | subtractToken thread place positive =>
      exact .of_values (Machine.toInt_sub_one large before.value (by omega))
        (Eq.refl before.credits.toNat) (census_goto_same _ before thread place _ rfl)
        (census_goto_same _ before thread place _ rfl) (Eq.refl (before.completed + 1))
        (Eq.refl before.signalled) (by omega) (by omega)
  | subtractDebt thread place spent =>
      have entered := census_goto waiting before thread place waitRegister
      change _ + 0 = _ + 1 at entered
      have room : 2 * census waiting (before.goto thread waitRegister).points < 2 ^ width :=
        range.waitersSigned
      have moved := census_goto inDebt before thread place waitRegister
      change _ + 0 = _ + 1 at moved
      exact .of_values (Machine.toInt_sub_one large before.value (by omega))
        (Eq.refl before.credits.toNat) (Eq.refl (census inDebt (before.goto thread _).points))
        (census_goto_same _ before thread place _ rfl) (Eq.refl before.completed)
        (Eq.refl before.signalled) (by omega) (by omega)
  | register thread place =>
      have kept : TokenAccount (before.goto thread waitFence) := account.goto thread place rfl rfl
      exact ⟨kept.debts, kept.tokens⟩
  | fence thread place => exact account.goto thread place rfl rfl
  | loadCredits thread place =>
      exact account.goto thread place (inDebt_creditHead _) (undeposited_creditHead _)
  | takeCredit thread credits place same positive =>
      subst same
      have some : 0 < before.credits.toNat := by
        apply Nat.pos_of_ne_zero
        intro none
        exact positive (BitVec.eq_of_toNat_eq (by simpa using none))
      have taken := Machine.toNat_sub_one before.credits some
      have moved := census_goto inDebt before thread place waitDeregister
      change _ + 1 = _ + 0 at moved
      exact .of_values (Eq.refl before.value.toInt) (Eq.refl (before.credits - 1).toNat)
        (Eq.refl (census inDebt (before.goto thread _).points))
        (census_goto_same _ before thread place _ rfl) (Eq.refl (before.completed + 1))
        (Eq.refl before.signalled) (by omega) (by omega)
  | takeFail thread credits place =>
      exact account.goto thread place (inDebt_creditHead _) (undeposited_creditHead _)
  | deregister thread place =>
      have kept : TokenAccount (before.goto thread idle) := account.goto thread place rfl rfl
      exact ⟨kept.debts, kept.tokens⟩
  | park thread place => exact account.goto thread place rfl rfl
  | parkRefused thread place => exact account.goto thread place rfl rfl
  | spuriousReturn thread place => exact account.goto thread place rfl rfl

/-! ## The abstract counting semaphore -/

/-- What a semaphore is for: signals add tokens, and a wait completes by
taking one.  A step of the implementation may also be invisible. -/
inductive CountingStep : Nat -> Nat -> Prop
  | signal (tokens count : Nat) : CountingStep tokens (tokens + count)
  | take (tokens : Nat) : CountingStep (tokens + 1) tokens
  | invisible (tokens : Nat) : CountingStep tokens tokens

/-- The tokens signalled and not yet taken. -/
def outstandingTokens (state : SemaphoreState Thread width bits) : Nat :=
  state.signalled - state.completed

/-- The futex semaphore refines the counting semaphore: a wait completes only
by taking a token that some signal has added. -/
theorem TokenAccount.refines [DecidableEq Thread] {before after : SemaphoreState Thread width bits}
    (account : TokenAccount before) (move : SemaphoreStep before after) :
    CountingStep (outstandingTokens before) (outstandingTokens after) := by
  have tokens := account.tokens
  have taken : forall completed signalled : Nat, completed < signalled ->
      CountingStep (signalled - completed) (signalled - (completed + 1)) := by
    intro completed signalled fewer
    have split : signalled - completed = signalled - (completed + 1) + 1 := by omega
    rw [split]
    exact .take _
  have added : forall count : Nat, CountingStep (before.signalled - before.completed)
      (before.signalled + count - before.completed) := by
    intro count
    rw [Nat.sub_add_comm (by omega)]
    exact .signal _ _
  cases move with
  | addUncontended thread count => exact added count.toNat
  | addIndebted thread count => exact added count.toNat
  | spinTake thread spinCount spinTry value place positive same =>
      subst same
      exact taken _ _ (by omega)
  | subtractToken thread place positive => exact taken _ _ (by omega)
  | takeCredit thread credits place same positive =>
      subst same
      have some : before.credits.toNat ≠ 0 := by
        intro none
        exact positive (BitVec.eq_of_toNat_eq (by simpa using none))
      exact taken _ _ (by omega)
  | _ => exact .invisible _

end SemaphoreState

open SemaphoreState

/-! ## Whole runs -/

theorem FutexBackend.one_lt_valueBits (backend : FutexBackend) (concurrency : HardwareConcurrency) :
    1 < backend.valueBits concurrency := by
  cases backend <;> cases concurrency <;> decide

theorem tokenAccount_of_reachable [DecidableEq Thread] (backend : FutexBackend)
    (concurrency : HardwareConcurrency)
    {state : SemaphoreState Thread (backend.valueBits concurrency) concurrency.bits}
    (reachable : ((semaphoreSystem Thread (backend.valueBits concurrency)
      concurrency.bits).within InRange).Reachable state) : TokenAccount state := by
  refine reachable.invariant ?_ ?_
  · rintro _ ⟨rfl, _⟩
    have none : forall weight : SemaphorePoint (backend.valueBits concurrency) concurrency.bits -> Nat,
        weight idle = 0 -> census weight (fun _thread : Thread => idle) = 0 :=
      fun weight zero => (census_eq_zero_iff _ _).mpr (fun _thread => zero)
    exact .of_values BitVec.toInt_zero BitVec.toNat_zero (none inDebt rfl) (none undeposited rfl)
      rfl rfl rfl rfl
  · intro before after earlier account move
    exact account.step (concurrency.bits_le_valueBits backend)
      (backend.one_lt_valueBits concurrency) earlier.inside move.1 move.2

/-- In every reachable state the waiters in debt are exactly covered by the
negative part of the value, the credits and the credits still to be deposited,
and every token ever signalled is in exactly one place. -/
theorem semaphore_conserves_tokens [DecidableEq Thread] (backend : FutexBackend)
    (concurrency : HardwareConcurrency)
    (state : SemaphoreState Thread (backend.valueBits concurrency) concurrency.bits)
    (reachable : ((semaphoreSystem Thread (backend.valueBits concurrency)
      concurrency.bits).within InRange).Reachable state) :
    (census inDebt state.points : Int) =
        max 0 (-state.value.toInt) + state.credits.toNat + census undeposited state.points ∧
      (state.completed : Int) + max 0 state.value.toInt + state.credits.toNat +
        census undeposited state.points = state.signalled ∧
      state.completed ≤ state.signalled := by
  have account := tokenAccount_of_reachable backend concurrency reachable
  have debts := account.debts
  have tokens := account.tokens
  refine ⟨?_, ?_, ?_⟩ <;> omega

/-- A waiter in debt, and a signaler that has seen the debt but has not
deposited the credit. -/
def handover : SemaphoreState (Fin 2) 32 16 where
  value := 0
  credits := 0
  sleepers := 0
  points := fun thread => if thread.val = 0 then .waitRegister else .signalDeposit 1
  signalled := 1
  completed := 0

theorem handover_reachable :
    ((semaphoreSystem (Fin 2) 32 16).within InRange).Reachable handover := by
  have start : ((semaphoreSystem (Fin 2) 32 16).within InRange).Reachable fresh :=
    .initial ⟨rfl, by constructor <;> decide⟩
  have waits := System.Reachable.step start
    ⟨SemaphoreStep.callWait 0 rfl, by constructor <;> decide⟩
  have owes := System.Reachable.step waits
    ⟨SemaphoreStep.subtractDebt 0 rfl (by decide), by constructor <;> decide⟩
  have signals := System.Reachable.step owes
    ⟨SemaphoreStep.callSignal 1 1 rfl (by decide), by constructor <;> decide⟩
  have adds := System.Reachable.step signals
    ⟨SemaphoreStep.addIndebted 1 1 rfl (by decide), by constructor <;> decide⟩
  convert adds using 1
  simp only [handover, SemaphoreState.mk.injEq]
  refine ⟨by decide, by decide, by decide, ?_, rfl, rfl⟩
  funext thread
  fin_cases thread <;> decide

/-- The waiter of `handover` is covered by the credit held back. -/
theorem semaphore_conserves_tokens_handover :
    (census inDebt handover.points : Int) =
        max 0 (-handover.value.toInt) + handover.credits.toNat + census undeposited handover.points ∧
      (handover.completed : Int) + max 0 handover.value.toInt + handover.credits.toNat +
        census undeposited handover.points = handover.signalled ∧
      handover.completed ≤ handover.signalled :=
  semaphore_conserves_tokens .linux .uint16 handover handover_reachable

end Threading
end Sweater
