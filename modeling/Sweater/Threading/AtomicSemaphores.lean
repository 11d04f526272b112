import Sweater.Interleaving.AtomicObjects
import Sweater.Threading.CondvarSemaphore
import Sweater.Threading.SemaphoreTokens

namespace Sweater
namespace Threading

open Interleaving

/-!
# Programs on either semaphore

A counting semaphore adds the tokens of a signal, and takes one for a wait, at
once.  The futex semaphore and the condition variable semaphore take many steps
for it, and hand tokens from thread to thread.  No program can tell: what it
does with one of them it also does with the counting semaphore.

Both `wait()` and `wait( spin_count )` are a wait.
-/

/-- The operations of a semaphore. -/
inductive SemaphoreOperation
  | signal (count : Nat)
  | wait
  deriving DecidableEq, Repr

/-- What a semaphore is for. -/
def countingSemaphore (Thread : Type) : ObjectSpec Thread SemaphoreOperation Unit Nat where
  start := 0
  effect := fun _ operation tokens _ tokens' =>
    match operation with
    | .signal count => tokens' = tokens + count
    | .wait => tokens = tokens' + 1

variable {Thread : Type}

/-! ## The futex semaphore -/

section Futex

variable {width bits : Nat}

namespace SemaphorePoint

/-- A signal has had its effect when it has added to the value, and a wait when
it has a token or a credit. -/
def session : SemaphorePoint width bits -> Session SemaphoreOperation Unit
  | idle => .outside
  | signalAdd count => .pending (.signal count.toNat)
  | signalDeposit _ | signalGate _ | signalWake _ => .answered ()
  | waitDeregister => .answered ()
  | _ => .pending .wait

theorem session_spinHead (spinCount spinTry : Nat) (value : BitVec width) :
    (spinHead spinCount spinTry value : SemaphorePoint width bits).session = .pending .wait := by
  rw [spinHead]
  split <;> rfl

theorem session_creditHead (credits : BitVec width) :
    (creditHead credits : SemaphorePoint width bits).session = .pending .wait := by
  rw [creditHead]
  split <;> rfl

end SemaphorePoint

namespace SemaphoreState

/-- The futex semaphore as its users see it. -/
def interface : Interface (SemaphoreState Thread width bits) Thread SemaphoreOperation Unit :=
  .atPoints SemaphoreState.points SemaphorePoint.session fun _ _ _ => ()

variable {before after : SemaphoreState Thread width bits} [DecidableEq Thread]

theorem points_goto_self (state : SemaphoreState Thread width bits) (thread : Thread) (point : SemaphorePoint width bits) :
    (state.goto thread point).points thread = point :=
  Function.update_self _ _ _

theorem points_goto_of_ne (state : SemaphoreState Thread width bits) {thread other : Thread} (different : other ≠ thread)
    (point : SemaphorePoint width bits) : (state.goto thread point).points other = state.points other :=
  Function.update_of_ne different _ _

variable [Fintype Thread]

theorem TokenAccount.single (account : TokenAccount before) (move : SemaphoreStep before after) :
    interface.Single outstandingTokens (countingSemaphore Thread) before after := by
  have tokens := account.tokens
  have completed : before.completed ≤ before.signalled := by omega
  have taken : forall completed signalled : Nat, completed < signalled ->
      signalled - completed = signalled - (completed + 1) + 1 := by omega
  cases move with
  | callSignal thread count place =>
      exact Interface.Single.of_update place rfl fun earlier later => .enter (.signal count.toNat) earlier later rfl
  | callWait thread place => exact Interface.Single.of_update place rfl fun earlier later => .enter .wait earlier later rfl
  | callSpinWait thread spinCount place =>
      exact Interface.Single.of_update place rfl fun earlier later => .enter .wait earlier later rfl
  | addUncontended thread count place =>
      refine Interface.Single.of_update place rfl fun earlier later => .effectAndLeave (.signal count.toNat) earlier ?_ later
      exact Nat.sub_add_comm completed
  | addIndebted thread count place =>
      refine Interface.Single.of_update place rfl fun earlier later => .effect (.signal count.toNat) () earlier ?_ later
      exact Nat.sub_add_comm completed
  | deposit thread toWake place | gateOpen thread toWake place =>
      exact Interface.Single.of_update place rfl fun earlier later => .pause (later.trans earlier.symm) rfl
  | gateClosed thread toWake place =>
      exact Interface.Single.of_update place rfl fun earlier later => .leave () earlier rfl later rfl
  | wake thread toWake woken place asleep =>
      refine .of_points place (points_goto_self _ thread .idle) ?_ fun earlier later => .leave () earlier rfl later rfl
      intro other different
      rw [points_goto_of_ne _ different]
      change (if other ∈ woken then _ else before.points other).session = _
      by_cases member : other ∈ woken
      · rw [if_pos member, asleep other member]
        rfl
      · rw [if_neg member]
  | spinBegin thread spinCount place =>
      refine Interface.Single.of_update place rfl fun earlier later => .pause ?_ rfl
      rw [later, earlier, SemaphorePoint.session_spinHead]
      rfl
  | spinReload thread spinCount spinTry value place =>
      refine Interface.Single.of_update place rfl fun earlier later => .pause ?_ rfl
      rw [later, earlier, SemaphorePoint.session_spinHead]
      rfl
  | spinTake thread spinCount spinTry value place positive same =>
      subst same
      exact Interface.Single.of_update place rfl fun earlier later => .effectAndLeave .wait earlier (taken _ _ (by omega)) later
  | subtractToken thread place positive =>
      exact Interface.Single.of_update place rfl fun earlier later => .effectAndLeave .wait earlier (taken _ _ (by omega)) later
  | spinFail thread spinCount spinTry value place | subtractDebt thread place | register thread place | fence thread place
  | park thread place | parkRefused thread place | spuriousReturn thread place =>
      exact Interface.Single.of_update place rfl fun earlier later => .pause (later.trans earlier.symm) rfl
  | loadCredits thread place =>
      refine Interface.Single.of_update place rfl fun earlier later => .pause ?_ rfl
      rw [later, earlier, SemaphorePoint.session_creditHead]
      rfl
  | takeFail thread credits place =>
      refine Interface.Single.of_update place rfl fun earlier later => .pause ?_ rfl
      rw [later, earlier, SemaphorePoint.session_creditHead]
      rfl
  | takeCredit thread credits place same positive =>
      subst same
      have some : before.credits.toNat ≠ 0 := by
        intro none
        exact positive (BitVec.eq_of_toNat_eq (by simpa using none))
      exact Interface.Single.of_update place rfl fun earlier later => .effect .wait () earlier (taken _ _ (by omega)) later
  | deregister thread place => exact Interface.Single.of_update place rfl fun earlier later => .leave () earlier rfl later rfl

end SemaphoreState

open SemaphoreState

variable [Fintype Thread] [DecidableEq Thread] (backend : FutexBackend) (concurrency : HardwareConcurrency)

/-- The futex semaphore as a party of a program. -/
def futexSemaphore (Thread : Type) [Fintype Thread] [DecidableEq Thread] (backend : FutexBackend)
    (concurrency : HardwareConcurrency) : Party (Event Thread SemaphoreOperation Unit)
      (SemaphoreState Thread (backend.valueBits concurrency) concurrency.bits) :=
  interface.party (semaphoreSystem Thread (backend.valueBits concurrency) concurrency.bits)

variable {backend concurrency} in
theorem single_of_reachable {before after : SemaphoreState Thread (backend.valueBits concurrency) concurrency.bits}
    (reachable : ((semaphoreSystem Thread (backend.valueBits concurrency) concurrency.bits).within InRange).Reachable before)
    (move : SemaphoreStep before after) : interface.Single outstandingTokens (countingSemaphore Thread) before after :=
  (tokenAccount_of_reachable backend concurrency reachable).single move

/-- Whatever state a program comes to with a futex semaphore that stays in its
range, it also comes to with a counting semaphore.  No step of the semaphore is
kept from the program. -/
theorem futex_semaphore_is_atomic {User : Type} (user : Party (Event Thread SemaphoreOperation Unit) User)
    (state : User × SemaphoreState Thread (backend.valueBits concurrency) concurrency.bits)
    (reachable : ((uses user (futexSemaphore Thread backend concurrency)).within fun state => InRange state.2).Reachable
      state) :
    (uses user (countingSemaphore Thread).atomic).Reachable (state.1, interface.view outstandingTokens state.2) ∧
      forall after, SemaphoreStep state.2 after ->
        Exists fun event => (futexSemaphore Thread backend concurrency).step event state.2 after := by
  constructor
  · apply Interface.uses_atomic _ (fun before after reached move _ => single_of_reachable reached move) reachable
    rintro _ rfl
    rfl
  · intro after move
    obtain ⟨event, shown⟩ := (single_of_reachable (Interface.reachable_of_uses reachable) move).shows
    exact ⟨event, move, shown⟩

/-- The waiter of `handover` is in its call, and the signaler has added its token and
not returned. -/
theorem futex_semaphore_is_atomic_handover :
    (uses (Party.free (Event (Fin 2) SemaphoreOperation Unit)) (countingSemaphore (Fin 2)).atomic).Reachable
      ((), ⟨1, fun thread => if thread = 0 then .pending .wait else .answered ()⟩) := by
  have reachable : ((uses (Party.free _) (futexSemaphore (Fin 2) .linux .uint16)).within
      fun state => InRange state.2).Reachable ((), handover) :=
    Interface.uses_free (fun before after reached move _ => single_of_reachable reached move) handover_reachable
  convert (futex_semaphore_is_atomic .linux .uint16 (Party.free _) ((), handover) reachable).1 using 2
  apply AtomicObject.ext
  · rfl
  · funext thread
    fin_cases thread <;> rfl

end Futex

/-! ## The condition variable semaphore -/

section Condvar

/-- A wait has had its effect when it leaves. -/
def CondvarPoint.session : CondvarPoint -> Session SemaphoreOperation Unit
  | idle => .outside
  | signalAdd count => .pending (.signal count)
  | signalRelease _ | signalCompare _ | notifyOne _ | notifyAll => .answered ()
  | _ => .pending .wait

theorem CondvarPoint.session_spinHead (spinCount spinTry : Nat) (value : Int) :
    (spinHead spinCount spinTry value).session = .pending .wait := by
  rw [spinHead]
  split <;> rfl

theorem CondvarPoint.session_notifyHead (remaining : Nat) :
    (notifyHead remaining).session = if remaining = 0 then .outside else .answered () := by
  rw [notifyHead]
  split <;> rfl

namespace CondvarState

def interface : Interface (CondvarState Thread) Thread SemaphoreOperation Unit :=
  .atPoints CondvarState.points CondvarPoint.session fun _ _ _ => ()

/-- The tokens signalled and not yet taken. -/
def available (state : CondvarState Thread) : Nat := state.signalled - state.completed

variable [DecidableEq Thread] {before after : CondvarState Thread}

theorem points_goto_self (state : CondvarState Thread) (thread : Thread) (point : CondvarPoint) :
    (state.goto thread point).points thread = point :=
  Function.update_self _ _ _

theorem points_goto_of_ne (state : CondvarState Thread) {thread other : Thread} (different : other ≠ thread)
    (point : CondvarPoint) : (state.goto thread point).points other = state.points other :=
  Function.update_of_ne different _ _

omit [DecidableEq Thread] in
/-- The end of a signal, or a step towards it. -/
theorem performs_of_answered {thread : Thread} {next : CondvarPoint} (told : next.session = .outside ∨ next.session = .answered ())
    (same : available after = available before) (earlier : interface.session before thread = .answered ())
    (later : interface.session after thread = next.session) :
    interface.Performs available (countingSemaphore Thread) before after thread := by
  rcases told with outside | answered
  · exact .leave () earlier rfl (later.trans outside) same
  · exact .pause (later.trans (answered.trans earlier.symm)) same

theorem Balanced.single [Fintype Thread] {exactSelection : Bool} (balanced : Balanced before before.totals)
    (move : CondvarStep exactSelection before after) :
    interface.Single available (countingSemaphore Thread) before after := by
  have tokens := balanced.tokens
  have completed : before.completed ≤ before.signalled := by omega
  have taken : forall completed signalled : Nat, completed < signalled ->
      signalled - completed = signalled - (completed + 1) + 1 := by omega
  have answered : forall remaining, (CondvarPoint.notifyHead remaining).session = .outside ∨
      (CondvarPoint.notifyHead remaining).session = .answered () := by
    intro remaining
    rw [CondvarPoint.session_notifyHead]
    split
    · exact Or.inl rfl
    · exact Or.inr rfl
  cases move with
  | callSignal thread count place =>
      exact Interface.Single.of_update place rfl fun earlier later => .enter (.signal count) earlier later rfl
  | callWait thread place => exact Interface.Single.of_update place rfl fun earlier later => .enter .wait earlier later rfl
  | callSpinWait thread spinCount place =>
      exact Interface.Single.of_update place rfl fun earlier later => .enter .wait earlier later rfl
  | addPaid thread count place =>
      refine Interface.Single.of_update place rfl fun earlier later => .effectAndLeave (.signal count) earlier ?_ later
      exact Nat.sub_add_comm completed
  | addShort thread count place =>
      refine Interface.Single.of_update place rfl fun earlier later => .effect (.signal count) () earlier ?_ later
      exact Nat.sub_add_comm completed
  | release thread toRelease place =>
      refine Interface.Single.of_update place rfl fun earlier later => performs_of_answered ?_ rfl earlier later
      rw [afterRelease]
      split
      · exact Or.inl rfl
      · split
        · exact Or.inr rfl
        · exact Or.inr rfl
  | compareFew thread toWake place | notifyNobody thread toWake place =>
      exact Interface.Single.of_update place rfl fun earlier later => performs_of_answered (answered _) rfl earlier later
  | compareAll thread toWake place =>
      exact Interface.Single.of_update place rfl fun earlier later => performs_of_answered (Or.inr rfl) rfl earlier later
  | notifySleeper thread sleeper remaining place sleeps =>
      refine .of_points place (points_goto_self _ thread (.notifyHead (remaining - 1))) ?_
        fun earlier later => performs_of_answered (answered _) rfl earlier later
      intro other different
      rw [points_goto_of_ne _ different]
      by_cases same : other = sleeper
      · rw [same, points_goto_self, sleeps]
        rfl
      · rw [points_goto_of_ne _ same]
  | notifyAll thread place =>
      refine .of_points place (points_goto_self _ thread .idle) ?_ fun earlier later => .leave () earlier rfl later rfl
      intro other different
      rw [points_goto_of_ne _ different]
      change (if before.points other = .asleep then _ else before.points other).session = _
      by_cases asleep : before.points other = .asleep
      · rw [if_pos asleep, asleep]
        rfl
      · rw [if_neg asleep]
  | spinBegin thread spinCount place =>
      refine Interface.Single.of_update place rfl fun earlier later => .pause ?_ rfl
      rw [later, earlier, CondvarPoint.session_spinHead]
      rfl
  | spinReload thread spinCount spinTry value place =>
      refine Interface.Single.of_update place rfl fun earlier later => .pause ?_ rfl
      rw [later, earlier, CondvarPoint.session_spinHead]
      rfl
  | spinFail thread spinCount spinTry value place =>
      refine Interface.Single.of_update place rfl fun earlier later => .pause ?_ rfl
      rw [later, earlier, CondvarPoint.session_spinHead]
      rfl
  | spinTake thread spinCount spinTry value place positive same =>
      subst same
      exact Interface.Single.of_update place rfl fun earlier later => .effectAndLeave .wait earlier (taken _ _ (by omega)) later
  | subtractToken thread place positive =>
      exact Interface.Single.of_update place rfl fun earlier later => .effectAndLeave .wait earlier (taken _ _ (by omega)) later
  | leave thread place =>
      have own := weight_le_census (fun point : CondvarPoint => point.weigh.leaving) before.points thread
      rw [place] at own
      change 1 ≤ before.totals.leaving at own
      exact Interface.Single.of_update place rfl fun earlier later => .effectAndLeave .wait earlier (taken _ _ (by omega)) later
  | subtractDebt thread place | enter thread place | consume thread place | sleep thread place | spuriousWake thread place
  | relock thread place =>
      exact Interface.Single.of_update place rfl fun earlier later => .pause (later.trans earlier.symm) rfl

end CondvarState

open CondvarState

/-- The condition variable semaphore without exact worker selection. -/
def condvarSemaphore (Thread : Type) [DecidableEq Thread] :
    Party (Event Thread SemaphoreOperation Unit) (CondvarState Thread) :=
  CondvarState.interface.party (condvarSystem Thread false)

variable [DecidableEq Thread]

/-- Without exact worker selection nothing is assumed of the runs. -/
theorem condvarRuns_of_reachable [Fintype Thread] {state : CondvarState Thread}
    (reachable : (condvarSystem Thread false).Reachable state) :
    ((condvarRuns Thread false).stepsWhere (SignalsDebt false)).Reachable state := by
  induction reachable with
  | initial start => exact .initial ⟨start, by simp [OneWaiter]⟩
  | step _ move inductionHypothesis => exact .step inductionHypothesis ⟨⟨move, by simp [OneWaiter]⟩, by simp [SignalsDebt]⟩

theorem condvar_single [Fintype Thread] {before after : CondvarState Thread}
    {accept : CondvarState Thread -> Prop} (reachable : ((condvarSystem Thread false).within accept).Reachable before)
    (move : CondvarStep false before after) : CondvarState.interface.Single available (countingSemaphore Thread) before after :=
  (balanced_of_reachable (condvarRuns_of_reachable reachable.of_within)).1.single move

/-- Whatever state a program comes to with a condition variable semaphore that
is built without exact worker selection, and whose words stay in their range, it
also comes to with a counting semaphore.  No step of the semaphore is kept from
the program. -/
theorem condvar_semaphore_is_atomic [Fintype Thread] (concurrency : HardwareConcurrency) {User : Type}
    (user : Party (Event Thread SemaphoreOperation Unit) User) (state : User × CondvarState Thread)
    (reachable : ((uses user (condvarSemaphore Thread)).within fun state => state.2.InRange concurrency.bits).Reachable
      state) :
    (uses user (countingSemaphore Thread).atomic).Reachable (state.1, CondvarState.interface.view available state.2) ∧
      forall after, CondvarStep false state.2 after ->
        Exists fun event => (condvarSemaphore Thread).step event state.2 after := by
  constructor
  · apply Interface.uses_atomic _ (fun before after reached move _ => condvar_single reached move) reachable
    rintro _ rfl
    rfl
  · intro after move
    obtain ⟨event, shown⟩ := (condvar_single (Interface.reachable_of_uses reachable) move).shows
    exact ⟨event, move, shown⟩

/-- A signal has left a token. -/
theorem condvar_semaphore_is_atomic_signal :
    (uses (Party.free (Event (Fin 1) SemaphoreOperation Unit)) (countingSemaphore (Fin 1)).atomic).Reachable
      ((), ⟨1, fun _ => .answered ()⟩) := by
  have start : ((uses (Party.free _) (condvarSemaphore (Fin 1))).within fun state => state.2.InRange 16).Reachable
      ((), CondvarState.fresh) :=
    .initial ⟨⟨trivial, rfl⟩, by constructor <;> decide⟩
  have called : ((uses (Party.free _) (condvarSemaphore (Fin 1))).within fun state => state.2.InRange 16).Reachable
      ((), CondvarState.fresh.goto 0 (.signalAdd 1)) :=
    .step start ⟨.both (.calls 0 (.signal 1)) trivial ⟨.callSignal 0 1 rfl (by decide), .calls 0 _ rfl rfl⟩,
      by constructor <;> decide⟩
  have added := System.Reachable.step called
    ⟨.object ⟨.addShort 0 1 rfl (by decide), .nothing (by decide)⟩, by constructor <;> decide⟩
  convert (condvar_semaphore_is_atomic .uint16 (Party.free _) _ added).1 using 2
  apply AtomicObject.ext
  · rfl
  · funext thread
    fin_cases thread
    rfl

end Condvar

end Threading
end Sweater
