import Sweater.Interleaving.Reachability
import Mathlib.Order.WellFounded
import Mathlib.Data.Fintype.Order
import Mathlib.Logic.Function.Basic

namespace Sweater
namespace Interleaving

/-!
# Reentrant reader-writer locks

What a family of reader-writer locks with reentrant reads is for: a thread may
read a lock any number of times, and nobody reads while somebody writes.  There
are no queues here and no preference.  An implementation is compared with these
rules through the holds that its callers have.

Locks that are taken in a fixed order cannot make threads wait for each other.
The order need not be total, and it is not an order on the threads.
-/

variable {Thread Lock : Type}

/-- How often each thread reads a lock, and who writes it. -/
@[ext]
structure LockHolds (Thread Lock : Type) where
  reads : Thread -> Lock -> Nat
  writer : Lock -> Option Thread

namespace LockHolds

section Rules

variable [DecidableEq Thread] [DecidableEq Lock] (holds : LockHolds Thread Lock)

def setReads (thread : Thread) (lock : Lock) (count : Nat) : LockHolds Thread Lock :=
  { holds with reads := Function.update holds.reads thread (Function.update (holds.reads thread) lock count) }

def setWriter (lock : Lock) (writer : Option Thread) : LockHolds Thread Lock :=
  { holds with writer := Function.update holds.writer lock writer }

theorem reads_setReads (thread reader : Thread) (lock other : Lock) (count : Nat) :
    (holds.setReads thread lock count).reads reader other =
      if reader = thread ∧ other = lock then count else holds.reads reader other := by
  change Function.update holds.reads thread (Function.update (holds.reads thread) lock count) reader other = _
  by_cases same : reader = thread
  · subst same
    rw [Function.update_self]
    by_cases here : other = lock
    · rw [here, Function.update_self, if_pos ⟨rfl, rfl⟩]
    · rw [Function.update_of_ne here, if_neg (fun both => here both.2)]
  · rw [Function.update_of_ne same, if_neg (fun both => same both.1)]

omit [DecidableEq Thread] in
theorem writer_setWriter_of_ne {lock other : Lock} (different : other ≠ lock) (writer : Option Thread) :
    (holds.setWriter lock writer).writer other = holds.writer other :=
  Function.update_of_ne different _ _

/-- A hold begins or ends. -/
inductive Step (before : LockHolds Thread Lock) : LockHolds Thread Lock -> Prop
  | read (thread : Thread) (lock : Lock) : before.writer lock = none ->
      Step before (before.setReads thread lock (before.reads thread lock + 1))
  | unread (thread : Thread) (lock : Lock) : 0 < before.reads thread lock ->
      Step before (before.setReads thread lock (before.reads thread lock - 1))
  | write (thread : Thread) (lock : Lock) : before.writer lock = none ->
      (forall reader, before.reads reader lock = 0) -> Step before (before.setWriter lock (some thread))
  | unwrite (thread : Thread) (lock : Lock) : before.writer lock = some thread ->
      Step before (before.setWriter lock none)
  | pause : Step before before

end Rules

/-- The thread holds the lock on one of its sides. -/
def HeldBy (holds : LockHolds Thread Lock) (lock : Lock) (thread : Thread) : Prop :=
  0 < holds.reads thread lock ∨ holds.writer lock = some thread

/-- Nobody reads while somebody writes. -/
def Exclusive (holds : LockHolds Thread Lock) : Prop :=
  forall lock, holds.writer lock ≠ none -> forall reader, holds.reads reader lock = 0

end LockHolds

/-- The family, with no holds in the beginning. -/
def reentrantLocks (Thread Lock : Type) [DecidableEq Thread] [DecidableEq Lock] : System (LockHolds Thread Lock) where
  initial := fun holds => holds = ⟨fun _ _ => 0, fun _ => none⟩
  step := LockHolds.Step

theorem reentrantLocks_exclusive [DecidableEq Thread] [DecidableEq Lock] {holds : LockHolds Thread Lock}
    (reachable : (reentrantLocks Thread Lock).Reachable holds) : holds.Exclusive := by
  apply reachable.invariant
  · rintro _ rfl lock _ reader
    rfl
  · intro before after _ exclusive move lock writing reader
    cases move with
    | read thread other free =>
        rw [LockHolds.reads_setReads]
        split
        · rename_i same
          rw [same.2] at writing
          exact absurd free writing
        · exact exclusive lock writing reader
    | unread thread other _ =>
        have unread : before.reads reader lock = 0 := exclusive lock writing reader
        rw [LockHolds.reads_setReads]
        split
        · rename_i same
          rw [← same.1, ← same.2, unread]
        · exact unread
    | write thread other free unread =>
        by_cases here : lock = other
        · subst here
          exact unread reader
        · rw [LockHolds.writer_setWriter_of_ne _ here] at writing
          exact exclusive lock writing reader
    | unwrite thread other _ =>
        by_cases here : lock = other
        · subst here
          exact absurd (Function.update_self _ _ _) writing
        · rw [LockHolds.writer_setWriter_of_ne _ here] at writing
          exact exclusive lock writing reader
    | pause => exact exclusive lock writing reader

/-! ## Waiting in order -/

section Order

variable {Rank : Type} [Preorder Rank] (rank : Lock -> Rank) (awaited : Thread -> Option Lock)

/-- One thread waits for a lock that comes after the one another thread waits for. -/
def WaitsLater (next thread : Thread) : Prop :=
  Exists fun lock => Exists fun later => awaited thread = some lock ∧ awaited next = some later ∧ rank lock < rank later

theorem waitsLater_wellFounded [Finite Thread] : WellFounded (WaitsLater rank awaited) := by
  have transitive : IsTrans Thread (WaitsLater rank awaited) := by
    constructor
    rintro first second third ⟨middle, last, secondWaits, firstWaits, greater⟩ ⟨least, same, thirdWaits, again, less⟩
    cases secondWaits.symm.trans again
    exact ⟨least, last, thirdWaits, firstWaits, lt_trans less greater⟩
  have irreflexive : Std.Irrefl (WaitsLater rank awaited) := by
    constructor
    rintro thread ⟨lock, later, waits, again, less⟩
    cases waits.symm.trans again
    exact lt_irrefl _ less
  exact Finite.wellFounded_of_trans_of_irrefl _

/-- Every chain of waiting threads comes to an end, if each of them waits for a
lock that comes later in the order. -/
theorem waits_end [Finite Thread] {conclusion : Prop}
    (onwards : forall thread lock, awaited thread = some lock -> conclusion ∨
      Exists fun next => Exists fun later => awaited next = some later ∧ rank lock < rank later)
    {thread : Thread} {lock : Lock} (waits : awaited thread = some lock) : conclusion := by
  revert lock
  induction thread using (waitsLater_wellFounded rank awaited).induction with
  | _ thread inductionHypothesis =>
      intro lock waits
      rcases onwards thread lock waits with holds | ⟨next, later, nextWaits, less⟩
      · exact holds
      · exact inductionHypothesis next ⟨lock, later, waits, nextWaits, less⟩ nextWaits

end Order

end Interleaving
end Sweater
