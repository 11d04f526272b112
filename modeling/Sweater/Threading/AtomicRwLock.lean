import Sweater.Interleaving.AtomicObjects
import Sweater.Threading.RwExclusion

namespace Sweater
namespace Threading

open Interleaving
open RwWord
open RwState

/-!
# Programs on the futex reader-writer lock

A lock that is free, shared or held, and whose operations are done at once.
The futex locks announce, park and retry for it, under either preference.
Programs that release only what they hold cannot tell the difference.

A try may fail for no reason that a program knows of.
-/

/-- Who holds a reader-writer lock. -/
@[ext]
structure Holds (Thread : Type) where
  reads : Thread -> Nat
  writing : Thread -> Bool

namespace Holds

variable {Thread : Type} [DecidableEq Thread]

def none : Holds Thread := ⟨fun _ => 0, fun _ => false⟩

def enter (holds : Holds Thread) (thread : Thread) : Holds Thread :=
  { holds with reads := Function.update holds.reads thread (holds.reads thread + 1) }

def leave (holds : Holds Thread) (thread : Thread) : Holds Thread :=
  { holds with reads := Function.update holds.reads thread (holds.reads thread - 1) }

def setWriting (holds : Holds Thread) (thread : Thread) (writing : Bool) : Holds Thread :=
  { holds with writing := Function.update holds.writing thread writing }

end Holds

inductive LockOperation
  | acquireRo
  | releaseRo
  | acquireRw
  | releaseRw
  | tryAcquireRo
  | tryAcquireRw
  deriving DecidableEq, Repr

/-- What the operations of a reader-writer lock do.  The result tells whether
the thread has got a hold. -/
inductive LockEffect {Thread : Type} [DecidableEq Thread] (thread : Thread) :
    LockOperation -> Holds Thread -> Bool -> Holds Thread -> Prop
  | share {holds} (operation : LockOperation) :
      operation = .acquireRo ∨ operation = .tryAcquireRo -> (forall other, holds.writing other = false) ->
      LockEffect thread operation holds true (holds.enter thread)
  | seize {holds} (operation : LockOperation) :
      operation = .acquireRw ∨ operation = .tryAcquireRw ->
      (forall other, holds.writing other = false) -> (forall other, holds.reads other = 0) ->
      LockEffect thread operation holds true (holds.setWriting thread true)
  | unshare {holds} :
      0 < holds.reads thread -> LockEffect thread .releaseRo holds false (holds.leave thread)
  | unseize {holds} :
      holds.writing thread = true -> LockEffect thread .releaseRw holds false (holds.setWriting thread false)
  | tryFails {holds} (operation : LockOperation) :
      operation = .tryAcquireRo ∨ operation = .tryAcquireRw -> LockEffect thread operation holds false holds

/-- What a reader-writer lock is for. -/
def readerWriterLock (Thread : Type) [DecidableEq Thread] : ObjectSpec Thread LockOperation Bool (Holds Thread) where
  start := .none
  effect := LockEffect

variable {Thread : Type} {preference : RwPreference} {width : Nat}

/-- A release has had its effect before it wakes anybody. -/
def RwPoint.session : RwPoint preference width -> Session LockOperation Bool
  | idle => .outside
  | roLoad | roEnter _ _ | roAnnounce _ _ | roPark _ _ | roParked => .pending .acquireRo
  | roRelease => .pending .releaseRo
  | rwLoad | rwTake _ _ | rwAnnounce _ _ | rwPark _ _ _ | rwParked => .pending .acquireRw
  | rwRelease => .pending .releaseRw
  | roWake | rwWake => .answered false
  | tryRoLoad | tryRoEnter _ _ => .pending .tryAcquireRo
  | tryRwLoad | tryRwTake _ _ => .pending .tryAcquireRw

theorem RwPoint.session_roHead (observed : BitVec width) :
    (roHead observed : RwPoint preference width).session = .pending .acquireRo := by
  rw [roHead]
  split
  · rfl
  · split <;> rfl

theorem RwPoint.session_rwHead (observed : BitVec width) :
    (rwHead observed : RwPoint preference width).session = .pending .acquireRw := by
  rw [rwHead]
  split
  · rfl
  · split <;> rfl

namespace RwThread

/-- Whether a thread has got a hold. -/
def Gains (before after : RwThread preference width) : Prop :=
  before.reads < after.reads ∨ (before.writing = false ∧ after.writing = true)

instance (before after : RwThread preference width) : Decidable (before.Gains after) :=
  inferInstanceAs (Decidable (_ ∨ _))

theorem session_unpark (backend : FutexBackend) (wakeBitset : Nat) (thread : RwThread preference width) :
    (thread.unpark backend wakeBitset).point.session = thread.point.session := by
  rcases unpark_cases backend wakeBitset thread with same | ⟨place, moved⟩ | ⟨place, moved⟩
  · rw [same]
  · rw [moved, place]
    rfl
  · rw [moved, place]
    rfl

end RwThread

namespace RwState

/-- The lock as its users see it. -/
def interface : Interface (RwState Thread preference width) Thread LockOperation Bool :=
  .atPoints RwState.threads (fun thread => thread.point.session)
    fun before after thread => decide ((before.threads thread).Gains (after.threads thread))

def holds (state : RwState Thread preference width) : Holds Thread :=
  ⟨fun thread => (state.threads thread).reads, fun thread => (state.threads thread).writing⟩

variable [DecidableEq Thread]

section Changes

variable (state : RwState Thread preference width) (thread : Thread) (word : BitVec width)

theorem holds_change (next : RwThread preference width) : (state.change thread word next).holds =
    ⟨Function.update state.holds.reads thread next.reads, Function.update state.holds.writing thread next.writing⟩ := by
  apply Holds.ext
  · funext other
    exact Function.apply_update (fun (_ : Thread) (own : RwThread preference width) => own.reads) state.threads thread next other
  · funext other
    exact Function.apply_update (fun (_ : Thread) (own : RwThread preference width) => own.writing) state.threads thread next other

theorem holds_change_goto (point : RwPoint preference width) :
    (state.change thread word ((state.threads thread).goto point)).holds = state.holds := by
  rw [holds_change]
  exact Holds.ext (Function.update_eq_self thread state.holds.reads) (Function.update_eq_self thread state.holds.writing)

theorem holds_change_enter : (state.change thread word (state.threads thread).enter).holds = state.holds.enter thread := by
  rw [holds_change]
  exact Holds.ext rfl (Function.update_eq_self thread state.holds.writing)

theorem holds_change_leave (point : RwPoint preference width) :
    (state.change thread word ((state.threads thread).leave point)).holds = state.holds.leave thread := by
  rw [holds_change]
  exact Holds.ext rfl (Function.update_eq_self thread state.holds.writing)

theorem holds_change_take :
    (state.change thread word (state.threads thread).take).holds = state.holds.setWriting thread true := by
  rw [holds_change]
  exact Holds.ext (Function.update_eq_self thread state.holds.reads) rfl

theorem holds_change_yield (point : RwPoint preference width) :
    (state.change thread word ((state.threads thread).yield point)).holds = state.holds.setWriting thread false := by
  rw [holds_change]
  exact Holds.ext (Function.update_eq_self thread state.holds.reads) rfl

end Changes

/-! ## Steps -/

section Steps

variable {before : RwState Thread preference width} {thread : Thread} {word : BitVec width}
  {next : RwThread preference width} {here : RwPoint preference width}

/-- What a step of one thread amounts to, when it is known what has become of
the holds. -/
theorem single_of_change (place : (before.threads thread).point = here) (performs : forall after,
      interface.session before thread = here.session -> interface.session after thread = next.point.session ->
      after.holds = (before.change thread word next).holds ->
      interface.result before after thread = decide ((before.threads thread).Gains next) ->
      interface.Performs holds (readerWriterLock Thread) before after thread) :
    interface.Single holds (readerWriterLock Thread) before (before.change thread word next) := by
  have own : (before.change thread word next).threads thread = next := Function.update_self _ _ _
  refine Interface.Single.of_update rfl rfl fun earlier later => ?_
  apply performs _ (earlier.trans (congrArg RwPoint.session place)) later rfl
  change decide ((before.threads thread).Gains ((before.change thread word next).threads thread)) = _
  rw [own]

/-- A step on the way. -/
theorem single_pause {point : RwPoint preference width} (place : (before.threads thread).point = here)
    (same : point.session = here.session) :
    interface.Single holds (readerWriterLock Thread) before
      (before.change thread word ((before.threads thread).goto point)) := by
  refine single_of_change place fun after earlier later kept _ => .pause ?_ ?_
  · exact later.trans (same.trans earlier.symm)
  · exact kept.trans (holds_change_goto before thread word point)

theorem single_enter {point : RwPoint preference width} (place : (before.threads thread).point = .idle)
    (operation : LockOperation) (asked : point.session = .pending operation) :
    interface.Single holds (readerWriterLock Thread) before (before.goto thread point) := by
  refine @single_of_change _ _ _ _ before thread before.word _ _ place fun after earlier later kept _ =>
    .enter operation earlier ?_ ?_
  · exact later.trans asked
  · exact kept.trans (holds_change_goto before thread before.word point)

/-- A try is given up. -/
theorem single_tryFails (operation : LockOperation) (tries : operation = .tryAcquireRo ∨ operation = .tryAcquireRw)
    (place : (before.threads thread).point = here) (asked : here.session = .pending operation) :
    interface.Single holds (readerWriterLock Thread) before (before.goto thread .idle) := by
  refine @single_of_change _ _ _ _ before thread before.word _ _ place fun after earlier later kept gained =>
    .effectAndLeave operation ?_ ?_ later
  · exact earlier.trans asked
  · have nothing : interface.result before after thread = false := by
      rw [gained]
      apply decide_eq_false
      rintro (more | ⟨not, writes⟩)
      · exact Nat.lt_irrefl _ more
      · exact Bool.noConfusion (not.symm.trans writes)
    rw [nothing, kept, holds_change_goto]
    exact .tryFails operation tries

/-- The lock is taken or let go of, and the operation returns. -/
theorem single_returns (operation : LockOperation) (gained : Bool)
    (place : (before.threads thread).point = here) (asked : here.session = .pending operation)
    (idle : next.point = .idle) (gains : decide ((before.threads thread).Gains next) = gained)
    (effect : LockEffect thread operation before.holds gained (before.change thread word next).holds) :
    interface.Single holds (readerWriterLock Thread) before (before.change thread word next) := by
  refine single_of_change place fun after earlier later kept told => .effectAndLeave operation ?_ ?_ ?_
  · exact earlier.trans asked
  · rw [told, gains, kept]
    exact effect
  · rw [later, idle]
    rfl

theorem single_answered (operation : LockOperation)
    (place : (before.threads thread).point = here) (asked : here.session = .pending operation)
    (answered : next.point.session = .answered false)
    (effect : LockEffect thread operation before.holds false (before.change thread word next).holds) :
    interface.Single holds (readerWriterLock Thread) before (before.change thread word next) := by
  refine single_of_change place fun after earlier later kept _ => .effect operation false ?_ ?_ ?_
  · exact earlier.trans asked
  · rw [kept]
    exact effect
  · exact later.trans answered

theorem single_wakeAll (backend : FutexBackend) (wakeBitset : Nat) (place : (before.threads thread).point = here)
    (answered : here.session = .answered false) :
    interface.Single holds (readerWriterLock Thread) before (before.wakeAll backend thread wakeBitset) := by
  have threads : (before.wakeAll backend thread wakeBitset).threads =
      Function.update (fun other => (before.threads other).unpark backend wakeBitset) thread
        ((before.threads thread).goto .idle) := rfl
  have own : (before.wakeAll backend thread wakeBitset).threads thread = (before.threads thread).goto .idle := by
    rw [threads, Function.update_self]
  have others : forall other, other ≠ thread ->
      (before.wakeAll backend thread wakeBitset).threads other = (before.threads other).unpark backend wakeBitset := by
    intro other different
    rw [threads, Function.update_of_ne different]
  have reads : forall other, ((before.wakeAll backend thread wakeBitset).threads other).reads = (before.threads other).reads := by
    intro other
    by_cases same : other = thread
    · rw [same, own]
      rfl
    · rw [others other same, RwThread.unpark_reads]
  have writing : forall other,
      ((before.wakeAll backend thread wakeBitset).threads other).writing = (before.threads other).writing := by
    intro other
    by_cases same : other = thread
    · rw [same, own]
      rfl
    · rw [others other same, RwThread.unpark_writing]
  refine Interface.Single.of_points rfl own ?_ fun earlier later => .leave false ?_ ?_ later ?_
  · intro other different
    rw [others other different, RwThread.session_unpark]
  · rw [earlier, place, answered]
  · apply decide_eq_false
    rintro (more | ⟨not, writes⟩)
    · rw [reads] at more
      exact Nat.lt_irrefl _ more
    · rw [writing, not] at writes
      cases writes
  · exact Holds.ext (funext reads) (funext writing)

end Steps

variable [Fintype Thread] {before after : RwState Thread preference width}

omit [DecidableEq Thread] in
theorem Exclusive.none_writes (account : Exclusive before) (unlocked : (view before.word).locked = false)
    (thread : Thread) : before.holds.writing thread = false := by
  have writers := account.writers
  rw [unlocked] at writers
  exact Bool.toNat_eq_zero.mp ((census_eq_zero_iff _ _).mp writers thread)

omit [DecidableEq Thread] in
theorem Exclusive.none_reads (account : Exclusive before) (empty : (view before.word).readers = 0)
    (thread : Thread) : before.holds.reads thread = 0 := by
  have readers := account.readers
  rw [empty] at readers
  exact (census_eq_zero_iff _ _).mp readers thread

theorem Exclusive.single (layout : 3 ≤ width) {backend : FutexBackend} (account : Exclusive before)
    (move : RwStep backend before after) : interface.Single holds (readerWriterLock Thread) before after := by
  have shares : forall (operation : LockOperation) (thread : Thread), operation = .acquireRo ∨ operation = .tryAcquireRo ->
      before.word &&& preference.readerBlockingBits width = 0#(width) ->
      LockEffect thread operation before.holds true
        (before.change thread (before.word + 1) (before.threads thread).enter).holds := by
    intro operation thread kind admitted
    rw [holds_change_enter]
    exact .share operation kind (account.none_writes (unlocked_of_admitted layout _ admitted))
  have seizes : forall (operation : LockOperation) (thread : Thread), operation = .acquireRw ∨ operation = .tryAcquireRw ->
      before.word &&& (readerMask width ||| writerLockedBit width) = 0#(width) ->
      LockEffect thread operation before.holds true
        (before.change thread (writerLockedBit width ||| before.word &&& parkedBits width) (before.threads thread).take).holds := by
    intro operation thread kind free
    have holders := (and_holders_eq_zero_iff layout before.word).mp free
    rw [holds_change_take]
    exact .seize operation kind (account.none_writes holders.2) (account.none_reads holders.1)
  have entering : forall thread, decide ((before.threads thread).Gains (before.threads thread).enter) = true :=
    fun thread => decide_eq_true (Or.inl (Nat.lt_succ_self _))
  have taking : forall thread, before.word &&& (readerMask width ||| writerLockedBit width) = 0#(width) ->
      decide ((before.threads thread).Gains (before.threads thread).take) = true := by
    intro thread free
    have holders := (and_holders_eq_zero_iff layout before.word).mp free
    exact decide_eq_true (Or.inr ⟨account.none_writes holders.2 thread, rfl⟩)
  cases move with
  | callAcquireRo thread place => exact single_enter place .acquireRo rfl
  | callReleaseRo thread place held => exact single_enter place .releaseRo rfl
  | callAcquireRw thread place => exact single_enter place .acquireRw rfl
  | callReleaseRw thread place held => exact single_enter place .releaseRw rfl
  | callTryAcquireRo thread place => exact single_enter place .tryAcquireRo rfl
  | callTryAcquireRw thread place => exact single_enter place .tryAcquireRw rfl
  | roLoad thread place => exact single_pause place (RwPoint.session_roHead _)
  | roEnter thread admitted place =>
      exact single_returns .acquireRo true place rfl rfl (entering thread) (shares .acquireRo thread (Or.inl rfl) admitted)
  | tryRoEnter thread admitted place =>
      exact single_returns .tryAcquireRo true place rfl rfl (entering thread)
        (shares .tryAcquireRo thread (Or.inr rfl) admitted)
  | roEnterFail thread observed admitted place | roAnnounce thread closed place
  | roAnnounceFail thread observed closed place | roPark thread announced place
  | roParkRefused thread observed announced place | roSpurious thread place
  | rwPark thread busy announced place | rwParkRefused thread observed busy announced place | rwSpurious thread place
  | tryRoLoad thread admitted place | tryRwLoad thread free place => exact single_pause place rfl
  | roReleaseLast thread place last waiting =>
      refine single_answered .releaseRo place rfl rfl ?_
      rw [holds_change_leave]
      exact .unshare (account.reads_pos place)
  | roReleaseQuiet thread place quiet =>
      refine single_returns .releaseRo false place rfl rfl ?_ ?_
      · apply decide_eq_false
        rintro (more | ⟨not, writes⟩)
        · exact absurd more (Nat.not_lt.mpr (Nat.sub_le _ _))
        · exact Bool.noConfusion (not.symm.trans writes)
      · rw [holds_change_leave]
        exact .unshare (account.reads_pos place)
  | roWake thread place => exact single_wakeAll backend writerWaitBits place rfl
  | rwLoad thread place => exact single_pause place (RwPoint.session_rwHead _)
  | rwTake thread free place =>
      exact single_returns .acquireRw true place rfl rfl (taking thread free) (seizes .acquireRw thread (Or.inl rfl) free)
  | tryRwTake thread free place =>
      exact single_returns .tryAcquireRw true place rfl rfl (taking thread free)
        (seizes .tryAcquireRw thread (Or.inr rfl) free)
  | rwTakeFail thread observed free place => exact single_pause place (RwPoint.session_rwHead _)
  | rwAnnounce thread busy place => exact single_pause place (RwPoint.session_rwHead _)
  | rwAnnounceFail thread observed busy place => exact single_pause place (RwPoint.session_rwHead _)
  | rwReleaseWake thread place announced =>
      refine single_answered .releaseRw place rfl rfl ?_
      rw [holds_change_yield]
      exact .unseize (account.writing_eq place)
  | rwReleaseQuiet thread place quiet =>
      refine single_returns .releaseRw false place rfl rfl ?_ ?_
      · apply decide_eq_false
        rintro (more | ⟨_, writes⟩)
        · exact Nat.lt_irrefl _ more
        · cases writes
      · rw [holds_change_yield]
        exact .unseize (account.writing_eq place)
  | rwWake thread place => exact single_wakeAll backend eitherWaitBits place rfl
  | tryRoRefused thread place => exact single_tryFails .tryAcquireRo (Or.inl rfl) place rfl
  | tryRoFail thread observed admitted place => exact single_tryFails .tryAcquireRo (Or.inl rfl) place rfl
  | tryRwRefused thread place => exact single_tryFails .tryAcquireRw (Or.inr rfl) place rfl
  | tryRwFail thread observed free place => exact single_tryFails .tryAcquireRw (Or.inr rfl) place rfl

end RwState

/-! ## Programs -/

variable [Fintype Thread] [DecidableEq Thread] (backend : FutexBackend) (concurrency : HardwareConcurrency)
  (preference : RwPreference)

/-- The futex lock as a party of a program. -/
def futexRwLock (Thread : Type) [DecidableEq Thread] (preference : RwPreference) (backend : FutexBackend)
    (concurrency : HardwareConcurrency) : Party (Event Thread LockOperation Bool)
      (RwState Thread preference (backend.valueBits concurrency)) :=
  RwState.interface.party (rwSystem Thread preference backend (backend.valueBits concurrency))

variable {backend concurrency preference} in
theorem rw_single {before after : RwState Thread preference (backend.valueBits concurrency)}
    (reachable : ((rwSystem Thread preference backend (backend.valueBits concurrency)).within ReadersFit).Reachable before)
    (move : RwStep backend before after) : RwState.interface.Single RwState.holds (readerWriterLock Thread) before after :=
  (exclusive_of_reachable (backend.three_le_valueBits concurrency) backend reachable).single
    (backend.three_le_valueBits concurrency) move

/-- Whatever state a program comes to with a futex lock of either kind that never
has more readers than it can count, it also comes to with the atomic lock.  No
step of the lock is kept from the program. -/
theorem futex_rw_lock_is_atomic {User : Type} (user : Party (Event Thread LockOperation Bool) User)
    (state : User × RwState Thread preference (backend.valueBits concurrency))
    (reachable : ((uses user (futexRwLock Thread preference backend concurrency)).within
      fun state => ReadersFit state.2).Reachable state) :
    (uses user (readerWriterLock Thread).atomic).Reachable (state.1, RwState.interface.view RwState.holds state.2) ∧
      forall after, RwStep backend state.2 after ->
        Exists fun event => (futexRwLock Thread preference backend concurrency).step event state.2 after := by
  constructor
  · apply Interface.uses_atomic _ (fun before after reached move _ => rw_single reached move) reachable
    rintro _ rfl
    rfl
  · intro after move
    obtain ⟨event, shown⟩ := (rw_single (Interface.reachable_of_uses reachable) move).shows
    exact ⟨event, move, shown⟩

/-- One thread writes and the other one is in its call. -/
theorem futex_rw_lock_is_atomic_heldByWriter :
    (uses (Party.free (Event (Fin 2) LockOperation Bool)) (readerWriterLock (Fin 2)).atomic).Reachable
      ((), ⟨⟨fun _ => 0, fun thread => decide (thread = 0)⟩,
        fun thread => if thread = 0 then .outside else .pending .acquireRo⟩) := by
  have reachable : ((uses (Party.free _) (futexRwLock (Fin 2) .writerPreferring .linux .uint16)).within
      fun state => ReadersFit state.2).Reachable ((), heldByWriter) :=
    Interface.uses_free (fun before after reached move _ => rw_single reached move) heldByWriter_reachable
  convert (futex_rw_lock_is_atomic .linux .uint16 .writerPreferring (Party.free _) ((), heldByWriter) reachable).1 using 2
  apply AtomicObject.ext
  · apply Holds.ext <;> funext thread <;> fin_cases thread <;> rfl
  · funext thread
    fin_cases thread <;> rfl

end Threading
end Sweater
