import Sweater.Threading.RwExclusion

namespace Sweater
namespace Threading

open Interleaving
open RwWord

/-!
# No lost wake-up in the futex reader-writer lock

A thread parks only after announcing itself in the word, and the futex
compares the announced word while parking.  `RwWakeAccount` says how long the
announcement lasts: until some thread has taken over the duty to wake the
announced category.  Wakes are targeted by category on one platform only, so a
duty is always stated together with the listeners that it reaches.
-/

variable {Thread : Type} {preference : RwPreference} {width : Nat}

namespace RwPoint

/-- The bitset of the `wake_all` that comes next. -/
def owedWake : RwPoint preference width -> Option Nat
  | roWake => some writerWaitBits
  | rwWake => some eitherWaitBits
  | _ => none

/-- The bitset that a parked thread listens to. -/
def listens : RwPoint preference width -> Option Nat
  | roParked => some readerWaitBits
  | rwParked => some writerWaitBits
  | _ => none

/-- Inside `acquire_rw`. -/
def acquiresRw : RwPoint preference width -> Bool
  | rwLoad | rwTake _ _ | rwAnnounce _ _ | rwPark _ _ _ | rwParked => true
  | _ => false

/-- A wake by a thread at this point reaches the listeners. -/
def Wakes (backend : FutexBackend) (listenBits : Nat) (point : RwPoint preference width) : Prop :=
  Exists fun wakeBitset => point.owedWake = some wakeBitset ∧ backend.reaches wakeBitset listenBits = true

@[simp] theorem owedWake_roHead (observed : BitVec width) :
    (roHead observed : RwPoint preference width).owedWake = none := by
  unfold roHead
  split
  · rfl
  · split <;> rfl

@[simp] theorem listens_roHead (observed : BitVec width) :
    (roHead observed : RwPoint preference width).listens = none := by
  unfold roHead
  split
  · rfl
  · split <;> rfl

@[simp] theorem listens_rwHead (observed : BitVec width) :
    (rwHead observed : RwPoint preference width).listens = none := by
  unfold rwHead
  split
  · rfl
  · split <;> rfl

@[simp] theorem acquiresRw_rwHead (observed : BitVec width) :
    (rwHead observed : RwPoint preference width).acquiresRw = true := by
  unfold rwHead
  split
  · rfl
  · split <;> rfl

end RwPoint

namespace RwThread

variable (backend : FutexBackend) (wakeBitset : Nat) (thread : RwThread preference width)

/-- A thread that still listens after a wake was not reached by it. -/
theorem listens_unpark {listenBits : Nat}
    (asleep : (thread.unpark backend wakeBitset).point.listens = some listenBits) :
    thread.unpark backend wakeBitset = thread ∧ backend.reaches wakeBitset listenBits = false := by
  rcases thread with ⟨reads, writing, point⟩
  cases point
  case roParked =>
    by_cases reached : backend.reaches wakeBitset readerWaitBits = true
    · simp [unpark, reached, goto, RwPoint.listens] at asleep
    · simp [unpark, reached, RwPoint.listens] at asleep ⊢
      exact asleep ▸ Bool.eq_false_of_not_eq_true reached
  case rwParked =>
    by_cases reached : backend.reaches wakeBitset writerWaitBits = true
    · simp [unpark, reached, goto, RwPoint.listens] at asleep
    · simp [unpark, reached, RwPoint.listens] at asleep ⊢
      exact asleep ▸ Bool.eq_false_of_not_eq_true reached
  all_goals cases asleep

theorem owedWake_unpark : (thread.unpark backend wakeBitset).point.owedWake = thread.point.owedWake := by
  rcases unpark_cases backend wakeBitset thread with same | ⟨place, moved⟩ | ⟨place, moved⟩
  · rw [same]
  · rw [moved, place]; rfl
  · rw [moved, place]; rfl

theorem acquiresRw_unpark :
    (thread.unpark backend wakeBitset).point.acquiresRw = thread.point.acquiresRw := by
  rcases unpark_cases backend wakeBitset thread with same | ⟨place, moved⟩ | ⟨place, moved⟩
  · rw [same]
  · rw [moved, place]; rfl
  · rw [moved, place]; rfl

end RwThread

/-- A parked writer is attended to: the next release will see the
announcement, because somebody still holds the lock. -/
def RwView.AwaitsRelease (fields : RwView) : Prop :=
  fields.waiting = true ∧ (0 < fields.readers ∨ fields.locked = true)

namespace RwState

/-- Some thread is about to wake everybody who listens to the given bits. -/
def WakePending (state : RwState Thread preference width) (backend : FutexBackend)
    (listenBits : Nat) : Prop :=
  Exists fun thread => (state.threads thread).point.Wakes backend listenBits

/-- Who attends to parked readers and parked writers. -/
structure RwWakeAccount (backend : FutexBackend) (state : RwState Thread preference width) : Prop where
  readers : forall thread, (state.threads thread).point = .roParked ->
    (view state.word).parked = true ∨ state.WakePending backend readerWaitBits
  writers : forall thread, (state.threads thread).point = .rwParked ->
    (view state.word).AwaitsRelease ∨ state.WakePending backend writerWaitBits
  parked : (view state.word).parked = true ->
    (view state.word).waiting = true ∨ (view state.word).locked = true
  waiting : (view state.word).waiting = true -> (view state.word).locked = true ∨
    Exists fun thread => (state.threads thread).point.acquiresRw = true

variable [DecidableEq Thread] {backend : FutexBackend} {state : RwState Thread preference width}

section Moves

theorem threads_change_self (state : RwState Thread preference width) (thread : Thread)
    (word : BitVec width) (next : RwThread preference width) :
    (state.change thread word next).threads thread = next := by
  simp only [change, Function.update_self]

theorem threads_change_of_ne (state : RwState Thread preference width) (thread : Thread)
    (word : BitVec width) (next : RwThread preference width) {other : Thread}
    (different : other ≠ thread) :
    (state.change thread word next).threads other = state.threads other := by
  simp only [change, Function.update_of_ne different]

/-- A duty of another thread is not discharged by a thread that owes none. -/
theorem WakePending.change {listenBits : Nat} (pending : state.WakePending backend listenBits)
    (thread : Thread) (word : BitVec width) (next : RwThread preference width)
    (quiet : (state.threads thread).point.owedWake = none) :
    (state.change thread word next).WakePending backend listenBits := by
  rcases pending with ⟨waker, wakeBitset, owed, reached⟩
  have different : waker ≠ thread := by
    intro same
    rw [same, quiet] at owed
    cases owed
  exact ⟨waker, wakeBitset, by rwa [threads_change_of_ne _ _ _ _ different], reached⟩

/-- One thread without duties proceeds and changes the word.  An announcement
may be erased only if the thread takes over the wake. -/
theorem RwWakeAccount.change (account : RwWakeAccount backend state) (thread : Thread)
    (word : BitVec width) (next : RwThread preference width)
    (quiet : (state.threads thread).point.owedWake = none)
    (readers : (view state.word).parked = true ->
      (view word).parked = true ∨ next.point.Wakes backend readerWaitBits)
    (parksReader : next.point = .roParked -> (view word).parked = true)
    (writers : (view state.word).AwaitsRelease ->
      (view word).AwaitsRelease ∨ next.point.Wakes backend writerWaitBits)
    (parksWriter : next.point = .rwParked -> (view word).AwaitsRelease)
    (parked : (view word).parked = true -> (view word).waiting = true ∨ (view word).locked = true)
    (waiting : (view word).waiting = true -> (view word).locked = true ∨ next.point.acquiresRw = true ∨
      ((view state.word).waiting = true ∧ (view state.word).locked = false ∧
        (state.threads thread).point.acquiresRw = false)) :
    RwWakeAccount backend (state.change thread word next) := by
  have duty : forall listenBits, next.point.Wakes backend listenBits ->
      (state.change thread word next).WakePending backend listenBits := by
    intro listenBits own
    exact ⟨thread, by rwa [threads_change_self]⟩
  constructor
  · intro other asleep
    by_cases same : other = thread
    · rw [same, threads_change_self] at asleep
      exact Or.inl (parksReader asleep)
    · rw [threads_change_of_ne _ _ _ _ same] at asleep
      rcases account.readers other asleep with announced | pending
      · rcases readers announced with still | own
        · exact Or.inl still
        · exact Or.inr (duty _ own)
      · exact Or.inr (pending.change thread word next quiet)
  · intro other asleep
    by_cases same : other = thread
    · rw [same, threads_change_self] at asleep
      exact Or.inl (parksWriter asleep)
    · rw [threads_change_of_ne _ _ _ _ same] at asleep
      rcases account.writers other asleep with announced | pending
      · rcases writers announced with still | own
        · exact Or.inl still
        · exact Or.inr (duty _ own)
      · exact Or.inr (pending.change thread word next quiet)
  · exact parked
  · intro set
    rcases waiting set with locked | inside | ⟨earlier, unlocked, outside⟩
    · exact Or.inl locked
    · exact Or.inr ⟨thread, by rwa [threads_change_self]⟩
    · right
      rcases account.waiting earlier with locked | ⟨other, inside⟩
      · rw [unlocked] at locked
        contradiction
      · have different : other ≠ thread := by
          intro same
          rw [same, outside] at inside
          contradiction
        exact ⟨other, by rwa [threads_change_of_ne _ _ _ _ different]⟩

/-- A thread proceeds and the fields that matter stay as they are. -/
theorem RwWakeAccount.goto (account : RwWakeAccount backend state) (thread : Thread)
    {here next : RwPoint preference width} (place : (state.threads thread).point = here)
    (quiet : here.owedWake = none) (awake : next.listens = none)
    (inside : here.acquiresRw = true -> next.acquiresRw = true) :
    RwWakeAccount backend (state.goto thread next) := by
  refine account.change thread state.word _ (by rw [place]; exact quiet) Or.inl ?_ Or.inl ?_
    account.parked ?_
  · rintro (asleep : next = _)
    rw [asleep] at awake
    cases awake
  · rintro (asleep : next = _)
    rw [asleep] at awake
    cases awake
  · intro set
    cases locked : (view state.word).locked with
    | true => exact Or.inl rfl
    | false =>
        right
        cases acquires : here.acquiresRw with
        | true => exact Or.inl (inside acquires)
        | false => exact Or.inr ⟨set, rfl, by rw [place]; exact acquires⟩

/-- A broadcast discharges the duty of the thread that performs it: whoever
still listens afterwards was not reached, and is attended to by another. -/
theorem RwWakeAccount.wakeAll (account : RwWakeAccount backend state) (thread : Thread)
    (wakeBitset : Nat) (duty : (state.threads thread).point.owedWake = some wakeBitset)
    (outside : (state.threads thread).point.acquiresRw = false) :
    RwWakeAccount backend (state.wakeAll backend thread wakeBitset) := by
  have others : forall other, other ≠ thread -> (state.wakeAll backend thread wakeBitset).threads other =
      (state.threads other).unpark backend wakeBitset := by
    intro other different
    simp only [RwState.wakeAll, Function.update_of_ne different]
  have asleepBefore : forall other point listenBits, point.listens = some listenBits ->
      ((state.wakeAll backend thread wakeBitset).threads other).point = point ->
      (state.threads other).point = point ∧ backend.reaches wakeBitset listenBits = false := by
    intro other point listenBits listens asleep
    by_cases same : other = thread
    · subst same
      simp only [RwState.wakeAll, Function.update_self, RwThread.goto] at asleep
      rw [← asleep] at listens
      cases listens
    · rw [others other same] at asleep
      have kept := RwThread.listens_unpark backend wakeBitset (state.threads other)
        (by rw [asleep]; exact listens)
      rw [kept.1] at asleep
      exact ⟨asleep, kept.2⟩
  have pendingAfter : forall listenBits, backend.reaches wakeBitset listenBits = false ->
      state.WakePending backend listenBits ->
      (state.wakeAll backend thread wakeBitset).WakePending backend listenBits := by
    rintro listenBits missed ⟨waker, owedBits, owed, reached⟩
    have different : waker ≠ thread := by
      intro same
      rw [same, duty] at owed
      cases owed
      rw [missed] at reached
      contradiction
    refine ⟨waker, owedBits, ?_, reached⟩
    rw [others waker different, RwThread.owedWake_unpark]
    exact owed
  constructor
  · intro other asleep
    have earlier := asleepBefore other .roParked readerWaitBits rfl asleep
    rcases account.readers other earlier.1 with announced | pending
    · exact Or.inl announced
    · exact Or.inr (pendingAfter _ earlier.2 pending)
  · intro other asleep
    have earlier := asleepBefore other .rwParked writerWaitBits rfl asleep
    rcases account.writers other earlier.1 with announced | pending
    · exact Or.inl announced
    · exact Or.inr (pendingAfter _ earlier.2 pending)
  · exact account.parked
  · intro set
    rcases account.waiting set with locked | ⟨other, inside⟩
    · exact Or.inl locked
    · right
      have different : other ≠ thread := by
        intro same
        rw [same, outside] at inside
        contradiction
      refine ⟨other, ?_⟩
      rw [others other different, RwThread.acquiresRw_unpark]
      exact inside

/-! ## What each operation does to the announcements -/

/-- The code of both variants parks readers only behind a writer. -/
theorem waiting_or_locked_of_closed (layout : 3 ≤ width) (word : BitVec width)
    (closed : word &&& preference.readerBlockingBits width ≠ 0#(width)) :
    (view word).waiting = true ∨ (view word).locked = true := by
  cases preference with
  | writerPreferring =>
      rw [Ne, RwPreference.readerBlockingBits, and_or_eq_zero_iff,
        and_writerLockedBit_eq_zero_iff layout, and_writerWaitingBit_eq_zero_iff layout] at closed
      cases waiting : (view word).waiting with
      | true => exact Or.inl rfl
      | false =>
          right
          apply Bool.eq_true_of_not_eq_false
          intro unlocked
          exact closed ⟨unlocked, waiting⟩
  | readerPreferring =>
      rw [Ne, RwPreference.readerBlockingBits, and_writerLockedBit_eq_zero_iff layout] at closed
      exact Or.inr (Bool.eq_true_of_not_eq_false closed)

/-- A word that is not free to take is held by readers or by a writer. -/
theorem held_of_busy (layout : 3 ≤ width) (word : BitVec width)
    (busy : word &&& (readerMask width ||| writerLockedBit width) ≠ 0#(width)) :
    0 < (view word).readers ∨ (view word).locked = true := by
  rw [Ne, and_holders_eq_zero_iff layout] at busy
  cases locked : (view word).locked with
  | true => exact Or.inr rfl
  | false =>
      left
      apply Nat.pos_of_ne_zero
      intro none
      exact busy ⟨none, locked⟩

theorem waiting_of_announced (layout : 3 ≤ width) (word : BitVec width)
    (announced : word &&& writerWaitingBit width ≠ 0#(width)) : (view word).waiting = true := by
  rw [Ne, and_writerWaitingBit_eq_zero_iff layout] at announced
  exact Bool.eq_true_of_not_eq_false announced

theorem parked_of_announced (layout : 3 ≤ width) (word : BitVec width)
    (announced : word &&& readerParkedBit width ≠ 0#(width)) : (view word).parked = true := by
  rw [Ne, and_readerParkedBit_eq_zero_iff layout] at announced
  exact Bool.eq_true_of_not_eq_false announced

/-- A reader counts itself in. -/
theorem RwWakeAccount.enter (layout : 3 ≤ width) (account : RwWakeAccount backend state)
    (thread : Thread) (quiet : (state.threads thread).point.owedWake = none)
    (outside : (state.threads thread).point.acquiresRw = false)
    (unlocked : (view state.word).locked = false)
    (room : (view state.word).readers + 1 < 2 ^ (width - 3)) :
    RwWakeAccount backend (state.change thread (state.word + 1) (state.threads thread).enter) := by
  have fields := view_add_one layout state.word room
  apply account.change thread _ _ quiet
  · rw [fields]
    exact Or.inl
  · intro asleep
    cases asleep
  · rintro ⟨waiting, _⟩
    rw [fields]
    exact Or.inl ⟨waiting, Or.inl (Nat.succ_pos _)⟩
  · intro asleep
    cases asleep
  · rw [fields]
    exact account.parked
  · rw [fields]
    intro set
    exact Or.inr (Or.inr ⟨set, unlocked, outside⟩)

/-- A reader leaves.  If it is the last one and a writer is waiting, then it
takes over the wake. -/
theorem RwWakeAccount.leave (layout : 3 ≤ width) (account : RwWakeAccount backend state)
    (thread : Thread) (point : RwPoint preference width)
    (place : (state.threads thread).point = .roRelease) (some : 0 < (view state.word).readers)
    (awake : point.listens = none)
    (last : (view state.word).readers = 1 -> (view state.word).waiting = true ->
      point.Wakes backend writerWaitBits) :
    RwWakeAccount backend
      (state.change thread (state.word - 1) ((state.threads thread).leave point)) := by
  have fields := view_sub_one layout state.word some
  apply account.change thread _ _ (by rw [place]; rfl)
  · rw [fields]
    exact Or.inl
  · rintro (asleep : point = _)
    rw [asleep] at awake
    cases awake
  · rintro ⟨waiting, holders⟩
    rw [fields]
    by_cases one : (view state.word).readers = 1
    · exact Or.inr (last one waiting)
    · exact Or.inl ⟨waiting, Or.inl (by dsimp only; omega)⟩
  · rintro (asleep : point = _)
    rw [asleep] at awake
    cases awake
  · rw [fields]
    exact account.parked
  · rw [fields]
    intro set
    cases locked : (view state.word).locked with
    | true => exact Or.inl rfl
    | false => exact Or.inr (Or.inr ⟨set, rfl, by rw [place]; rfl⟩)

/-- A writer takes a free word and keeps the announcements. -/
theorem RwWakeAccount.take (layout : 3 ≤ width) (account : RwWakeAccount backend state)
    (thread : Thread) (quiet : (state.threads thread).point.owedWake = none) :
    RwWakeAccount backend
      (state.change thread (writerLockedBit width ||| state.word &&& parkedBits width)
        (state.threads thread).take) := by
  have fields := view_writerLockedBit_or layout state.word
  apply account.change thread _ _ quiet
  · rw [fields]
    exact Or.inl
  · intro asleep
    cases asleep
  · rintro ⟨waiting, _⟩
    rw [fields]
    exact Or.inl ⟨waiting, Or.inr rfl⟩
  · intro asleep
    cases asleep
  · rw [fields]
    exact fun _set => Or.inr rfl
  · rw [fields]
    exact fun _set => Or.inl rfl

/-- A writer erases the word.  If that erases an announcement, then it takes
over the wake of both categories. -/
theorem RwWakeAccount.yield (account : RwWakeAccount backend state) (thread : Thread)
    (point : RwPoint preference width) (place : (state.threads thread).point = .rwRelease)
    (awake : point.listens = none)
    (readers : (view state.word).parked = true -> point.Wakes backend readerWaitBits)
    (writers : (view state.word).waiting = true -> point.Wakes backend writerWaitBits) :
    RwWakeAccount backend (state.change thread 0#(width) ((state.threads thread).yield point)) := by
  apply account.change thread _ _ (by rw [place]; rfl)
  · intro set
    exact Or.inr (readers set)
  · rintro (asleep : point = _)
    rw [asleep] at awake
    cases awake
  · rintro ⟨waiting, _⟩
    exact Or.inr (writers waiting)
  · rintro (asleep : point = _)
    rw [asleep] at awake
    cases awake
  · rw [view_zero]
    exact fun set => Or.inl set
  · rw [view_zero]
    exact fun set => Or.inl set

/-- The wake of a last reader reaches the writers on every backend. -/
theorem reaches_writerWaitBits (backend : FutexBackend) :
    backend.reaches writerWaitBits writerWaitBits = true := by
  cases backend <;> decide

/-- The wake of a writer reaches both categories on every backend. -/
theorem reaches_eitherWaitBits (backend : FutexBackend) :
    backend.reaches eitherWaitBits readerWaitBits = true ∧
      backend.reaches eitherWaitBits writerWaitBits = true := by
  cases backend <;> decide

end Moves

section Steps

variable [Fintype Thread]

/-- There is room for a reader whose hold still fits. -/
theorem Exclusive.room (layout : 3 ≤ width) {before : RwState Thread preference width}
    (holds : Exclusive before) (thread : Thread) (word : BitVec width)
    (fits : ReadersFit (before.change thread word (before.threads thread).enter)) :
    (view before.word).readers + 1 < 2 ^ (width - 3) := by
  have mask := toNat_readerMask layout
  have entered := readHolds_change before thread word (before.threads thread).enter
  have readers := holds.readers
  rw [RwThread.enter_reads] at entered
  unfold ReadersFit at fits
  omega

omit [DecidableEq Thread] in
/-- A reader that is about to leave has been counted. -/
theorem Exclusive.readers_pos {before : RwState Thread preference width} (holds : Exclusive before)
    {thread : Thread} (place : (before.threads thread).point = .roRelease) :
    0 < (view before.word).readers := by
  have own := reads_le_readHolds before thread
  have held := holds.reads_pos place
  have readers := holds.readers
  omega

theorem RwWakeAccount.step (layout : 3 ≤ width) {before after : RwState Thread preference width}
    (account : RwWakeAccount backend before) (holds : Exclusive before)
    (move : RwStep backend before after) (later : ReadersFit after) : RwWakeAccount backend after := by
  cases move with
  | callAcquireRo thread place => exact account.goto thread place rfl rfl nofun
  | callReleaseRo thread place => exact account.goto thread place rfl rfl nofun
  | callAcquireRw thread place => exact account.goto thread place rfl rfl nofun
  | callReleaseRw thread place => exact account.goto thread place rfl rfl nofun
  | callTryAcquireRo thread place => exact account.goto thread place rfl rfl nofun
  | callTryAcquireRw thread place => exact account.goto thread place rfl rfl nofun
  | roLoad thread place => exact account.goto thread place rfl (RwPoint.listens_roHead _) nofun
  | roEnter thread admitted place =>
      exact account.enter layout thread (by rw [place]; rfl) (by rw [place]; rfl)
        (unlocked_of_admitted layout _ admitted) (holds.room layout thread _ later)
  | roEnterFail thread observed admitted place => exact account.goto thread place rfl rfl nofun
  | roAnnounce thread closed place =>
      have fields := view_or_readerParkedBit layout before.word
      apply account.change thread _ _ (by rw [place]; rfl)
      · rw [fields]
        exact fun _set => Or.inl rfl
      · intro asleep
        cases asleep
      · rw [fields]
        exact Or.inl
      · intro asleep
        cases asleep
      · rw [fields]
        exact fun _set => waiting_or_locked_of_closed layout before.word closed
      · rw [fields]
        intro set
        cases locked : (view before.word).locked with
        | true => exact Or.inl rfl
        | false => exact Or.inr (Or.inr ⟨set, rfl, by rw [place]; rfl⟩)
  | roAnnounceFail thread observed closed place => exact account.goto thread place rfl rfl nofun
  | roPark thread announced place =>
      have set := parked_of_announced layout before.word announced
      apply account.change thread before.word _ (by rw [place]; rfl) Or.inl (fun _asleep => set) Or.inl
      · intro asleep
        cases asleep
      · exact account.parked
      · intro waiting
        cases locked : (view before.word).locked with
        | true => exact Or.inl rfl
        | false => exact Or.inr (Or.inr ⟨waiting, rfl, by rw [place]; rfl⟩)
  | roParkRefused thread observed announced place => exact account.goto thread place rfl rfl nofun
  | roSpurious thread place => exact account.goto thread place rfl rfl nofun
  | roReleaseLast thread place last waiting =>
      exact account.leave layout thread .roWake place (holds.readers_pos place) rfl
        (fun _one _set => ⟨writerWaitBits, rfl, reaches_writerWaitBits backend⟩)
  | roReleaseQuiet thread place quiet =>
      refine account.leave layout thread .idle place (holds.readers_pos place) rfl ?_
      intro one set
      refine absurd ⟨?_, ?_⟩ quiet
      · apply BitVec.eq_of_toNat_eq
        rw [toNat_and_readerMask layout, one]
        exact (Nat.mod_eq_of_lt (Nat.one_lt_two_pow (by omega))).symm
      · rw [Ne, and_writerWaitingBit_eq_zero_iff layout, set]
        exact Bool.true_eq_false_eq_False
  | roWake thread place =>
      exact account.wakeAll thread writerWaitBits (by rw [place]; rfl) (by rw [place]; rfl)
  | rwLoad thread place =>
      exact account.goto thread place rfl (RwPoint.listens_rwHead _)
        (fun _inside => RwPoint.acquiresRw_rwHead _)
  | rwTake thread free place => exact account.take layout thread (by rw [place]; rfl)
  | rwTakeFail thread observed free place =>
      exact account.goto thread place rfl (RwPoint.listens_rwHead _)
        (fun _inside => RwPoint.acquiresRw_rwHead _)
  | rwAnnounce thread busy place =>
      have fields := view_or_writerWaitingBit layout before.word
      have awake : (RwPoint.rwHead (before.word ||| writerWaitingBit width) :
          RwPoint preference width).listens = none := RwPoint.listens_rwHead _
      apply account.change thread _ _ (by rw [place]; rfl)
      · rw [fields]
        exact Or.inl
      · rintro (asleep : RwPoint.rwHead _ = _)
        rw [asleep] at awake
        cases awake
      · rw [fields]
        rintro ⟨_, holders⟩
        exact Or.inl ⟨rfl, holders⟩
      · rintro (asleep : RwPoint.rwHead _ = _)
        rw [asleep] at awake
        cases awake
      · rw [fields]
        exact fun _set => Or.inl rfl
      · exact fun _set => Or.inr (Or.inl (RwPoint.acquiresRw_rwHead _))
  | rwAnnounceFail thread observed busy place =>
      exact account.goto thread place rfl (RwPoint.listens_rwHead _)
        (fun _inside => RwPoint.acquiresRw_rwHead _)
  | rwPark thread busy announced place =>
      have attended : (view before.word).AwaitsRelease :=
        ⟨waiting_of_announced layout before.word announced, held_of_busy layout before.word busy⟩
      apply account.change thread before.word _ (by rw [place]; rfl) Or.inl
      · intro asleep
        cases asleep
      · exact Or.inl
      · exact fun _asleep => attended
      · exact account.parked
      · exact fun _set => Or.inr (Or.inl rfl)
  | rwParkRefused thread observed busy announced place =>
      exact account.goto thread place rfl rfl (fun _inside => rfl)
  | rwSpurious thread place => exact account.goto thread place rfl rfl (fun _inside => rfl)
  | rwReleaseWake thread place announced =>
      exact account.yield thread .rwWake place rfl
        (fun _set => ⟨eitherWaitBits, rfl, (reaches_eitherWaitBits backend).1⟩)
        (fun _set => ⟨eitherWaitBits, rfl, (reaches_eitherWaitBits backend).2⟩)
  | rwReleaseQuiet thread place quiet =>
      have clear := (and_parkedBits_eq_zero_iff layout before.word).mp quiet
      refine account.yield thread .idle place rfl ?_ ?_
      · intro set
        rw [clear.2] at set
        contradiction
      · intro set
        rw [clear.1] at set
        contradiction
  | rwWake thread place =>
      exact account.wakeAll thread eitherWaitBits (by rw [place]; rfl) (by rw [place]; rfl)
  | tryRoLoad thread admitted place => exact account.goto thread place rfl rfl nofun
  | tryRoRefused thread place => exact account.goto thread place rfl rfl nofun
  | tryRoEnter thread admitted place =>
      exact account.enter layout thread (by rw [place]; rfl) (by rw [place]; rfl)
        (unlocked_of_admitted layout _ admitted) (holds.room layout thread _ later)
  | tryRoFail thread observed admitted place => exact account.goto thread place rfl rfl nofun
  | tryRwLoad thread free place => exact account.goto thread place rfl rfl nofun
  | tryRwRefused thread place => exact account.goto thread place rfl rfl nofun
  | tryRwTake thread free place => exact account.take layout thread (by rw [place]; rfl)
  | tryRwFail thread observed free place => exact account.goto thread place rfl rfl nofun

/-- The assertion that the code makes before it counts a reader in:
`BOOST_ASSERT_MSG( ( observed & reader_mask ) != reader_mask, .. )`. -/
def CountAsserted (before after : RwState Thread preference width) : Prop :=
  (Exists fun thread => (before.threads thread).reads < (after.threads thread).reads) ->
    before.word &&& readerMask width ≠ readerMask width

end Steps

end RwState

open RwState

/-! ## Whole runs -/

section Runs

variable [Fintype Thread] [DecidableEq Thread]

/-- As long as the assertion of the code holds, the reader count fits. -/
theorem Exclusive.fits (layout : 3 ≤ width) {backend : FutexBackend}
    {before after : RwState Thread preference width} (holds : Exclusive before)
    (fits : ReadersFit before) (move : RwStep backend before after)
    (asserted : CountAsserted before after) : ReadersFit after := by
  have readers := holds.readers
  have counted := toNat_and_readerMask layout before.word
  unfold ReadersFit at fits ⊢
  cases HoldMove.of_step layout move with
  | announce thread word point locked same own =>
      have reads := readHolds_change before thread word ((before.threads thread).goto point)
      rwa [Nat.add_right_cancel reads]
  | enter thread unlocked =>
      have reads := readHolds_change before thread (before.word + 1) (before.threads thread).enter
      rw [RwThread.enter_reads] at reads
      have room := asserted ⟨thread, by
        rw [threads_change_self, RwThread.enter_reads]
        exact Nat.lt_succ_self _⟩
      have different : (before.word &&& readerMask width).toNat ≠ (readerMask width).toNat :=
        fun same => room (BitVec.eq_of_toNat_eq same)
      omega
  | leave thread point place own =>
      have reads := readHolds_change before thread (before.word - 1) ((before.threads thread).leave point)
      rw [RwThread.leave_reads] at reads
      omega
  | take thread free =>
      have reads := readHolds_change before thread
        (writerLockedBit width ||| before.word &&& parkedBits width) (before.threads thread).take
      rwa [Nat.add_right_cancel reads]
  | yield thread point place own =>
      have reads := readHolds_change before thread 0#(width) ((before.threads thread).yield point)
      rwa [Nat.add_right_cancel reads]
  | wake thread wakeBitset =>
      have reads := readHolds_change (before.unparkAll backend wakeBitset) thread before.word
        (((before.unparkAll backend wakeBitset).threads thread).goto .idle)
      have same := readHolds_unparkAll before backend wakeBitset
      rw [wakeAll_eq]
      change (RwState.change _ thread before.word _).readHolds ≤ _
      rwa [Nat.add_right_cancel reads, same]

theorem reachable_within_of_asserted (layout : 3 ≤ width) (backend : FutexBackend)
    {state : RwState Thread preference width}
    (reachable : ((rwSystem Thread preference backend width).stepsWhere CountAsserted).Reachable state) :
    ((rwSystem Thread preference backend width).within ReadersFit).Reachable state := by
  refine reachable.invariant ?_ ?_
  · rintro _ rfl
    have none : (dormant : RwState Thread preference width).readHolds = 0 :=
      (census_eq_zero_iff _ _).mpr (fun _thread => rfl)
    exact .initial ⟨rfl, Nat.le_trans (Nat.le_of_eq none) (Nat.zero_le _)⟩
  · intro before after _ earlier move
    have holds := exclusive_of_reachable layout backend earlier
    exact .step earlier ⟨move.1, Exclusive.fits layout holds earlier.inside move.1 move.2⟩

theorem wakeAccount_of_reachable_rw (layout : 3 ≤ width) (backend : FutexBackend)
    {state : RwState Thread preference width}
    (reachable : ((rwSystem Thread preference backend width).within ReadersFit).Reachable state) :
    RwWakeAccount backend state := by
  refine reachable.invariant ?_ ?_
  · rintro _ ⟨rfl, _⟩
    have clear : view (dormant : RwState Thread preference width).word = ⟨false, false, false, 0⟩ :=
      view_zero
    constructor
    · exact nofun
    · exact nofun
    · rw [clear]
      exact nofun
    · rw [clear]
      exact nofun
  · intro before after earlier account move
    exact account.step layout (exclusive_of_reachable layout backend earlier) move.1 move.2

/-- Nobody holds the lock, nobody is running inside an operation, and somebody
is parked. -/
def Stranded (state : RwState Thread preference width) : Prop :=
  (forall thread, (state.threads thread).reads = 0 ∧ (state.threads thread).writing = false) ∧
  (forall thread, (state.threads thread).point = .idle ∨ (state.threads thread).point.listens ≠ none) ∧
  Exists fun thread => (state.threads thread).point.listens ≠ none

omit [Fintype Thread] [DecidableEq Thread] in
/-- Only two program points listen. -/
theorem parked_of_listens {point : RwPoint preference width} (asleep : point.listens ≠ none) :
    point = .roParked ∨ point = .rwParked := by
  cases point with
  | roParked => exact Or.inl rfl
  | rwParked => exact Or.inr rfl
  | _ => exact absurd rfl asleep

omit [DecidableEq Thread] in
/-- Without a writer holding the lock, the locked bit is clear. -/
theorem RwState.Exclusive.unlocked {state : RwState Thread preference width} (holds : Exclusive state)
    (nobody : forall thread, (state.threads thread).writing = false) :
    (view state.word).locked = false := by
  have noWriter : state.writeHolds = 0 := (census_eq_zero_iff _ _).mpr (fun thread => by
    rw [RwThread.writes, nobody]
    rfl)
  have writers := holds.writers
  rw [noWriter] at writers
  cases locked : (view state.word).locked with
  | true =>
      rw [locked] at writers
      cases writers
  | false => rfl

omit [DecidableEq Thread] in
/-- Without a reader holding the lock, the reader count is zero. -/
theorem RwState.Exclusive.unread {state : RwState Thread preference width} (holds : Exclusive state)
    (nobody : forall thread, (state.threads thread).reads = 0) : (view state.word).readers = 0 := by
  have none : state.readHolds = 0 := (census_eq_zero_iff _ _).mpr nobody
  exact holds.readers.symm.trans none

omit [DecidableEq Thread] in
theorem not_stranded {backend : FutexBackend}
    {state : RwState Thread preference width} (holds : Exclusive state)
    (account : RwWakeAccount backend state) : ¬ Stranded state := by
  rintro ⟨released, resting, sleeper, asleep⟩
  have readers : (view state.word).readers = 0 := holds.unread (fun thread => (released thread).1)
  have unlocked : (view state.word).locked = false := holds.unlocked (fun thread => (released thread).2)
  have noDuty : forall listenBits, ¬ state.WakePending backend listenBits := by
    rintro listenBits ⟨waker, wakeBitset, owed, _⟩
    rcases resting waker with idle | listens
    · rw [idle] at owed
      cases owed
    · rcases parked_of_listens listens with place | place <;> rw [place] at owed <;> cases owed
  -- A parked writer needs a holder, and there is none.
  have noParkedWriter : forall thread, (state.threads thread).point ≠ .rwParked := by
    intro thread place
    rcases account.writers thread place with ⟨_, some | locked⟩ | pending
    · omega
    · rw [unlocked] at locked
      contradiction
    · exact noDuty _ pending
  rcases parked_of_listens asleep with place | place
  · -- A parked reader leaves the trace of a writer that is still inside.
    have announced := (account.readers sleeper place).resolve_right (noDuty _)
    rcases account.parked announced with waiting | locked
    · rcases account.waiting waiting with locked | ⟨writer, inside⟩
      · rw [unlocked] at locked
        contradiction
      · rcases resting writer with idle | listens
        · rw [idle] at inside
          cases inside
        · rcases parked_of_listens listens with reading | writing
          · rw [reading] at inside
            cases inside
          · exact noParkedWriter writer writing
    · rw [unlocked] at locked
      contradiction
  · exact noParkedWriter sleeper place

/-- A parked thread is announced in the word or is about to be woken, for both
variants, with nested read holds, and on every backend.  Hence parked threads
are never left behind. -/
theorem rw_mutex_loses_no_wakeup (backend : FutexBackend) (concurrency : HardwareConcurrency)
    (preference : RwPreference) (state : RwState Thread preference (backend.valueBits concurrency))
    (reachable : ((rwSystem Thread preference backend
      (backend.valueBits concurrency)).stepsWhere CountAsserted).Reachable state) :
    (forall thread, (state.threads thread).point = .roParked ->
      state.word &&& readerParkedBit _ ≠ 0 ∨ state.WakePending backend readerWaitBits) ∧
    (forall thread, (state.threads thread).point = .rwParked ->
      (state.word &&& writerWaitingBit _ ≠ 0 ∧
        (0 < (state.word &&& readerMask _).toNat ∨ state.word &&& writerLockedBit _ ≠ 0)) ∨
      state.WakePending backend writerWaitBits) ∧
    ¬ Stranded state := by
  have layout := backend.three_le_valueBits concurrency
  have fitting := reachable_within_of_asserted layout backend reachable
  have holds := exclusive_of_reachable layout backend fitting
  have account := wakeAccount_of_reachable_rw layout backend fitting
  refine ⟨?_, ?_, not_stranded holds account⟩
  · intro thread place
    rw [Ne, BitVec.ofNat_eq_ofNat, and_readerParkedBit_eq_zero_iff layout, Bool.not_eq_false]
    exact account.readers thread place
  · intro thread place
    rw [Ne, Ne, BitVec.ofNat_eq_ofNat, and_writerWaitingBit_eq_zero_iff layout,
      and_writerLockedBit_eq_zero_iff layout, toNat_and_readerMask layout, Bool.not_eq_false,
      Bool.not_eq_false]
    exact account.writers thread place

end Runs

/-- One thread holds the write side, and the other one is parked for reading. -/
def parkedBehindWriter : RwState (Fin 2) .readerPreferring 32 where
  word := writerLockedBit 32 ||| readerParkedBit 32
  threads := fun thread => if thread.val = 0 then ⟨0, true, .idle⟩ else ⟨0, false, .roParked⟩

theorem parkedBehindWriter_reachable :
    ((rwSystem (Fin 2) .readerPreferring .linux 32).stepsWhere CountAsserted).Reachable
      parkedBehindWriter := by
  have start : ((rwSystem (Fin 2) .readerPreferring .linux 32).stepsWhere CountAsserted).Reachable
      dormant := .initial rfl
  have calls := System.Reachable.step start ⟨RwStep.callAcquireRw 0 rfl, fun _ => by decide⟩
  have loads := System.Reachable.step calls ⟨RwStep.rwLoad 0 rfl, fun _ => by decide⟩
  have takes := System.Reachable.step loads ⟨RwStep.rwTake 0 (by decide) rfl, fun _ => by decide⟩
  have reads := System.Reachable.step takes ⟨RwStep.callAcquireRo 1 rfl, fun _ => by decide⟩
  have looks := System.Reachable.step reads ⟨RwStep.roLoad 1 rfl, fun _ => by decide⟩
  have announces := System.Reachable.step looks
    ⟨RwStep.roAnnounce 1 (by decide) rfl, fun _ => by decide⟩
  have again := System.Reachable.step announces ⟨RwStep.roLoad 1 rfl, fun _ => by decide⟩
  have parks := System.Reachable.step again ⟨RwStep.roPark 1 (by decide) rfl, fun _ => by decide⟩
  convert parks using 1
  simp only [parkedBehindWriter, RwState.goto, RwState.change, RwState.mk.injEq]
  refine ⟨by decide, ?_⟩
  funext thread
  fin_cases thread <;> decide

theorem rw_mutex_loses_no_wakeup_parkedBehindWriter :
    (forall thread, (parkedBehindWriter.threads thread).point = .roParked ->
      parkedBehindWriter.word &&& readerParkedBit _ ≠ 0 ∨
        parkedBehindWriter.WakePending .linux readerWaitBits) ∧
    (forall thread, (parkedBehindWriter.threads thread).point = .rwParked ->
      (parkedBehindWriter.word &&& writerWaitingBit _ ≠ 0 ∧
        (0 < (parkedBehindWriter.word &&& readerMask _).toNat ∨
          parkedBehindWriter.word &&& writerLockedBit _ ≠ 0)) ∨
      parkedBehindWriter.WakePending .linux writerWaitBits) ∧
    ¬ Stranded parkedBehindWriter :=
  rw_mutex_loses_no_wakeup .linux .uint16 .readerPreferring parkedBehindWriter
    parkedBehindWriter_reachable

end Threading
end Sweater
