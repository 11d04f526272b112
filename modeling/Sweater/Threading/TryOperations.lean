import Sweater.Threading.RwWakeups

namespace Sweater
namespace Threading

open Interleaving
open RwWord
open RwState

/-!
# The try operations of the futex reader-writer lock

A try is one load and one exchange, and the exchange compares the whole word.
Whatever another thread does to the word in between makes it fail, also a
reader that comes or goes without closing the lock to anybody.  An observer
notes for each running try whether the lock has been closed to it meanwhile.
-/

variable {Thread : Type} {preference : RwPreference} {width : Nat}

/-- Inside `try_acquire_ro` or `try_acquire_rw`. -/
def RwPoint.tries : RwPoint preference width -> Bool
  | tryRoLoad | tryRoEnter _ _ | tryRwLoad | tryRwTake _ _ => true
  | _ => false

def RwPoint.triesRo : RwPoint preference width -> Bool
  | tryRoLoad | tryRoEnter _ _ => true
  | _ => false

def RwPoint.triesRw : RwPoint preference width -> Bool
  | tryRwLoad | tryRwTake _ _ => true
  | _ => false

namespace RwState

/-- The lock does not admit readers: a writer holds it or, under writer
preference, has announced that it waits. -/
def ClosedToReaders (state : RwState Thread preference width) : Prop :=
  Exists fun writer => (state.threads writer).writing = true ∨
    (preference = .writerPreferring ∧ (state.threads writer).point.acquiresRw = true ∧
      state.word &&& writerWaitingBit width ≠ 0#(width))

/-- Some thread holds the lock. -/
def Held (state : RwState Thread preference width) : Prop :=
  Exists fun holder => 0 < (state.threads holder).reads ∨ (state.threads holder).writing = true

instance [Fintype Thread] (state : RwState Thread preference width) : Decidable state.ClosedToReaders :=
  inferInstanceAs (Decidable (Exists fun _writer => _ ∨ _))

instance [Fintype Thread] (state : RwState Thread preference width) : Decidable state.Held :=
  inferInstanceAs (Decidable (Exists fun _holder => _ ∨ _))

end RwState

/-- What has been the case at some moment of the try that a thread is in. -/
structure TryWatch (Thread : Type) where
  closed : Thread -> Bool
  held : Thread -> Bool

namespace TryWatch

def blank : TryWatch Thread := ⟨fun _ => false, fun _ => false⟩

variable [Fintype Thread]

def note (_before after : RwState Thread preference width) (watch : TryWatch Thread) : TryWatch Thread where
  closed := fun thread => (after.threads thread).point.tries &&
    (decide after.ClosedToReaders || watch.closed thread)
  held := fun thread => (after.threads thread).point.tries && (decide after.Held || watch.held thread)

end TryWatch

/-- `try_acquire_ro` returns `false` in this step. -/
def TryRoFails (before after : RwState Thread preference width) (thread : Thread) : Prop :=
  (before.threads thread).point.triesRo = true ∧ (after.threads thread).point = .idle ∧
    (after.threads thread).reads = (before.threads thread).reads

/-- `try_acquire_rw` returns `false` in this step. -/
def TryRwFails (before after : RwState Thread preference width) (thread : Thread) : Prop :=
  (before.threads thread).point.triesRw = true ∧ (after.threads thread).point = .idle ∧
    (after.threads thread).writing = (before.threads thread).writing

/-! ## The steps of a try -/

section Steps

variable [DecidableEq Thread] {backend : FutexBackend} {before after : RwState Thread preference width}

/-- The steps that a thread makes to, in and out of a try. -/
inductive TryStep (before : RwState Thread preference width) (thread : Thread) :
    RwState Thread preference width -> Prop
  | callRo : (before.threads thread).point = .idle -> TryStep before thread (before.goto thread .tryRoLoad)
  | callRw : (before.threads thread).point = .idle -> TryStep before thread (before.goto thread .tryRwLoad)
  | loadRo (admitted : before.word &&& preference.readerBlockingBits width = 0#(width)) :
      (before.threads thread).point = .tryRoLoad ->
      TryStep before thread (before.goto thread (.tryRoEnter before.word admitted))
  | refuseRo : (before.threads thread).point = .tryRoLoad ->
      before.word &&& preference.readerBlockingBits width ≠ 0#(width) ->
      TryStep before thread (before.goto thread .idle)
  | enter (admitted) : (before.threads thread).point = .tryRoEnter before.word admitted ->
      TryStep before thread (before.change thread (before.word + 1) (before.threads thread).enter)
  | failRo (observed) (admitted) : (before.threads thread).point = .tryRoEnter observed admitted ->
      before.word ≠ observed -> TryStep before thread (before.goto thread .idle)
  | loadRw (free : before.word &&& (readerMask width ||| writerLockedBit width) = 0#(width)) :
      (before.threads thread).point = .tryRwLoad ->
      TryStep before thread (before.goto thread (.tryRwTake before.word free))
  | refuseRw : (before.threads thread).point = .tryRwLoad ->
      before.word &&& (readerMask width ||| writerLockedBit width) ≠ 0#(width) ->
      TryStep before thread (before.goto thread .idle)
  | take (free) : (before.threads thread).point = .tryRwTake before.word free ->
      TryStep before thread (before.change thread (writerLockedBit width ||| before.word &&& parkedBits width)
        (before.threads thread).take)
  | failRw (observed) (free) : (before.threads thread).point = .tryRwTake observed free ->
      before.word ≠ observed -> TryStep before thread (before.goto thread .idle)

/-- A step of one thread leaves the tries of the others alone. -/
theorem change_elsewhere {mover thread : Thread} {word : BitVec width} {next : RwThread preference width}
    (outside : (before.threads mover).point.tries = false) (quiet : next.point.tries = false)
    (trying : (before.threads thread).point.tries = true ∨
      ((before.change mover word next).threads thread).point.tries = true) :
    (before.change mover word next).threads thread = before.threads thread := by
  by_cases same : thread = mover
  · subst same
    rw [threads_change_self, outside, quiet] at trying
    rcases trying with never | never <;> cases never
  · exact threads_change_of_ne _ _ _ _ same

omit [DecidableEq Thread] in
/-- Nobody is parked inside a try. -/
theorem unpark_of_tries (wakeBitset : Nat) {thread : RwThread preference width}
    (trying : thread.point.tries = true ∨ (thread.unpark backend wakeBitset).point.tries = true) :
    thread.unpark backend wakeBitset = thread := by
  rcases RwThread.unpark_cases backend wakeBitset thread with same | ⟨place, moved⟩ | ⟨place, moved⟩
  · exact same
  · rw [moved, place] at trying
    rcases trying with never | never <;> cases never
  · rw [moved, place] at trying
    rcases trying with never | never <;> cases never

theorem wakeAll_elsewhere {mover thread : Thread} (wakeBitset : Nat)
    (outside : (before.threads mover).point.tries = false)
    (trying : (before.threads thread).point.tries = true ∨
      ((before.wakeAll backend mover wakeBitset).threads thread).point.tries = true) :
    (before.wakeAll backend mover wakeBitset).threads thread = before.threads thread := by
  by_cases same : thread = mover
  · subst same
    simp only [RwState.wakeAll, Function.update_self] at trying
    rw [outside] at trying
    rcases trying with never | never <;> cases never
  · simp only [RwState.wakeAll, Function.update_of_ne same] at trying ⊢
    exact unpark_of_tries wakeBitset trying

theorem tries_roHead (observed : BitVec width) :
    (RwPoint.roHead observed : RwPoint preference width).tries = false := by
  unfold RwPoint.roHead
  split
  · rfl
  · split <;> rfl

theorem tries_rwHead (observed : BitVec width) :
    (RwPoint.rwHead observed : RwPoint preference width).tries = false := by
  unfold RwPoint.rwHead
  split
  · rfl
  · split <;> rfl

/-- A thread in a try stands still or makes a step of the try. -/
theorem try_step_cases (move : RwStep backend before after) (thread : Thread)
    (trying : (before.threads thread).point.tries = true ∨ (after.threads thread).point.tries = true) :
    after.threads thread = before.threads thread ∨ TryStep before thread after := by
  -- A step of the try itself, when this thread makes it.
  have own : forall (mover : Thread) (word : BitVec width) (next : RwThread preference width),
      TryStep before mover (before.change mover word next) ->
      (before.change mover word next).threads thread = before.threads thread ∨
        TryStep before thread (before.change mover word next) := by
    intro mover word next step
    by_cases same : thread = mover
    · subst same
      exact Or.inr step
    · exact Or.inl (threads_change_of_ne _ _ _ _ same)
  cases move with
  | callTryAcquireRo mover place => exact own mover _ _ (.callRo place)
  | callTryAcquireRw mover place => exact own mover _ _ (.callRw place)
  | tryRoLoad mover admitted place => exact own mover _ _ (.loadRo admitted place)
  | tryRoRefused mover place closed => exact own mover _ _ (.refuseRo place closed)
  | tryRoEnter mover admitted place => exact own mover _ _ (.enter admitted place)
  | tryRoFail mover observed admitted place changed => exact own mover _ _ (.failRo observed admitted place changed)
  | tryRwLoad mover free place => exact own mover _ _ (.loadRw free place)
  | tryRwRefused mover place busy => exact own mover _ _ (.refuseRw place busy)
  | tryRwTake mover free place => exact own mover _ _ (.take free place)
  | tryRwFail mover observed free place changed => exact own mover _ _ (.failRw observed free place changed)
  | roWake mover place => exact Or.inl (wakeAll_elsewhere writerWaitBits (by rw [place]; rfl) trying)
  | rwWake mover place => exact Or.inl (wakeAll_elsewhere eitherWaitBits (by rw [place]; rfl) trying)
  | roLoad mover place => exact Or.inl (change_elsewhere (by rw [place]; rfl) (tries_roHead _) trying)
  | rwLoad mover place => exact Or.inl (change_elsewhere (by rw [place]; rfl) (tries_rwHead _) trying)
  | rwTakeFail mover observed free place =>
      exact Or.inl (change_elsewhere (by rw [place]; rfl) (tries_rwHead _) trying)
  | rwAnnounce mover busy place => exact Or.inl (change_elsewhere (by rw [place]; rfl) (tries_rwHead _) trying)
  | rwAnnounceFail mover observed busy place =>
      exact Or.inl (change_elsewhere (by rw [place]; rfl) (tries_rwHead _) trying)
  | callAcquireRo mover place | callReleaseRo mover place held | callAcquireRw mover place
  | callReleaseRw mover place held | roEnter mover admitted place | roEnterFail mover observed admitted place
  | roAnnounce mover closed place | roAnnounceFail mover observed closed place | roPark mover announced place
  | roParkRefused mover observed announced place | roSpurious mover place
  | roReleaseLast mover place last announced | roReleaseQuiet mover place quiet
  | rwTake mover free place | rwPark mover busy announced place
  | rwParkRefused mover observed busy announced place | rwSpurious mover place
  | rwReleaseWake mover place announced | rwReleaseQuiet mover place quiet =>
      exact Or.inl (change_elsewhere (by rw [place]; rfl) rfl trying)

theorem threads_goto_self (thread : Thread) (point : RwPoint preference width) :
    (before.goto thread point).threads thread = (before.threads thread).goto point :=
  threads_change_self before thread before.word ((before.threads thread).goto point)

theorem point_goto_self (thread : Thread) (point : RwPoint preference width) :
    ((before.goto thread point).threads thread).point = point := by
  rw [threads_goto_self]
  rfl

theorem reads_goto_self (thread : Thread) (point : RwPoint preference width) :
    ((before.goto thread point).threads thread).reads = (before.threads thread).reads := by
  rw [threads_goto_self, RwThread.goto_reads]

theorem writing_goto_self (thread : Thread) (point : RwPoint preference width) :
    ((before.goto thread point).threads thread).writing = (before.threads thread).writing := by
  rw [threads_goto_self, RwThread.goto_writing]

/-- The exchange is made on what the load before it has found. -/
theorem observed_of_tryRoEnter (move : RwStep backend before after) {thread : Thread} {observed : BitVec width} {admitted}
    (place : (after.threads thread).point = .tryRoEnter observed admitted) :
    after.threads thread = before.threads thread ∨ after.word = observed := by
  rcases try_step_cases move thread (Or.inr (by rw [place]; rfl)) with still | step
  · exact Or.inl still
  · right
    cases step with
    | loadRo admitted here =>
        rw [point_goto_self] at place
        cases place
        rfl
    | enter admitted here =>
        rw [threads_change_self] at place
        cases place
    | take free here =>
        rw [threads_change_self] at place
        cases place
    | _ =>
        rw [point_goto_self] at place
        cases place

theorem observed_of_tryRwTake (move : RwStep backend before after) {thread : Thread} {observed : BitVec width} {free}
    (place : (after.threads thread).point = .tryRwTake observed free) :
    after.threads thread = before.threads thread ∨ after.word = observed := by
  rcases try_step_cases move thread (Or.inr (by rw [place]; rfl)) with still | step
  · exact Or.inl still
  · right
    cases step with
    | loadRw free here =>
        rw [point_goto_self] at place
        cases place
        rfl
    | enter admitted here =>
        rw [threads_change_self] at place
        cases place
    | take free here =>
        rw [threads_change_self] at place
        cases place
    | _ =>
        rw [point_goto_self] at place
        cases place

theorem tries_of_triesRo {point : RwPoint preference width} (trying : point.triesRo = true) : point.tries = true := by
  cases point with
  | tryRoLoad | tryRoEnter _ _ => rfl
  | _ => cases trying

theorem tries_of_triesRw {point : RwPoint preference width} (trying : point.triesRw = true) : point.tries = true := by
  cases point with
  | tryRwLoad | tryRwTake _ _ => rfl
  | _ => cases trying

/-- Why `try_acquire_ro` may return `false`. -/
theorem TryRoFails.cases (move : RwStep backend before after) {thread : Thread}
    (fails : TryRoFails before after thread) :
    before.word &&& preference.readerBlockingBits width ≠ 0#(width) ∨
      Exists fun observed => Exists fun admitted =>
        (before.threads thread).point = .tryRoEnter observed admitted ∧ before.word ≠ observed := by
  obtain ⟨trying, returned, fewer⟩ := fails
  rcases try_step_cases move thread (Or.inl (tries_of_triesRo trying)) with still | step
  · rw [still] at returned
    rw [returned] at trying
    cases trying
  · cases step with
    | refuseRo place closed => exact Or.inl closed
    | failRo observed admitted place changed => exact Or.inr ⟨observed, admitted, place, changed⟩
    | enter admitted place =>
        rw [threads_change_self, RwThread.enter_reads] at fewer
        exact absurd fewer (Nat.succ_ne_self _)
    | callRo place | callRw place | loadRo admitted place | loadRw free place =>
        rw [point_goto_self] at returned
        cases returned
    | refuseRw place _ | take free place | failRw observed free place _ =>
        rw [place] at trying
        cases trying

/-- Why `try_acquire_rw` may return `false`. -/
theorem TryRwFails.cases (move : RwStep backend before after) {thread : Thread}
    (fails : TryRwFails before after thread) :
    before.word &&& (readerMask width ||| writerLockedBit width) ≠ 0#(width) ∨
      (before.threads thread).writing = true ∨
      Exists fun observed => Exists fun free =>
        (before.threads thread).point = .tryRwTake observed free ∧ before.word ≠ observed := by
  obtain ⟨trying, returned, same⟩ := fails
  rcases try_step_cases move thread (Or.inl (tries_of_triesRw trying)) with still | step
  · rw [still] at returned
    rw [returned] at trying
    cases trying
  · cases step with
    | refuseRw place busy => exact Or.inl busy
    | failRw observed free place changed => exact Or.inr (Or.inr ⟨observed, free, place, changed⟩)
    | take free place =>
        rw [threads_change_self, RwThread.take_writing] at same
        exact Or.inr (Or.inl same.symm)
    | callRo place | callRw place | loadRo admitted place | loadRw free place =>
        rw [point_goto_self] at returned
        cases returned
    | refuseRo place _ | enter admitted place | failRo observed admitted place _ =>
        rw [place] at trying
        cases trying

/-- Neither the call nor the load of a try changes the word. -/
theorem word_of_tries (move : RwStep backend before after) {thread : Thread}
    (trying : (after.threads thread).point.tries = true) (moved : after.threads thread ≠ before.threads thread) :
    after.word = before.word := by
  rcases try_step_cases move thread (Or.inr trying) with still | step
  · exact absurd still moved
  · cases step with
    | enter admitted place | take free place =>
        rw [threads_change_self] at trying
        cases trying
    | _ => rfl

/-- Whoever is in a try has the holds that it had before. -/
theorem reads_of_tries (move : RwStep backend before after) {thread : Thread}
    (trying : (after.threads thread).point.tries = true) :
    (after.threads thread).reads = (before.threads thread).reads := by
  rcases try_step_cases move thread (Or.inr trying) with still | step
  · rw [still]
  · cases step with
    | enter admitted place | take free place =>
        rw [threads_change_self] at trying
        cases trying
    | _ => exact reads_goto_self thread _

theorem TryRoFails.word_eq (move : RwStep backend before after) {thread : Thread}
    (fails : TryRoFails before after thread) : after.word = before.word := by
  obtain ⟨trying, returned, fewer⟩ := fails
  rcases try_step_cases move thread (Or.inl (tries_of_triesRo trying)) with still | step
  · rw [still] at returned
    rw [returned] at trying
    cases trying
  · cases step with
    | enter admitted place =>
        rw [threads_change_self, RwThread.enter_reads] at fewer
        exact absurd fewer (Nat.succ_ne_self _)
    | take free place =>
        rw [place] at trying
        cases trying
    | _ => rfl

theorem TryRwFails.word_eq [Fintype Thread] (layout : 3 ≤ width) (holds : Exclusive before)
    (move : RwStep backend before after) {thread : Thread} (fails : TryRwFails before after thread) :
    after.word = before.word := by
  obtain ⟨trying, returned, same⟩ := fails
  rcases try_step_cases move thread (Or.inl (tries_of_triesRw trying)) with still | step
  · rw [still] at returned
    rw [returned] at trying
    cases trying
  · cases step with
    | enter admitted place =>
        rw [place] at trying
        cases trying
    | take free place =>
        -- Whoever takes the lock did not have it.
        rw [threads_change_self, RwThread.take_writing] at same
        have unlocked := ((and_holders_eq_zero_iff layout before.word).mp free).2
        have writers := holds.writers
        have own := writing_le_writeHolds before thread
        rw [unlocked] at writers
        rw [← same, writers] at own
        cases own
    | _ => rfl

end Steps

/-! ## Whole runs -/

section Runs

variable [Fintype Thread]

theorem closed_of_blocked (layout : 3 ≤ width) {backend : FutexBackend} {state : RwState Thread preference width}
    (holds : Exclusive state) (account : RwWakeAccount backend state)
    (blocked : state.word &&& preference.readerBlockingBits width ≠ 0#(width)) : state.ClosedToReaders := by
  have ofLocked : (view state.word).locked = true -> state.ClosedToReaders := by
    intro locked
    by_contra open_
    have unlocked := holds.unlocked (fun thread => by
      by_contra writes
      exact open_ ⟨thread, Or.inl (Bool.eq_true_of_not_eq_false writes)⟩)
    rw [unlocked] at locked
    cases locked
  cases locked : (view state.word).locked with
  | true => exact ofLocked locked
  | false =>
      have waiting := (waiting_or_locked_of_closed layout state.word blocked).resolve_right
        (by rw [locked]; exact Bool.false_ne_true)
      rcases account.waiting waiting with locked | ⟨writer, acquires⟩
      · exact ofLocked locked
      · refine ⟨writer, Or.inr ⟨?_, acquires, ?_⟩⟩
        · cases preference with
          | writerPreferring => rfl
          | readerPreferring =>
              refine absurd ?_ blocked
              exact (and_writerLockedBit_eq_zero_iff layout state.word).mpr locked
        · rw [Ne, and_writerWaitingBit_eq_zero_iff layout, waiting]
          exact Bool.true_eq_false_eq_False

theorem held_of_holders (layout : 3 ≤ width) {state : RwState Thread preference width} (holds : Exclusive state)
    (busy : state.word &&& (readerMask width ||| writerLockedBit width) ≠ 0#(width)) : state.Held := by
  by_contra free
  have unlocked := holds.unlocked (fun thread => by
    by_contra writes
    exact free ⟨thread, Or.inr (Bool.eq_true_of_not_eq_false writes)⟩)
  have unread := holds.unread (fun thread => by
    by_contra reads
    exact free ⟨thread, Or.inl (Nat.pos_of_ne_zero reads)⟩)
  exact busy ((and_holders_eq_zero_iff layout state.word).mpr ⟨unread, unlocked⟩)

/-- Under reader preference the lock is open to whoever reads already. -/
theorem open_of_reads {state : RwState Thread .readerPreferring width} (holds : Exclusive state) {reader : Thread}
    (reads : 0 < (state.threads reader).reads) : ¬state.ClosedToReaders := by
  rintro ⟨writer, writes | ⟨never, _⟩⟩
  · have own := reads_le_readHolds state reader
    have some := writing_le_writeHolds state writer
    rw [writes, Bool.toNat_true] at some
    rcases holds.holds_cases with none | ⟨_, nobody⟩ <;> omega
  · cases never

variable [DecidableEq Thread]

/-- The lock with the notes on its tries, as long as the code's assertion on
the reader count holds. -/
def trySystem (Thread : Type) [Fintype Thread] [DecidableEq Thread] (preference : RwPreference)
    (backend : FutexBackend) (width : Nat) : System (RwState Thread preference width × TryWatch Thread) :=
  ((rwSystem Thread preference backend width).stepsWhere CountAsserted).recording TryWatch.note .blank

/--
The word changes under a `try_acquire_ro` whose exchange comes next and would
still succeed, and from the call until now the lock has been open to readers.
-/
def MeddlesRo (watched : RwState Thread preference width × TryWatch Thread)
    (after : RwState Thread preference width) (thread : Thread) : Prop :=
  (Exists fun admitted => (watched.1.threads thread).point = .tryRoEnter watched.1.word admitted) ∧
    (after.threads thread).point = (watched.1.threads thread).point ∧ after.word ≠ watched.1.word ∧
    watched.2.closed thread = false ∧ ¬after.ClosedToReaders

/-- The same for a `try_acquire_rw` and a lock that nobody has held meanwhile. -/
def MeddlesRw (watched : RwState Thread preference width × TryWatch Thread)
    (after : RwState Thread preference width) (thread : Thread) : Prop :=
  (Exists fun free => (watched.1.threads thread).point = .tryRwTake watched.1.word free) ∧
    (after.threads thread).point = (watched.1.threads thread).point ∧ after.word ≠ watched.1.word ∧
    watched.2.held thread = false ∧ ¬after.Held

/-- The step meddles with nobody's try. -/
def LeavesTriesAlone (before after : RwState Thread preference width × TryWatch Thread) : Prop :=
  forall thread, ¬MeddlesRo before after.1 thread ∧ ¬MeddlesRw before after.1 thread

/-- Who meddles with a `try_acquire_ro`: a reader that comes or goes and, under
reader preference, a writer that announces itself. -/
theorem MeddlesRo.cases (layout : 3 ≤ width) {backend : FutexBackend} {before after : RwState Thread preference width}
    {watch : TryWatch Thread} (holds : Exclusive before) (move : RwStep backend before after) {thread : Thread}
    (meddles : MeddlesRo (before, watch) after thread) :
    (Exists fun reader => (after.threads reader).reads ≠ (before.threads reader).reads) ∨
      (preference = .readerPreferring ∧ Exists fun writer => Exists fun busy =>
        (before.threads writer).point = .rwAnnounce before.word busy) := by
  obtain ⟨⟨admitted, place⟩, still, changed, earlier, open_⟩ := meddles
  change after.word ≠ before.word at changed
  have unlocked := unlocked_of_admitted layout before.word admitted
  have nobody : forall writer, (before.threads writer).point ≠ .rwRelease := by
    intro writer here
    have held := holds.writing_eq here
    have own := writing_le_writeHolds before writer
    have writers := holds.writers
    rw [unlocked] at writers
    rw [held, writers] at own
    cases own
  cases move with
  | roEnter reader admitted here | tryRoEnter reader admitted here =>
      refine Or.inl ⟨reader, ?_⟩
      rw [threads_change_self, RwThread.enter_reads]
      exact Nat.succ_ne_self _
  | roReleaseLast reader here last announced | roReleaseQuiet reader here quiet =>
      refine Or.inl ⟨reader, ?_⟩
      have held := holds.reads_pos here
      rw [threads_change_self, RwThread.leave_reads]
      omega
  | roAnnounce reader closed here => exact absurd admitted closed
  | rwTake writer free here | tryRwTake writer free here =>
      refine absurd ⟨writer, Or.inl ?_⟩ open_
      rw [threads_change_self, RwThread.take_writing]
  | rwAnnounce writer busy here =>
      cases preference with
      | readerPreferring => exact Or.inr ⟨rfl, writer, busy, here⟩
      | writerPreferring =>
          refine absurd ⟨writer, Or.inr ⟨rfl, ?_, ?_⟩⟩ open_
          · rw [threads_change_self]
            exact RwPoint.acquiresRw_rwHead _
          · change (before.word ||| writerWaitingBit width) &&& writerWaitingBit width ≠ 0#(width)
            rw [Ne, and_writerWaitingBit_eq_zero_iff layout, view_or_writerWaitingBit layout]
            exact Bool.true_eq_false_eq_False
  | rwReleaseWake writer here announced | rwReleaseQuiet writer here quiet => exact absurd here (nobody writer)
  | _ => exact absurd rfl changed

/-- Who meddles with a `try_acquire_rw`: under writer preference, a reader that
announces itself behind a waiting writer; under reader preference, nobody. -/
theorem MeddlesRw.cases (layout : 3 ≤ width) {backend : FutexBackend} {before after : RwState Thread preference width}
    {watch : TryWatch Thread} (holds : Exclusive before) (move : RwStep backend before after) {thread : Thread}
    (meddles : MeddlesRw (before, watch) after thread) :
    preference = .writerPreferring ∧ Exists fun reader => Exists fun closed =>
      (before.threads reader).point = .roAnnounce before.word closed := by
  obtain ⟨⟨free, place⟩, still, changed, earlier, unheld⟩ := meddles
  change after.word ≠ before.word at changed
  obtain ⟨unread, unlocked⟩ := (and_holders_eq_zero_iff layout before.word).mp free
  have noReader : forall reader, (before.threads reader).point ≠ .roRelease := by
    intro reader here
    have counted := holds.readers_pos here
    omega
  have noWriter : forall writer, (before.threads writer).point ≠ .rwRelease := by
    intro writer here
    have held := holds.writing_eq here
    have own := writing_le_writeHolds before writer
    have writers := holds.writers
    rw [unlocked] at writers
    rw [held, writers] at own
    cases own
  cases move with
  | roEnter reader admitted here | tryRoEnter reader admitted here =>
      refine absurd ⟨reader, Or.inl ?_⟩ unheld
      rw [threads_change_self, RwThread.enter_reads]
      exact Nat.succ_pos _
  | roReleaseLast reader here last announced | roReleaseQuiet reader here quiet => exact absurd here (noReader reader)
  | roAnnounce reader closed here =>
      cases preference with
      | writerPreferring => exact ⟨rfl, reader, closed, here⟩
      | readerPreferring => exact absurd ((and_writerLockedBit_eq_zero_iff layout before.word).mpr unlocked) closed
  | rwTake writer free here | tryRwTake writer free here =>
      refine absurd ⟨writer, Or.inr ?_⟩ unheld
      rw [threads_change_self, RwThread.take_writing]
  | rwAnnounce writer busy here => exact absurd free busy
  | rwReleaseWake writer here announced | rwReleaseQuiet writer here quiet => exact absurd here (noWriter writer)
  | _ => exact absurd rfl changed

/-- A try that is going to fail has a cause already. -/
structure TriesCovered (watched : RwState Thread preference width × TryWatch Thread) : Prop where
  closed : forall thread, (watched.1.threads thread).point.tries = true -> watched.1.ClosedToReaders ->
    watched.2.closed thread = true
  held : forall thread, (watched.1.threads thread).point.tries = true -> watched.1.Held ->
    watched.2.held thread = true
  entering : forall thread observed admitted, (watched.1.threads thread).point = .tryRoEnter observed admitted ->
    watched.1.word = observed ∨ watched.2.closed thread = true
  taking : forall thread observed free, (watched.1.threads thread).point = .tryRwTake observed free ->
    watched.1.word = observed ∨ watched.2.held thread = true

variable {backend : FutexBackend}

omit [DecidableEq Thread] in
theorem noted_closed (before : RwState Thread preference width) {after : RwState Thread preference width} {watch : TryWatch Thread} {thread : Thread}
    (trying : (after.threads thread).point.tries = true)
    (cause : after.ClosedToReaders ∨ watch.closed thread = true) :
    (watch.note before after).closed thread = true := by
  change (_ && (_ || _)) = true
  rw [trying, Bool.true_and]
  rcases cause with now | earlier
  · rw [decide_eq_true now, Bool.true_or]
  · rw [earlier, Bool.or_true]

omit [DecidableEq Thread] in
theorem noted_held (before : RwState Thread preference width) {after : RwState Thread preference width} {watch : TryWatch Thread} {thread : Thread}
    (trying : (after.threads thread).point.tries = true)
    (cause : after.Held ∨ watch.held thread = true) :
    (watch.note before after).held thread = true := by
  change (_ && (_ || _)) = true
  rw [trying, Bool.true_and]
  rcases cause with now | earlier
  · rw [decide_eq_true now, Bool.true_or]
  · rw [earlier, Bool.or_true]

theorem TriesCovered.step {before after : RwState Thread preference width} {watch : TryWatch Thread}
    (covered : TriesCovered (before, watch)) (move : RwStep backend before after)
    (alone : LeavesTriesAlone (before, watch) (after, watch.note before after)) :
    TriesCovered (after, watch.note before after) := by
  constructor
  · exact fun thread trying closed => noted_closed before trying (Or.inl closed)
  · exact fun thread trying held => noted_held before trying (Or.inl held)
  · intro thread observed admitted place
    change (after.threads thread).point = .tryRoEnter observed admitted at place
    change after.word = observed ∨ _
    have trying : (after.threads thread).point.tries = true := by rw [place]; rfl
    rcases observed_of_tryRoEnter move place with still | fresh
    · rw [still] at place
      by_cases earlier : watch.closed thread = true
      · exact Or.inr (noted_closed before trying (Or.inr earlier))
      by_cases now : after.ClosedToReaders
      · exact Or.inr (noted_closed before trying (Or.inl now))
      left
      have known : before.word = observed := (covered.entering thread observed admitted place).resolve_right earlier
      subst known
      by_contra changed
      exact (alone thread).1 ⟨⟨admitted, place⟩, congrArg _ still, changed, Bool.eq_false_of_not_eq_true earlier, now⟩
    · exact Or.inl fresh
  · intro thread observed free place
    change (after.threads thread).point = .tryRwTake observed free at place
    change after.word = observed ∨ _
    have trying : (after.threads thread).point.tries = true := by rw [place]; rfl
    rcases observed_of_tryRwTake move place with still | fresh
    · rw [still] at place
      by_cases earlier : watch.held thread = true
      · exact Or.inr (noted_held before trying (Or.inr earlier))
      by_cases now : after.Held
      · exact Or.inr (noted_held before trying (Or.inl now))
      left
      have known : before.word = observed := (covered.taking thread observed free place).resolve_right earlier
      subst known
      by_contra changed
      exact (alone thread).2 ⟨⟨free, place⟩, congrArg _ still, changed, Bool.eq_false_of_not_eq_true earlier, now⟩
    · exact Or.inl fresh

theorem triesCovered_of_reachable {watched : RwState Thread preference width × TryWatch Thread}
    (reachable : ((trySystem Thread preference backend width).stepsWhere LeavesTriesAlone).Reachable watched) :
    TriesCovered watched := by
  refine reachable.invariant ?_ ?_
  · rintro ⟨lock, watch⟩ ⟨first, blank⟩
    change lock = dormant at first
    change watch = .blank at blank
    subst first blank
    exact ⟨nofun, nofun, nofun, nofun⟩
  · rintro ⟨before, watch⟩ ⟨after, later⟩ _ covered ⟨⟨move, noted⟩, alone⟩
    change later = watch.note before after at noted
    subst noted
    exact covered.step move.1 alone

/-- Nobody who reads under reader preference has found the lock closed. -/
theorem open_of_nested {watched : RwState Thread .readerPreferring width × TryWatch Thread} (layout : 3 ≤ width)
    (reachable : (trySystem Thread .readerPreferring backend width).Reachable watched) {reader : Thread}
    (reads : 0 < (watched.1.threads reader).reads) : watched.2.closed reader = false := by
  refine @System.Reachable.invariant _ _
    (fun watched : RwState Thread .readerPreferring width × TryWatch Thread => forall reader,
      0 < (watched.1.threads reader).reads -> watched.2.closed reader = false) ?_ ?_ _ reachable reader reads
  · rintro ⟨lock, watch⟩ ⟨_, blank⟩ reader _
    change watch = .blank at blank
    subst blank
    rfl
  · rintro ⟨before, watch⟩ ⟨after, later⟩ earlier open_ ⟨move, noted⟩ reader reads
    change later = watch.note before after at noted
    subst noted
    have within := reachable_within_of_asserted layout backend (earlier.observed move).of_recording
    have holds : Exclusive after := exclusive_of_reachable layout backend within
    change (_ && (_ || _)) = false
    rw [decide_eq_false (open_of_reads holds reads), Bool.false_or]
    cases trying : (after.threads reader).point.tries with
    | false => rfl
    | true =>
        apply open_ reader
        rw [← reads_of_tries move.1 trying]
        exact reads

/--
The tries of both variants, with any number of threads.  In a run whose steps
meddle with no try, a try fails only if the lock has been closed to it at some
moment since its call, and so never under a read hold of a reader preferring
lock; it leaves the word as it was.  A step that meddles with a try makes it
fail without a cause if the exchange comes next.
-/
theorem try_fails_for_cause (backend : FutexBackend) (concurrency : HardwareConcurrency) (preference : RwPreference)
    (watched : RwState Thread preference (backend.valueBits concurrency) × TryWatch Thread)
    (reachable : ((trySystem Thread preference backend (backend.valueBits concurrency)).stepsWhere
      LeavesTriesAlone).Reachable watched)
    (after : RwState Thread preference (backend.valueBits concurrency)) (move : RwStep backend watched.1 after)
    (thread : Thread) :
    (TryRoFails watched.1 after thread ->
      watched.2.closed thread = true ∧ after.word = watched.1.word ∧
        ¬(preference = .readerPreferring ∧ 0 < (watched.1.threads thread).reads)) ∧
    (TryRwFails watched.1 after thread -> watched.2.held thread = true ∧ after.word = watched.1.word) ∧
    ((after.threads thread).point.tries = true -> after.threads thread ≠ watched.1.threads thread ->
      after.word = watched.1.word) ∧
    (MeddlesRo watched after thread -> Exists fun failed => RwStep backend after failed ∧
      TryRoFails after failed thread ∧ (watched.2.note watched.1 after).closed thread = false) ∧
    (MeddlesRw watched after thread -> Exists fun failed => RwStep backend after failed ∧
      TryRwFails after failed thread ∧ (watched.2.note watched.1 after).held thread = false) := by
  have layout := backend.three_le_valueBits concurrency
  have within := reachable_within_of_asserted layout backend reachable.of_stepsWhere.of_recording
  have holds := exclusive_of_reachable layout backend within
  have account := wakeAccount_of_reachable_rw layout backend within
  have covered := triesCovered_of_reachable reachable
  refine ⟨?_, ?_, word_of_tries move, ?_, ?_⟩
  · intro fails
    have closed : watched.2.closed thread = true := by
      rcases fails.cases move with blocked | ⟨observed, admitted, place, changed⟩
      · exact covered.closed thread (tries_of_triesRo fails.1) (closed_of_blocked layout holds account blocked)
      · exact (covered.entering thread observed admitted place).resolve_left changed
    refine ⟨closed, fails.word_eq move, ?_⟩
    rintro ⟨rfl, reads⟩
    rw [open_of_nested layout reachable.of_stepsWhere reads] at closed
    cases closed
  · intro fails
    refine ⟨?_, fails.word_eq layout holds move⟩
    rcases fails.cases move with busy | writes | ⟨observed, free, place, changed⟩
    · exact covered.held thread (tries_of_triesRw fails.1) (held_of_holders layout holds busy)
    · exact covered.held thread (tries_of_triesRw fails.1) ⟨thread, Or.inr writes⟩
    · exact (covered.taking thread observed free place).resolve_left changed
  · rintro ⟨⟨admitted, place⟩, still, changed, earlier, now⟩
    have here : (after.threads thread).point = .tryRoEnter watched.1.word admitted := still.trans place
    refine ⟨_, .tryRoFail thread _ admitted here changed, ⟨?_, point_goto_self thread _, ?_⟩, ?_⟩
    · rw [here]
      rfl
    · exact reads_goto_self thread _
    · change (_ && (_ || _)) = false
      rw [earlier, decide_eq_false now, Bool.or_false, Bool.and_false]
  · rintro ⟨⟨free, place⟩, still, changed, earlier, now⟩
    have here : (after.threads thread).point = .tryRwTake watched.1.word free := still.trans place
    refine ⟨_, .tryRwFail thread _ free here changed, ⟨?_, point_goto_self thread _, ?_⟩, ?_⟩
    · rw [here]
      rfl
    · exact writing_goto_self thread _
    · change (_ && (_ || _)) = false
      rw [earlier, decide_eq_false now, Bool.or_false, Bool.and_false]

end Runs

section Decisions

variable [Fintype Thread] [DecidableEq Thread]

instance (watched : RwState Thread preference width × TryWatch Thread) (after : RwState Thread preference width)
    (thread : Thread) : Decidable (MeddlesRo watched after thread) :=
  inferInstanceAs (Decidable (_ ∧ _ ∧ _ ∧ _ ∧ _))

instance (watched : RwState Thread preference width × TryWatch Thread) (after : RwState Thread preference width)
    (thread : Thread) : Decidable (MeddlesRw watched after thread) :=
  inferInstanceAs (Decidable (_ ∧ _ ∧ _ ∧ _ ∧ _))

instance (before after : RwState Thread preference width × TryWatch Thread) :
    Decidable (LeavesTriesAlone before after) :=
  inferInstanceAs (Decidable (forall _thread, ¬_ ∧ ¬_))

end Decisions

/-- A reader tries while another thread holds the write side. -/
theorem try_fails_behind_writer :
    Exists fun watched : RwState (Fin 2) .readerPreferring 32 × TryWatch (Fin 2) => Exists fun after =>
      TryRoFails watched.1 after 1 ∧ watched.2.closed 1 = true ∧ after.word = watched.1.word := by
  have advance : forall {watched : RwState (Fin 2) .readerPreferring 32 × TryWatch (Fin 2)}
      {after : RwState (Fin 2) .readerPreferring 32},
      ((trySystem (Fin 2) .readerPreferring .linux 32).stepsWhere LeavesTriesAlone).Reachable watched ->
      RwStep .linux watched.1 after -> CountAsserted watched.1 after ->
      LeavesTriesAlone watched (after, watched.2.note watched.1 after) ->
      ((trySystem (Fin 2) .readerPreferring .linux 32).stepsWhere LeavesTriesAlone).Reachable
        (after, watched.2.note watched.1 after) :=
    fun reachable move asserted alone => .step reachable ⟨⟨⟨move, asserted⟩, rfl⟩, alone⟩
  have start : ((trySystem (Fin 2) .readerPreferring .linux 32).stepsWhere LeavesTriesAlone).Reachable
      (dormant, .blank) := .initial ⟨rfl, rfl⟩
  have calls := advance start (RwStep.callAcquireRw 0 rfl) (fun _ => by decide) (by decide)
  have loads := advance calls (RwStep.rwLoad 0 rfl) (fun _ => by decide) (by decide)
  have takes := advance loads (RwStep.rwTake 0 (by decide) rfl) (fun _ => by decide) (by decide)
  have tries := advance takes (RwStep.callTryAcquireRo 1 rfl) (fun _ => by decide) (by decide)
  have refused := (try_fails_for_cause .linux .uint16 .readerPreferring _ tries _
    (RwStep.tryRoRefused 1 rfl (by decide)) 1).1
    ⟨rfl, point_goto_self 1 _, reads_goto_self 1 _⟩
  exact ⟨_, _, ⟨rfl, point_goto_self 1 _, reads_goto_self 1 _⟩, refused.1, refused.2.1⟩

/-- A nested try under reader preference fails because another reader arrives
between its load and its exchange.  No writer takes part. -/
theorem nested_try_fails_beside_reader :
    Exists fun watched : RwState (Fin 2) .readerPreferring 32 × TryWatch (Fin 2) =>
      (trySystem (Fin 2) .readerPreferring .linux 32).Reachable watched ∧
        (watched.1.threads 0).reads = 1 ∧ watched.2.closed 0 = false ∧
        Exists fun after => RwStep .linux watched.1 after ∧ TryRoFails watched.1 after 0 := by
  have start : (trySystem (Fin 2) .readerPreferring .linux 32).Reachable (dormant, .blank) := .initial ⟨rfl, rfl⟩
  have calls := start.observed ⟨RwStep.callAcquireRo 0 rfl, fun _ => by decide⟩
  have loads := calls.observed ⟨RwStep.roLoad 0 rfl, fun _ => by decide⟩
  have enters := loads.observed ⟨RwStep.roEnter 0 (by decide) rfl, fun _ => by decide⟩
  have tries := enters.observed ⟨RwStep.callTryAcquireRo 0 rfl, fun _ => by decide⟩
  have looks := tries.observed ⟨RwStep.tryRoLoad 0 (by decide) rfl, fun _ => by decide⟩
  have arrives := looks.observed ⟨RwStep.callAcquireRo 1 rfl, fun _ => by decide⟩
  have reads := arrives.observed ⟨RwStep.roLoad 1 rfl, fun _ => by decide⟩
  have joins := reads.observed ⟨RwStep.roEnter 1 (by decide) rfl, fun _ => by decide⟩
  exact ⟨_, joins, by decide, by decide, _, RwStep.tryRoFail 0 _ (by decide) rfl (by decide),
    rfl, point_goto_self 0 _, reads_goto_self 0 _⟩

end Threading
end Sweater
