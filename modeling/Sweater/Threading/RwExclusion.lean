import Sweater.Threading.FutexRwMutex
import Sweater.Machine.Words
import Mathlib.Tactic.FinCases

namespace Sweater
namespace Threading

open Interleaving
open RwWord

/-!
# Mutual exclusion of the futex reader-writer lock

The announcement bits play no part in mutual exclusion.  `Exclusive` ties the
other two fields of the word, the writer bit and the reader count, to the
holds of the threads.  Only four kinds of steps change a hold; all the others
change the announcements or the program point of a thread.
-/

variable {Thread : Type} {preference : RwPreference} {width : Nat}

namespace RwThread

/-- A thread that is about to release a hold has one. -/
def Entitled (thread : RwThread preference width) : Prop :=
  match thread.point with
  | .roRelease => 0 < thread.reads
  | .rwRelease => thread.writing = true
  | _ => True

theorem entitled_roHead (thread : RwThread preference width) (observed : BitVec width) :
    (thread.goto (.roHead observed)).Entitled := by
  unfold RwPoint.roHead
  split
  · trivial
  · split <;> trivial

theorem entitled_rwHead (thread : RwThread preference width) (observed : BitVec width) :
    (thread.goto (.rwHead observed)).Entitled := by
  unfold RwPoint.rwHead
  split
  · trivial
  · split <;> trivial

variable (backend : FutexBackend) (wakeBitset : Nat)

/-- A wake changes program points only. -/
theorem unpark_cases (thread : RwThread preference width) :
    thread.unpark backend wakeBitset = thread ∨
      (thread.point = .roParked ∧ thread.unpark backend wakeBitset = thread.goto .roLoad) ∨
      (thread.point = .rwParked ∧ thread.unpark backend wakeBitset = thread.goto .rwLoad) := by
  rcases thread with ⟨reads, writing, point⟩
  cases point
  case roParked =>
    by_cases reached : backend.reaches wakeBitset readerWaitBits = true
    · exact Or.inr (Or.inl ⟨rfl, if_pos reached⟩)
    · exact Or.inl (if_neg reached)
  case rwParked =>
    by_cases reached : backend.reaches wakeBitset writerWaitBits = true
    · exact Or.inr (Or.inr ⟨rfl, if_pos reached⟩)
    · exact Or.inl (if_neg reached)
  all_goals exact Or.inl rfl

@[simp] theorem unpark_reads (thread : RwThread preference width) :
    (thread.unpark backend wakeBitset).reads = thread.reads := by
  rcases unpark_cases backend wakeBitset thread with same | ⟨_, moved⟩ | ⟨_, moved⟩
  · rw [same]
  · rw [moved]; rfl
  · rw [moved]; rfl

@[simp] theorem unpark_writing (thread : RwThread preference width) :
    (thread.unpark backend wakeBitset).writing = thread.writing := by
  rcases unpark_cases backend wakeBitset thread with same | ⟨_, moved⟩ | ⟨_, moved⟩
  · rw [same]
  · rw [moved]; rfl
  · rw [moved]; rfl

theorem Entitled.unpark {thread : RwThread preference width} (entitled : thread.Entitled) :
    (thread.unpark backend wakeBitset).Entitled := by
  rcases unpark_cases backend wakeBitset thread with same | ⟨_, moved⟩ | ⟨_, moved⟩
  · rwa [same]
  · rw [moved]; trivial
  · rw [moved]; trivial

end RwThread

namespace RwState

variable [Fintype Thread]

/-- The read holds of all threads together. -/
def readHolds (state : RwState Thread preference width) : Nat :=
  census RwThread.reads state.threads

/-- The write holds of all threads together. -/
def writeHolds (state : RwState Thread preference width) : Nat :=
  census RwThread.writes state.threads

/-- There are no more read holds than `reader_mask` can count. -/
def ReadersFit (state : RwState Thread preference width) : Prop :=
  state.readHolds ≤ (readerMask width).toNat

instance (state : RwState Thread preference width) : Decidable state.ReadersFit :=
  inferInstanceAs (Decidable (_ ≤ _))

/-- The word counts the holds, and a locked word counts no reader. -/
structure Exclusive (state : RwState Thread preference width) : Prop where
  readers : state.readHolds = (view state.word).readers
  writers : state.writeHolds = (view state.word).locked.toNat
  exclusion : (view state.word).locked = true -> (view state.word).readers = 0
  entitled : forall thread, (state.threads thread).Entitled

/-- The account of a state, from the fields of its word. -/
theorem Exclusive.of_view {after : RwState Thread preference width} {fields : RwView}
    (word : view after.word = fields) (readers : after.readHolds = fields.readers)
    (writers : after.writeHolds = fields.locked.toNat)
    (exclusion : fields.locked = true -> fields.readers = 0)
    (entitled : forall thread, (after.threads thread).Entitled) : Exclusive after := by
  subst word
  exact ⟨readers, writers, exclusion, entitled⟩

variable [DecidableEq Thread]

section Holds

variable (state : RwState Thread preference width) (thread : Thread) (word : BitVec width)
  (next : RwThread preference width)

theorem readHolds_change :
    (state.change thread word next).readHolds + (state.threads thread).reads =
      state.readHolds + next.reads :=
  census_update RwThread.reads state.threads thread next

theorem writeHolds_change :
    (state.change thread word next).writeHolds + (state.threads thread).writing.toNat =
      state.writeHolds + next.writing.toNat :=
  census_update RwThread.writes state.threads thread next

omit [DecidableEq Thread] in
theorem reads_le_readHolds : (state.threads thread).reads ≤ state.readHolds :=
  weight_le_census RwThread.reads state.threads thread

omit [DecidableEq Thread] in
theorem writing_le_writeHolds : (state.threads thread).writing.toNat ≤ state.writeHolds :=
  weight_le_census RwThread.writes state.threads thread

end Holds

section Moves

variable {state : RwState Thread preference width}

theorem Exclusive.entitled_change (account : Exclusive state) (thread : Thread)
    (word : BitVec width) {next : RwThread preference width} (own : next.Entitled) (other : Thread) :
    ((state.change thread word next).threads other).Entitled := by
  by_cases same : other = thread
  · subst same
    simpa only [change, Function.update_self] using own
  · simpa only [change, Function.update_of_ne same] using account.entitled other

/-- A thread proceeds, and the announcements may change. -/
theorem Exclusive.announce (account : Exclusive state) (thread : Thread) {word : BitVec width}
    {point : RwPoint preference width} (locked : (view word).locked = (view state.word).locked)
    (readers : (view word).readers = (view state.word).readers)
    (own : ((state.threads thread).goto point).Entitled) :
    Exclusive (state.change thread word ((state.threads thread).goto point)) := by
  have reads := readHolds_change state thread word ((state.threads thread).goto point)
  have writes := writeHolds_change state thread word ((state.threads thread).goto point)
  constructor
  · change _ = (view word).readers
    rw [readers, ← account.readers]
    exact Nat.add_right_cancel reads
  · change _ = (view word).locked.toNat
    rw [locked, ← account.writers]
    exact Nat.add_right_cancel writes
  · change (view word).locked = true -> (view word).readers = 0
    rw [locked, readers]
    exact account.exclusion
  · exact account.entitled_change thread word own

theorem Exclusive.goto (account : Exclusive state) (thread : Thread)
    {point : RwPoint preference width} (own : ((state.threads thread).goto point).Entitled) :
    Exclusive (state.goto thread point) :=
  account.announce thread rfl rfl own

/-- A reader enters an unlocked word. -/
theorem Exclusive.enter (layout : 3 ≤ width) (account : Exclusive state) (thread : Thread)
    (unlocked : (view state.word).locked = false)
    (fits : ReadersFit (state.change thread (state.word + 1)
      (state.threads thread).enter)) :
    Exclusive (state.change thread (state.word + 1)
      (state.threads thread).enter) := by
  have mask := toNat_readerMask layout
  have readers := account.readers
  have writers := account.writers
  have reads := readHolds_change state thread (state.word + 1)
    (state.threads thread).enter
  have writes := writeHolds_change state thread (state.word + 1)
    (state.threads thread).enter
  simp only [RwThread.enter_reads, RwThread.enter_writing] at reads writes
  unfold ReadersFit at fits
  refine .of_view (view_add_one layout state.word (by omega)) ?_ ?_ ?_
    (account.entitled_change thread _ trivial)
  · change _ = (view state.word).readers + 1
    omega
  · change _ = (view state.word).locked.toNat
    omega
  · intro locked
    rw [unlocked] at locked
    contradiction

/-- A reader leaves. -/
theorem Exclusive.leave (layout : 3 ≤ width) (account : Exclusive state) (thread : Thread)
    (point : RwPoint preference width) (held : 0 < (state.threads thread).reads)
    (own : ((state.threads thread).leave point).Entitled) :
    Exclusive (state.change thread (state.word - 1)
      ((state.threads thread).leave point)) := by
  have readers := account.readers
  have writers := account.writers
  have some := reads_le_readHolds state thread
  have reads := readHolds_change state thread (state.word - 1)
    ((state.threads thread).leave point)
  have writes := writeHolds_change state thread (state.word - 1)
    ((state.threads thread).leave point)
  simp only [RwThread.leave_reads, RwThread.leave_writing] at reads writes
  refine .of_view (view_sub_one layout state.word (by omega)) ?_ ?_ ?_
    (account.entitled_change thread _ own)
  · change _ = (view state.word).readers - 1
    omega
  · change _ = (view state.word).locked.toNat
    omega
  · intro locked
    have none := account.exclusion locked
    omega

/-- A writer takes a word without holders. -/
theorem Exclusive.take (layout : 3 ≤ width) (account : Exclusive state) (thread : Thread)
    (free : state.word &&& (readerMask width ||| writerLockedBit width) = 0#(width)) :
    Exclusive (state.change thread (writerLockedBit width ||| state.word &&& parkedBits width)
      (state.threads thread).take) := by
  have holders := (and_holders_eq_zero_iff layout state.word).mp free
  have readers := account.readers
  have writers := account.writers
  rw [holders.1] at readers
  rw [holders.2] at writers
  change _ = 0 at writers
  have own := writing_le_writeHolds state thread
  have reads := readHolds_change state thread
    (writerLockedBit width ||| state.word &&& parkedBits width)
    (state.threads thread).take
  have writes := writeHolds_change state thread
    (writerLockedBit width ||| state.word &&& parkedBits width)
    (state.threads thread).take
  simp only [RwThread.take_reads, RwThread.take_writing, Bool.toNat_true] at reads writes
  refine .of_view (view_writerLockedBit_or layout state.word) ?_ ?_ (fun _locked => rfl)
    (account.entitled_change thread _ trivial)
  · change _ = 0
    omega
  · change _ = 1
    omega

/-- A writer leaves, and every announcement is erased. -/
theorem Exclusive.yield (account : Exclusive state) (thread : Thread)
    (point : RwPoint preference width) (held : (state.threads thread).writing = true)
    (own : ((state.threads thread).yield point).Entitled) :
    Exclusive (state.change thread 0#(width)
      ((state.threads thread).yield point)) := by
  have one := writing_le_writeHolds state thread
  have writers := account.writers
  have locked : (view state.word).locked = true := by
    cases bit : (view state.word).locked with
    | true => rfl
    | false =>
        rw [held] at one
        rw [bit] at writers
        dsimp only [Bool.toNat_true, Bool.toNat_false] at one writers
        omega
  have readers := account.readers
  rw [account.exclusion locked] at readers
  have reads := readHolds_change state thread 0#(width)
    ((state.threads thread).yield point)
  have writes := writeHolds_change state thread 0#(width)
    ((state.threads thread).yield point)
  rw [held] at writes
  rw [locked] at writers
  simp only [RwThread.yield_reads, RwThread.yield_writing, Bool.toNat_true,
    Bool.toNat_false] at reads writes writers
  refine .of_view view_zero ?_ ?_ (fun _locked => rfl) (account.entitled_change thread _ own)
  · change _ = 0
    omega
  · change _ = 0
    omega

/-- All the threads that a wake reaches have left the futex. -/
def unparkAll (state : RwState Thread preference width) (backend : FutexBackend)
    (wakeBitset : Nat) : RwState Thread preference width :=
  { state with threads := fun thread => (state.threads thread).unpark backend wakeBitset }

omit [Fintype Thread] in
theorem wakeAll_eq (state : RwState Thread preference width) (backend : FutexBackend)
    (thread : Thread) (wakeBitset : Nat) :
    state.wakeAll backend thread wakeBitset =
      (state.unparkAll backend wakeBitset).goto thread .idle := by
  have same : (state.threads thread).goto .idle =
      ((state.threads thread).unpark backend wakeBitset).goto .idle := by
    simp only [RwThread.goto, RwThread.unpark_reads, RwThread.unpark_writing]
  rw [wakeAll, same]
  rfl

omit [DecidableEq Thread] in
theorem readHolds_unparkAll (state : RwState Thread preference width) (backend : FutexBackend)
    (wakeBitset : Nat) : (state.unparkAll backend wakeBitset).readHolds = state.readHolds :=
  census_congr (fun _thread => RwThread.unpark_reads _ _ _)

omit [DecidableEq Thread] in
theorem writeHolds_unparkAll (state : RwState Thread preference width) (backend : FutexBackend)
    (wakeBitset : Nat) : (state.unparkAll backend wakeBitset).writeHolds = state.writeHolds :=
  census_congr (fun _thread => congrArg Bool.toNat (RwThread.unpark_writing _ _ _))

omit [DecidableEq Thread] in
theorem Exclusive.unparkAll (account : Exclusive state) (backend : FutexBackend) (wakeBitset : Nat) :
    Exclusive (state.unparkAll backend wakeBitset) := by
  constructor
  · exact (readHolds_unparkAll state backend wakeBitset).trans account.readers
  · exact (writeHolds_unparkAll state backend wakeBitset).trans account.writers
  · exact account.exclusion
  · exact fun thread => (account.entitled thread).unpark backend wakeBitset

end Moves

/-- The bits that keep readers out include the writer bit in both variants. -/
theorem unlocked_of_admitted (layout : 3 ≤ width) (word : BitVec width)
    (admitted : word &&& preference.readerBlockingBits width = 0#(width)) :
    (view word).locked = false := by
  cases preference with
  | writerPreferring =>
      exact (and_writerLockedBit_eq_zero_iff layout word).mp ((and_or_eq_zero_iff _ _ _).mp admitted).1
  | readerPreferring => exact (and_writerLockedBit_eq_zero_iff layout word).mp admitted

/-- The steps of the lock, as far as holds are concerned. -/
inductive HoldMove (backend : FutexBackend) (before : RwState Thread preference width) :
    RwState Thread preference width -> Prop
  /-- the fields that count holds stay -/
  | announce (thread : Thread) (word : BitVec width) (point : RwPoint preference width) :
      (view word).locked = (view before.word).locked ->
      (view word).readers = (view before.word).readers ->
      ((before.threads thread).goto point).Entitled ->
      HoldMove backend before (before.change thread word ((before.threads thread).goto point))
  | enter (thread : Thread) :
      (view before.word).locked = false ->
      HoldMove backend before (before.change thread (before.word + 1) (before.threads thread).enter)
  | leave (thread : Thread) (point : RwPoint preference width) :
      (before.threads thread).point = .roRelease -> ((before.threads thread).leave point).Entitled ->
      HoldMove backend before
        (before.change thread (before.word - 1) ((before.threads thread).leave point))
  | take (thread : Thread) :
      before.word &&& (readerMask width ||| writerLockedBit width) = 0#(width) ->
      HoldMove backend before
        (before.change thread (writerLockedBit width ||| before.word &&& parkedBits width)
          (before.threads thread).take)
  | yield (thread : Thread) (point : RwPoint preference width) :
      (before.threads thread).point = .rwRelease -> ((before.threads thread).yield point).Entitled ->
      HoldMove backend before (before.change thread 0#(width) ((before.threads thread).yield point))
  | wake (thread : Thread) (wakeBitset : Nat) :
      HoldMove backend before (before.wakeAll backend thread wakeBitset)

omit [Fintype Thread] in
theorem HoldMove.goto {backend : FutexBackend} (before : RwState Thread preference width)
    (thread : Thread) {point : RwPoint preference width}
    (own : ((before.threads thread).goto point).Entitled) :
    HoldMove backend before (before.goto thread point) :=
  .announce thread before.word point rfl rfl own

omit [Fintype Thread] in
theorem HoldMove.of_step (layout : 3 ≤ width) {backend : FutexBackend}
    {before after : RwState Thread preference width} (move : RwStep backend before after) :
    HoldMove backend before after := by
  cases move with
  | callAcquireRo thread place => exact .goto before thread trivial
  | callReleaseRo thread place held => exact .goto before thread held
  | callAcquireRw thread place => exact .goto before thread trivial
  | callReleaseRw thread place held => exact .goto before thread held
  | callTryAcquireRo thread place => exact .goto before thread trivial
  | callTryAcquireRw thread place => exact .goto before thread trivial
  | roLoad thread place => exact .goto before thread (RwThread.entitled_roHead _ _)
  | roEnter thread admitted place => exact .enter thread (unlocked_of_admitted layout _ admitted)
  | roEnterFail thread observed admitted place => exact .goto before thread trivial
  | roAnnounce thread closed place =>
      have fields := view_or_readerParkedBit layout before.word
      exact .announce thread _ _ (by rw [fields]) (by rw [fields]) trivial
  | roAnnounceFail thread observed closed place => exact .goto before thread trivial
  | roPark thread announced place => exact .goto before thread trivial
  | roParkRefused thread observed announced place => exact .goto before thread trivial
  | roSpurious thread place => exact .goto before thread trivial
  | roReleaseLast thread place last waiting => exact .leave thread .roWake place trivial
  | roReleaseQuiet thread place quiet => exact .leave thread .idle place trivial
  | roWake thread place => exact .wake thread writerWaitBits
  | rwLoad thread place => exact .goto before thread (RwThread.entitled_rwHead _ _)
  | rwTake thread free place => exact .take thread free
  | rwTakeFail thread observed free place =>
      exact .goto before thread (RwThread.entitled_rwHead _ _)
  | rwAnnounce thread busy place =>
      have fields := view_or_writerWaitingBit layout before.word
      exact .announce thread _ _ (by rw [fields]) (by rw [fields]) (RwThread.entitled_rwHead _ _)
  | rwAnnounceFail thread observed busy place =>
      exact .goto before thread (RwThread.entitled_rwHead _ _)
  | rwPark thread busy announced place => exact .goto before thread trivial
  | rwParkRefused thread observed busy announced place => exact .goto before thread trivial
  | rwSpurious thread place => exact .goto before thread trivial
  | rwReleaseWake thread place announced => exact .yield thread .rwWake place trivial
  | rwReleaseQuiet thread place quiet => exact .yield thread .idle place trivial
  | rwWake thread place => exact .wake thread eitherWaitBits
  | tryRoLoad thread admitted place => exact .goto before thread trivial
  | tryRoRefused thread place => exact .goto before thread trivial
  | tryRoEnter thread admitted place => exact .enter thread (unlocked_of_admitted layout _ admitted)
  | tryRoFail thread observed admitted place => exact .goto before thread trivial
  | tryRwLoad thread free place => exact .goto before thread trivial
  | tryRwRefused thread place => exact .goto before thread trivial
  | tryRwTake thread free place => exact .take thread free
  | tryRwFail thread observed free place => exact .goto before thread trivial

omit [DecidableEq Thread] in
theorem Exclusive.reads_pos {state : RwState Thread preference width} (account : Exclusive state)
    {thread : Thread} (place : (state.threads thread).point = .roRelease) :
    0 < (state.threads thread).reads := by
  have held := account.entitled thread
  rwa [RwThread.Entitled, place] at held

omit [DecidableEq Thread] in
theorem Exclusive.writing_eq {state : RwState Thread preference width} (account : Exclusive state)
    {thread : Thread} (place : (state.threads thread).point = .rwRelease) :
    (state.threads thread).writing = true := by
  have held := account.entitled thread
  rwa [RwThread.Entitled, place] at held

theorem Exclusive.step (layout : 3 ≤ width) {backend : FutexBackend}
    {before after : RwState Thread preference width} (account : Exclusive before)
    (move : RwStep backend before after) (fits : ReadersFit after) : Exclusive after := by
  cases HoldMove.of_step layout move with
  | announce thread word point locked readers own => exact account.announce thread locked readers own
  | enter thread unlocked => exact account.enter layout thread unlocked fits
  | leave thread point place own =>
      exact account.leave layout thread point (account.reads_pos place) own
  | take thread free => exact account.take layout thread free
  | yield thread point place own => exact account.yield thread point (account.writing_eq place) own
  | wake thread wakeBitset =>
      rw [wakeAll_eq]
      exact (account.unparkAll backend wakeBitset).goto thread trivial

/-! ## The abstract lock -/

/-- What a reader-writer lock is for, in terms of the numbers of read holds and
of write holds: shared holds exclude the exclusive one and conversely. -/
inductive HoldStep : Nat -> Nat -> Nat -> Nat -> Prop
  | share (reads : Nat) : HoldStep reads 0 (reads + 1) 0
  | unshare (reads : Nat) : HoldStep (reads + 1) 0 reads 0
  | seize : HoldStep 0 0 0 1
  | yield : HoldStep 0 1 0 0
  | invisible (reads writes : Nat) : HoldStep reads writes reads writes

omit [DecidableEq Thread] in
theorem Exclusive.holds_cases {state : RwState Thread preference width} (account : Exclusive state) :
    state.writeHolds = 0 ∨ (state.writeHolds = 1 ∧ state.readHolds = 0) := by
  have readers := account.readers
  have writers := account.writers
  cases locked : (view state.word).locked with
  | false =>
      left
      rw [writers, locked]
      rfl
  | true =>
      right
      rw [account.exclusion locked] at readers
      rw [locked] at writers
      exact ⟨writers, readers⟩

/-- The futex lock refines the abstract lock. -/
theorem Exclusive.refines (layout : 3 ≤ width) {backend : FutexBackend}
    {before after : RwState Thread preference width} (account : Exclusive before)
    (move : RwStep backend before after) (fits : ReadersFit after) :
    HoldStep before.readHolds before.writeHolds after.readHolds after.writeHolds := by
  have later := (account.step layout move fits).holds_cases
  have earlier := account.holds_cases
  cases HoldMove.of_step layout move with
  | announce thread word point locked readers own =>
      have reads := readHolds_change before thread word ((before.threads thread).goto point)
      have writes := writeHolds_change before thread word ((before.threads thread).goto point)
      rw [Nat.add_right_cancel reads, Nat.add_right_cancel writes]
      exact .invisible _ _
  | enter thread unlocked =>
      have reads := readHolds_change before thread (before.word + 1) (before.threads thread).enter
      have writes := writeHolds_change before thread (before.word + 1) (before.threads thread).enter
      simp only [RwThread.enter_reads, RwThread.enter_writing] at reads writes
      have more : (before.change thread (before.word + 1) (before.threads thread).enter).readHolds =
          before.readHolds + 1 := by omega
      rcases later with free | ⟨_, none⟩
      · rw [more, free, ← Nat.add_right_cancel writes, free]
        exact .share _
      · omega
  | leave thread point place own =>
      have held := account.reads_pos place
      have reads := readHolds_change before thread (before.word - 1) ((before.threads thread).leave point)
      have writes := writeHolds_change before thread (before.word - 1) ((before.threads thread).leave point)
      simp only [RwThread.leave_reads, RwThread.leave_writing] at reads writes
      have less : before.readHolds =
          (before.change thread (before.word - 1) ((before.threads thread).leave point)).readHolds + 1 := by
        omega
      rcases earlier with free | ⟨_, none⟩
      · rw [less, Nat.add_right_cancel writes, free]
        exact .unshare _
      · omega
  | take thread free =>
      have holders := (and_holders_eq_zero_iff layout before.word).mp free
      have readers := account.readers
      have writers := account.writers
      rw [holders.1] at readers
      rw [holders.2] at writers
      have reads := readHolds_change before thread
        (writerLockedBit width ||| before.word &&& parkedBits width) (before.threads thread).take
      have writes := writeHolds_change before thread
        (writerLockedBit width ||| before.word &&& parkedBits width) (before.threads thread).take
      have own := writing_le_writeHolds before thread
      simp only [RwThread.take_reads, RwThread.take_writing, Bool.toNat_true, Bool.toNat_false]
        at reads writes writers
      rcases later with none | ⟨one, nobody⟩
      · omega
      · rw [one, nobody, readers, writers]
        exact .seize
  | yield thread point place own =>
      have held := account.writing_eq place
      have some := writing_le_writeHolds before thread
      have reads := readHolds_change before thread 0#(width) ((before.threads thread).yield point)
      have writes := writeHolds_change before thread 0#(width) ((before.threads thread).yield point)
      rw [held] at some writes
      simp only [RwThread.yield_reads, RwThread.yield_writing, Bool.toNat_true, Bool.toNat_false]
        at reads writes some
      rcases earlier with none | ⟨one, nobody⟩
      · omega
      · have gone : (before.change thread 0#(width) ((before.threads thread).yield point)).writeHolds = 0 := by
          omega
        rw [Nat.add_right_cancel reads, gone, one, nobody]
        exact .yield
  | wake thread wakeBitset =>
      rw [wakeAll_eq]
      have reads := readHolds_change (before.unparkAll backend wakeBitset) thread before.word
        (((before.unparkAll backend wakeBitset).threads thread).goto .idle)
      have writes := writeHolds_change (before.unparkAll backend wakeBitset) thread before.word
        (((before.unparkAll backend wakeBitset).threads thread).goto .idle)
      have sameReads := readHolds_unparkAll before backend wakeBitset
      have sameWrites := writeHolds_unparkAll before backend wakeBitset
      change HoldStep _ _ (change _ thread before.word _).readHolds (change _ thread before.word _).writeHolds
      rw [Nat.add_right_cancel reads, Nat.add_right_cancel writes, sameReads, sameWrites]
      exact .invisible _ _

end RwState

open RwState

/-! ## Whole runs -/

theorem FutexBackend.three_le_valueBits (backend : FutexBackend) (concurrency : HardwareConcurrency) :
    3 ≤ backend.valueBits concurrency := by
  cases backend <;> cases concurrency <;> decide

variable [Fintype Thread] [DecidableEq Thread]

theorem exclusive_of_reachable (layout : 3 ≤ width) (backend : FutexBackend)
    {state : RwState Thread preference width}
    (reachable : ((rwSystem Thread preference backend width).within ReadersFit).Reachable state) :
    Exclusive state := by
  refine reachable.invariant ?_ ?_
  · rintro _ ⟨rfl, _⟩
    refine .of_view view_zero ?_ ?_ nofun (fun _thread => trivial)
    · exact (census_eq_zero_iff _ _).mpr (fun _thread => rfl)
    · exact (census_eq_zero_iff _ _).mpr (fun _thread => rfl)
  · intro before after earlier account move
    exact account.step layout move.1 move.2

/-- Mutual exclusion, for both variants and every backend: at most one thread
writes, nobody reads meanwhile, and the word says who holds the lock. -/
theorem rw_mutex_excludes (backend : FutexBackend) (concurrency : HardwareConcurrency)
    (preference : RwPreference)
    (state : RwState Thread preference (backend.valueBits concurrency))
    (reachable : ((rwSystem Thread preference backend
      (backend.valueBits concurrency)).within ReadersFit).Reachable state) :
    (forall first second, (state.threads first).writing = true ->
      (state.threads second).writing = true -> first = second) ∧
    (forall writer reader, (state.threads writer).writing = true ->
      (state.threads reader).reads = 0) ∧
    (state.word &&& writerLockedBit _ ≠ 0 ↔ Exists fun thread => (state.threads thread).writing = true) ∧
    (state.word &&& readerMask _).toNat = ∑ thread, (state.threads thread).reads := by
  have layout := backend.three_le_valueBits concurrency
  have account := exclusive_of_reachable layout backend reachable
  have writers := account.writers
  refine ⟨?_, ?_, ?_, ?_⟩
  · intro first second firstWrites secondWrites
    by_contra different
    have both := weight_add_weight_le_census RwThread.writes state.threads different
    rw [RwThread.writes, RwThread.writes, firstWrites, secondWrites] at both
    change 2 ≤ state.writeHolds at both
    rcases account.holds_cases with none | ⟨one, _⟩ <;> omega
  · intro writer reader writes
    have one := writing_le_writeHolds state writer
    rw [writes] at one
    change 1 ≤ _ at one
    have own := reads_le_readHolds state reader
    rcases account.holds_cases with none | ⟨_, nobody⟩ <;> omega
  · have present := census_pos_iff RwThread.writes state.threads
    change 0 < state.writeHolds ↔ _ at present
    rw [writers] at present
    constructor
    · intro set
      have locked : (view state.word).locked = true := by
        rw [Ne, BitVec.ofNat_eq_ofNat, and_writerLockedBit_eq_zero_iff layout] at set
        exact Bool.eq_true_of_not_eq_false set
      rw [locked] at present
      rcases present.mp Nat.one_pos with ⟨thread, positive⟩
      exact ⟨thread, Bool.toNat_eq_one.mp (by
        have bound := Bool.toNat_le (state.threads thread).writing
        change 0 < (state.threads thread).writing.toNat at positive
        omega)⟩
    · rintro ⟨thread, writes⟩ clear
      rw [BitVec.ofNat_eq_ofNat, and_writerLockedBit_eq_zero_iff layout] at clear
      rw [clear] at present
      have positive : 0 < (state.threads thread).writes := by
        rw [RwThread.writes, writes]
        exact Nat.one_pos
      exact absurd (present.mpr ⟨thread, positive⟩) (Nat.lt_irrefl 0)
  · rw [toNat_and_readerMask layout, ← account.readers]
    rfl

/-- One thread holds the write side and the other one is about to read. -/
def heldByWriter : RwState (Fin 2) .writerPreferring 32 where
  word := writerLockedBit 32
  threads := fun thread => if thread = 0 then ⟨0, true, .idle⟩ else ⟨0, false, .roLoad⟩

theorem heldByWriter_reachable :
    ((rwSystem (Fin 2) .writerPreferring .linux 32).within ReadersFit).Reachable heldByWriter := by
  have start : ((rwSystem (Fin 2) .writerPreferring .linux 32).within ReadersFit).Reachable dormant :=
    .initial ⟨rfl, by decide⟩
  have calls := System.Reachable.step start ⟨RwStep.callAcquireRw 0 rfl, by decide⟩
  have loads := System.Reachable.step calls ⟨RwStep.rwLoad 0 rfl, by decide⟩
  have takes := System.Reachable.step loads ⟨RwStep.rwTake 0 (by decide) rfl, by decide⟩
  have reads := System.Reachable.step takes ⟨RwStep.callAcquireRo 1 rfl, by decide⟩
  convert reads using 1
  simp only [heldByWriter, RwState.goto, RwState.change, RwState.mk.injEq]
  refine ⟨by decide, ?_⟩
  funext thread
  fin_cases thread <;> decide

theorem rw_mutex_excludes_heldByWriter :
    (forall first second, (heldByWriter.threads first).writing = true ->
      (heldByWriter.threads second).writing = true -> first = second) ∧
    (forall writer reader, (heldByWriter.threads writer).writing = true ->
      (heldByWriter.threads reader).reads = 0) ∧
    (heldByWriter.word &&& writerLockedBit _ ≠ 0 ↔
      Exists fun thread => (heldByWriter.threads thread).writing = true) ∧
    (heldByWriter.word &&& readerMask _).toNat = ∑ thread, (heldByWriter.threads thread).reads :=
  rw_mutex_excludes .linux .uint16 .writerPreferring heldByWriter heldByWriter_reachable

end Threading
end Sweater
