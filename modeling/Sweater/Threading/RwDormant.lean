import Sweater.Threading.RwWakeups

namespace Sweater
namespace Threading

open Interleaving
open RwWord
open RwState

/-!
# The futex reader-writer lock returns to dormant

The announcement bits are set by exchanges that may fail, are carried along by
whoever takes the lock, and are erased in one place only.  An observer keeps
note of the call of `acquire_rw` that has set the waiting bit now standing in
the word.  Such a call ends only by taking the lock, and the lock is given back
with an empty word; without a writer holding it, a waiting bit therefore has a
call behind it that is still running.
-/

variable {Thread : Type} {preference : RwPreference} {width : Nat}

/-- `is_locked` -/
def RwState.isLocked (state : RwState Thread preference width) : Bool :=
  decide (state.word ≠ 0#(width))

/-- The waiting bit is set in this step, and this thread is the one that moves. -/
def announces (before after : RwState Thread preference width) (thread : Thread) : Bool :=
  !(view before.word).waiting && (view after.word).waiting &&
    decide ((before.threads thread).point ≠ (after.threads thread).point)

/-- The thread is still in the call of `acquire_rw` that has set the waiting
bit, as noted after a step. -/
def noteAnnouncer (before after : RwState Thread preference width) (announcer : Thread -> Bool)
    (thread : Thread) : Bool :=
  (view after.word).waiting && (after.threads thread).point.acquiresRw &&
    (announces before after thread || announcer thread)

/-- The lock under observation, as long as the code's assertion on the reader
count holds. -/
def announcedSystem (Thread : Type) [DecidableEq Thread] (preference : RwPreference)
    (backend : FutexBackend) (width : Nat) :
    System (RwState Thread preference width × (Thread -> Bool)) :=
  ((rwSystem Thread preference backend width).stepsWhere CountAsserted).recording
    noteAnnouncer (fun _ => false)

/-! ## Who stands behind a waiting bit after one step -/

/-- A waiting bit that is found after a step has been set in it by a thread
inside `acquire_rw`, or was there before and no call of `acquire_rw` has ended
since, or else the lock is held. -/
def Attributed (before after : RwState Thread preference width) : Prop :=
  (view after.word).waiting = true -> (view after.word).locked = true ∨
    (Exists fun thread => announces before after thread = true ∧
      (after.threads thread).point.acquiresRw = true) ∨
    (view before.word).waiting = true ∧ (view before.word).locked = false ∧
      forall thread, (before.threads thread).point.acquiresRw = true ->
        (after.threads thread).point.acquiresRw = true

section Steps

variable [DecidableEq Thread] {before : RwState Thread preference width}

/-- One thread moves and leaves both writer bits alone. -/
theorem Attributed.change (thread : Thread) (word : BitVec width) (next : RwThread preference width)
    (waiting : (view word).waiting = (view before.word).waiting)
    (locked : (view word).locked = (view before.word).locked)
    (inside : (before.threads thread).point.acquiresRw = true -> next.point.acquiresRw = true) :
    Attributed before (before.change thread word next) := by
  intro set
  change (view word).waiting = true at set
  cases held : (view word).locked with
  | true => exact Or.inl held
  | false =>
      refine Or.inr (Or.inr ⟨waiting ▸ set, locked ▸ held, ?_⟩)
      intro other acquires
      by_cases same : other = thread
      · subst same
        rw [threads_change_self]
        exact inside acquires
      · rw [threads_change_of_ne _ _ _ _ same]
        exact acquires

/-- One thread moves and leaves the word alone. -/
theorem Attributed.goto (thread : Thread) {here : RwPoint preference width}
    (place : (before.threads thread).point = here) (next : RwPoint preference width)
    (inside : here.acquiresRw = true -> next.acquiresRw = true) :
    Attributed before (before.goto thread next) :=
  .change thread before.word ((before.threads thread).goto next) rfl rfl
    (fun acquires => inside (place ▸ acquires))

omit [DecidableEq Thread] in
/-- A step to a word that is free of waiting writers. -/
theorem Attributed.of_clear {after : RwState Thread preference width}
    (clear : (view after.word).waiting = false) : Attributed before after := by
  intro set
  rw [clear] at set
  contradiction

omit [DecidableEq Thread] in
theorem Attributed.of_locked {after : RwState Thread preference width}
    (locked : (view after.word).locked = true) : Attributed before after :=
  fun _set => Or.inl locked

/-- A broadcast ends no call of `acquire_rw`. -/
theorem Attributed.wakeAll (backend : FutexBackend) (thread : Thread) (wakeBitset : Nat)
    (outside : (before.threads thread).point.acquiresRw = false) :
    Attributed before (before.wakeAll backend thread wakeBitset) := by
  intro set
  change (view before.word).waiting = true at set
  cases held : (view before.word).locked with
  | true => exact Or.inl held
  | false =>
      refine Or.inr (Or.inr ⟨set, rfl, ?_⟩)
      intro other acquires
      have different : other ≠ thread := by
        intro same
        rw [same, outside] at acquires
        contradiction
      simp only [RwState.wakeAll, Function.update_of_ne different, RwThread.acquiresRw_unpark]
      exact acquires

/-- The one exchange that sets the bit. -/
theorem Attributed.announce (layout : 3 ≤ width) (thread : Thread)
    (busy : before.word &&& (readerMask width ||| writerLockedBit width) ≠ 0#(width))
    (place : (before.threads thread).point = .rwAnnounce before.word busy) :
    Attributed before (before.change thread (before.word ||| writerWaitingBit width)
      ((before.threads thread).goto (.rwHead (before.word ||| writerWaitingBit width)))) := by
  have fields := view_or_writerWaitingBit layout before.word
  cases waiting : (view before.word).waiting with
  | true =>
      apply Attributed.change
      · rw [fields, waiting]
      · rw [fields]
      · exact fun _acquires => RwPoint.acquiresRw_rwHead _
  | false =>
      intro set
      refine Or.inr (Or.inl ⟨thread, ?_, ?_⟩)
      · have moved : (.rwAnnounce before.word busy : RwPoint preference width) ≠
            .rwHead (before.word ||| writerWaitingBit width) := by
          intro same
          unfold RwPoint.rwHead at same
          split at same
          · cases same
          · split at same
            · rename_i clear
              rw [and_writerWaitingBit_eq_zero_iff layout, fields] at clear
              cases clear
            · cases same
        rw [announces, waiting, set, threads_change_self, place]
        exact decide_eq_true moved
      · rw [threads_change_self]
        exact RwPoint.acquiresRw_rwHead _

/-- One case for each atomic operation. -/
theorem Attributed.of_step [Fintype Thread] (layout : 3 ≤ width) {backend : FutexBackend}
    {after : RwState Thread preference width} (holds : Exclusive before)
    (move : RwStep backend before after) (later : ReadersFit after) : Attributed before after := by
  cases move with
  | callAcquireRo thread place => exact .goto thread place _ nofun
  | callReleaseRo thread place => exact .goto thread place _ nofun
  | callAcquireRw thread place => exact .goto thread place _ nofun
  | callReleaseRw thread place => exact .goto thread place _ nofun
  | callTryAcquireRo thread place => exact .goto thread place _ nofun
  | callTryAcquireRw thread place => exact .goto thread place _ nofun
  | roLoad thread place => exact .goto thread place _ nofun
  | roEnter thread admitted place =>
      have fields := view_add_one layout before.word (holds.room layout thread _ later)
      exact .change thread _ _ (by rw [fields]) (by rw [fields]) (by rw [place]; exact nofun)
  | roEnterFail thread observed admitted place => exact .goto thread place _ nofun
  | roAnnounce thread closed place =>
      have fields := view_or_readerParkedBit layout before.word
      exact .change thread _ _ (by rw [fields]) (by rw [fields]) (by rw [place]; exact nofun)
  | roAnnounceFail thread observed closed place => exact .goto thread place _ nofun
  | roPark thread announced place => exact .goto thread place _ nofun
  | roParkRefused thread observed announced place => exact .goto thread place _ nofun
  | roSpurious thread place => exact .goto thread place _ nofun
  | roReleaseLast thread place last waiting =>
      have fields := view_sub_one layout before.word (holds.readers_pos place)
      exact .change thread _ _ (by rw [fields]) (by rw [fields]) (by rw [place]; exact nofun)
  | roReleaseQuiet thread place quiet =>
      have fields := view_sub_one layout before.word (holds.readers_pos place)
      exact .change thread _ _ (by rw [fields]) (by rw [fields]) (by rw [place]; exact nofun)
  | roWake thread place => exact .wakeAll backend thread writerWaitBits (by rw [place]; rfl)
  | rwLoad thread place => exact .goto thread place _ (fun _inside => RwPoint.acquiresRw_rwHead _)
  | rwTake thread free place =>
      exact .of_locked (congrArg RwView.locked (view_writerLockedBit_or layout before.word))
  | rwTakeFail thread observed free place =>
      exact .goto thread place _ (fun _inside => RwPoint.acquiresRw_rwHead _)
  | rwAnnounce thread busy place => exact .announce layout thread busy place
  | rwAnnounceFail thread observed busy place =>
      exact .goto thread place _ (fun _inside => RwPoint.acquiresRw_rwHead _)
  | rwPark thread busy announced place => exact .goto thread place _ (fun _inside => rfl)
  | rwParkRefused thread observed busy announced place =>
      exact .goto thread place _ (fun _inside => rfl)
  | rwSpurious thread place => exact .goto thread place _ (fun _inside => rfl)
  | rwReleaseWake thread place announced => exact .of_clear (congrArg RwView.waiting view_zero)
  | rwReleaseQuiet thread place quiet => exact .of_clear (congrArg RwView.waiting view_zero)
  | rwWake thread place => exact .wakeAll backend thread eitherWaitBits (by rw [place]; rfl)
  | tryRoLoad thread admitted place => exact .goto thread place _ nofun
  | tryRoRefused thread place => exact .goto thread place _ nofun
  | tryRoEnter thread admitted place =>
      have fields := view_add_one layout before.word (holds.room layout thread _ later)
      exact .change thread _ _ (by rw [fields]) (by rw [fields]) (by rw [place]; exact nofun)
  | tryRoFail thread observed admitted place => exact .goto thread place _ nofun
  | tryRwLoad thread free place => exact .goto thread place _ nofun
  | tryRwRefused thread place => exact .goto thread place _ nofun
  | tryRwTake thread free place =>
      exact .of_locked (congrArg RwView.locked (view_writerLockedBit_or layout before.word))
  | tryRwFail thread observed free place => exact .goto thread place _ nofun

end Steps

/-! ## Whole runs -/

/-- A waiting bit without a holder has a running call behind it. -/
def Accounted (watched : RwState Thread preference width × (Thread -> Bool)) : Prop :=
  (view watched.1.word).waiting = true -> (view watched.1.word).locked = true ∨
    Exists fun thread => watched.2 thread = true

/-- The note of a thread says where it is. -/
theorem acquiresRw_of_noted {before after : RwState Thread preference width}
    {announcer : Thread -> Bool} {thread : Thread}
    (noted : noteAnnouncer before after announcer thread = true) :
    (after.threads thread).point.acquiresRw = true :=
  (Bool.and_eq_true_iff.mp (Bool.and_eq_true_iff.mp noted).1).2

theorem Accounted.of_attributed {before after : RwState Thread preference width}
    {announcer : Thread -> Bool} (account : Accounted (before, announcer))
    (inside : forall thread, announcer thread = true -> (before.threads thread).point.acquiresRw = true)
    (attributed : Attributed before after) :
    Accounted (after, noteAnnouncer before after announcer) := by
  intro set
  rcases attributed set with locked | ⟨thread, sets, acquires⟩ | ⟨earlier, unlocked, kept⟩
  · exact Or.inl locked
  · right
    refine ⟨thread, ?_⟩
    change noteAnnouncer before after announcer thread = true
    rw [noteAnnouncer, set, acquires, sets]
    rfl
  · right
    rcases account earlier with locked | ⟨thread, noted⟩
    · rw [unlocked] at locked
      contradiction
    · change announcer thread = true at noted
      refine ⟨thread, ?_⟩
      change noteAnnouncer before after announcer thread = true
      rw [noteAnnouncer, set, kept thread (inside thread noted), noted, Bool.or_true]
      rfl

variable [Fintype Thread] [DecidableEq Thread]

/-- Every noted thread is inside `acquire_rw`, and every waiting bit is accounted for. -/
theorem accounted_of_reachable (layout : 3 ≤ width) {backend : FutexBackend}
    {watched : RwState Thread preference width × (Thread -> Bool)}
    (reachable : (announcedSystem Thread preference backend width).Reachable watched) :
    (forall thread, watched.2 thread = true -> (watched.1.threads thread).point.acquiresRw = true) ∧
      Accounted watched := by
  refine @System.Reachable.invariant _ _ (fun watched =>
    (forall thread, watched.2 thread = true -> (watched.1.threads thread).point.acquiresRw = true) ∧
      Accounted watched) ?_ ?_ _ reachable
  · rintro ⟨state, announcer⟩ ⟨first, blank⟩
    change state = dormant at first
    change announcer = _ at blank
    subst first blank
    refine ⟨nofun, ?_⟩
    intro set
    change (view (0#(width))).waiting = true at set
    rw [view_zero] at set
    cases set
  · rintro ⟨before, announcer⟩ ⟨after, later⟩ earlier ⟨inside, account⟩ ⟨move, noted⟩
    change later = noteAnnouncer before after announcer at noted
    subst noted
    have within := reachable_within_of_asserted layout backend earlier.of_recording
    have holds := exclusive_of_reachable layout backend within
    have fits := Exclusive.fits layout holds within.inside move.1 move.2
    exact ⟨fun _thread noted => acquiresRw_of_noted noted,
      account.of_attributed inside (Attributed.of_step layout holds move.1 fits)⟩

/-- The futex lock returns to dormant, for both variants and every backend: if
nobody holds it and nobody is inside an operation, then the word is zero.  As
long as no writer holds it, a waiting bit has been set by a call of
`acquire_rw` that is still running, and a parked bit comes with a waiting bit. -/
theorem rw_mutex_dormant (backend : FutexBackend) (concurrency : HardwareConcurrency)
    (preference : RwPreference)
    (watched : RwState Thread preference (backend.valueBits concurrency) × (Thread -> Bool))
    (reachable : (announcedSystem Thread preference backend
      (backend.valueBits concurrency)).Reachable watched) :
    ((forall thread, (watched.1.threads thread).reads = 0 ∧
        (watched.1.threads thread).writing = false ∧ (watched.1.threads thread).point = .idle) ->
      watched.1.word = 0#(_) ∧ watched.1.isLocked = false) ∧
    ((forall thread, (watched.1.threads thread).writing = false) ->
      (watched.1.word &&& writerWaitingBit _ ≠ 0#(_) -> Exists fun thread =>
        watched.2 thread = true ∧ (watched.1.threads thread).point.acquiresRw = true) ∧
      (watched.1.word &&& readerParkedBit _ ≠ 0#(_) ->
        watched.1.word &&& writerWaitingBit _ ≠ 0#(_))) := by
  have layout := backend.three_le_valueBits concurrency
  have within := reachable_within_of_asserted layout backend reachable.of_recording
  have holds := exclusive_of_reachable layout backend within
  have wakes := wakeAccount_of_reachable_rw layout backend within
  rcases accounted_of_reachable layout reachable with ⟨inside, account⟩
  constructor
  · intro resting
    have unlocked := holds.unlocked (fun thread => (resting thread).2.1)
    have unread := holds.unread (fun thread => (resting thread).1)
    have noWaiting : (view watched.1.word).waiting = false := by
      by_contra set
      rcases wakes.waiting (Bool.eq_true_of_not_eq_false set) with locked | ⟨thread, acquires⟩
      · rw [unlocked] at locked
        contradiction
      · rw [(resting thread).2.2] at acquires
        cases acquires
    have noParked : (view watched.1.word).parked = false := by
      by_contra set
      rcases wakes.parked (Bool.eq_true_of_not_eq_false set) with waiting | locked
      · rw [noWaiting] at waiting
        contradiction
      · rw [unlocked] at locked
        contradiction
    have zero : watched.1.word = 0#(_) := by
      apply eq_zero_of_view_eq layout
      exact RwView.mk.injEq .. ▸ ⟨unlocked, noWaiting, noParked, unread⟩
    refine ⟨zero, ?_⟩
    rw [isLocked, zero]
    exact decide_eq_false (fun different => different rfl)
  · intro nobody
    have unlocked := holds.unlocked nobody
    constructor
    · intro announced
      rcases account (waiting_of_announced layout _ announced) with locked | ⟨thread, noted⟩
      · rw [unlocked] at locked
        contradiction
      · exact ⟨thread, noted, inside thread noted⟩
    · intro announced
      rcases wakes.parked (parked_of_announced layout _ announced) with waiting | locked
      · rw [Ne, and_writerWaitingBit_eq_zero_iff layout, waiting]
        exact Bool.true_eq_false_eq_False
      · rw [unlocked] at locked
        contradiction

/-- One thread reads, and the other one has announced that it wants to write. -/
def announcedBehindReader : RwState (Fin 2) .readerPreferring 16 × (Fin 2 -> Bool) where
  fst :=
    { word := 1 ||| writerWaitingBit 16
      threads := fun thread => if thread.val = 0 then ⟨1, false, .idle⟩
        else ⟨0, false, .rwPark (1 ||| writerWaitingBit 16) (by decide) (by decide)⟩ }
  snd := fun thread => decide (thread.val = 1)

theorem announcedBehindReader_reachable :
    (announcedSystem (Fin 2) .readerPreferring .windows 16).Reachable announcedBehindReader := by
  have start : (announcedSystem (Fin 2) .readerPreferring .windows 16).Reachable
      (dormant, fun _ => false) := .initial ⟨rfl, rfl⟩
  have calls := start.observed ⟨RwStep.callAcquireRo 0 rfl, fun _ => by decide⟩
  have loads := calls.observed ⟨RwStep.roLoad 0 rfl, fun _ => by decide⟩
  have enters := loads.observed ⟨RwStep.roEnter 0 (by decide) rfl, fun _ => by decide⟩
  have callsToo := enters.observed ⟨RwStep.callAcquireRw 1 rfl, fun _ => by decide⟩
  have loadsToo := callsToo.observed ⟨RwStep.rwLoad 1 rfl, fun _ => by decide⟩
  have announces : (announcedSystem (Fin 2) .readerPreferring .windows 16).Reachable _ :=
    loadsToo.observed ⟨RwStep.rwAnnounce 1 (by decide) rfl, fun _ => by decide⟩
  convert announces using 1
  refine Prod.ext ?_ ?_
  · simp only [announcedBehindReader, RwState.goto, RwState.change, RwState.mk.injEq]
    refine ⟨by decide, ?_⟩
    funext thread
    fin_cases thread <;> decide
  · funext thread
    fin_cases thread <;> decide

theorem rw_mutex_dormant_announcedBehindReader :
    (announcedBehindReader.1.word &&& writerWaitingBit _ ≠ 0#(_) -> Exists fun thread =>
      announcedBehindReader.2 thread = true ∧
        (announcedBehindReader.1.threads thread).point.acquiresRw = true) ∧
    (announcedBehindReader.1.word &&& readerParkedBit _ ≠ 0#(_) ->
      announcedBehindReader.1.word &&& writerWaitingBit _ ≠ 0#(_)) :=
  (rw_mutex_dormant .windows .uint16 .readerPreferring announcedBehindReader
    announcedBehindReader_reachable).2 (by decide)

end Threading
end Sweater
