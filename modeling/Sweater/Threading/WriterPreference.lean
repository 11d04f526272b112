import Sweater.Threading.RwWakeups

namespace Sweater
namespace Threading

open Interleaving
open RwWord
open RwState

/-!
# Writer preference of the futex reader-writer lock

A queued writer is one that has found or set `writer_waiting_bit` and has gone
on to park; it stays queued until it has taken the lock, however often it is
woken in between.  Whether a thread is queued cannot be read off its program
point, since a woken writer starts from a load like a writer that has just
called.  An observer therefore keeps note of the queued writers and of the
readers that have begun behind them.

One bit stands for all queued writers, and `release_rw` erases it for all of
them.  The lock keeps its preference for as long as nobody releases the write
side over the head of a queued writer.
-/

variable {Thread : Type} {width : Nat}

/-- Past the announcement of `acquire_rw`: before the futex wait, or in it. -/
def RwPoint.queues {preference : RwPreference} : RwPoint preference width -> Bool
  | rwPark _ _ _ | rwParked => true
  | _ => false

def RwPoint.isIdle {preference : RwPreference} : RwPoint preference width -> Bool
  | idle => true
  | _ => false

/-- What an observer of the lock writes down. -/
structure RwWatch (Thread : Type) where
  /-- the writers that have announced themselves and have not acquired since -/
  queued : Thread -> Bool
  /-- the reader began its acquisition behind the queued writer -/
  behind : Thread -> Thread -> Bool

namespace RwWatch

/-- Nobody is queued. -/
def blank : RwWatch Thread := ⟨fun _ => false, fun _ _ => false⟩

variable {preference : RwPreference}

/-- The queue after a step. -/
def queuedAfter (after : RwState Thread preference width) (watch : RwWatch Thread)
    (writer : Thread) : Bool :=
  (after.threads writer).point.queues || watch.queued writer && !(after.threads writer).point.isIdle

/-- The notes after a step.  A call begins when its thread leaves `idle`. -/
def note (before after : RwState Thread preference width) (watch : RwWatch Thread) : RwWatch Thread where
  queued := watch.queuedAfter after
  behind := fun reader writer =>
    watch.queued writer && watch.queuedAfter after writer && !(after.threads reader).point.isIdle &&
      ((before.threads reader).point.isIdle || watch.behind reader writer)

end RwWatch

/-- A reader is counted in by this step. -/
def Admitted {preference : RwPreference} (before after : RwState Thread preference width)
    (reader : Thread) : Prop :=
  (before.threads reader).reads < (after.threads reader).reads

/-- The write side is given up by this step. -/
def Yielded {preference : RwPreference} (before after : RwState Thread preference width)
    (writer : Thread) : Prop :=
  (before.threads writer).writing = true ∧ (after.threads writer).writing = false

section Steps

variable [DecidableEq Thread] {backend : FutexBackend}
  {before after : RwState Thread .writerPreferring width}

/-- The lock under observation, as long as the code's assertion on the reader
count holds. -/
def watchedSystem (Thread : Type) [DecidableEq Thread] (backend : FutexBackend) (width : Nat) :
    System (RwState Thread .writerPreferring width × RwWatch Thread) :=
  ((rwSystem Thread .writerPreferring backend width).stepsWhere CountAsserted).recording
    RwWatch.note .blank

/-- Nobody gives up the write side while a writer is queued. -/
def ReleasesAlone (before after : RwState Thread .writerPreferring width × RwWatch Thread) : Prop :=
  forall writer, Yielded before.1 after.1 writer -> forall queued, before.2.queued queued = false

/-! ## The waiting bit -/

theorem queues_rwHead {preference : RwPreference} (layout : 3 ≤ width) (observed : BitVec width)
    (parks : (RwPoint.rwHead observed : RwPoint preference width).queues = true) :
    (view observed).waiting = true := by
  unfold RwPoint.rwHead at parks
  split at parks
  · cases parks
  · split at parks
    · cases parks
    · exact waiting_of_announced layout observed ‹_›

/-- The waiting bit keeps every reader out. -/
theorem not_waiting_of_admitted (layout : 3 ≤ width) (word : BitVec width)
    (admitted : word &&& RwPreference.writerPreferring.readerBlockingBits width = 0#(width)) :
    (view word).waiting = false :=
  (and_writerWaitingBit_eq_zero_iff layout word).mp ((and_or_eq_zero_iff _ _ _).mp admitted).2

/-- The waiting bit is erased only by a release of the write side. -/
theorem waiting_kept [Fintype Thread] (layout : 3 ≤ width) (holds : Exclusive before)
    (move : RwStep backend before after) (waiting : (view before.word).waiting = true) :
    (view after.word).waiting = true ∨ Exists fun writer => Yielded before after writer := by
  have yielded : forall (thread : Thread) (point : RwPoint .writerPreferring width),
      (before.threads thread).point = .rwRelease ->
      Yielded before (before.change thread 0#(width) ((before.threads thread).yield point)) thread := by
    intro thread point place
    refine ⟨holds.writing_eq place, ?_⟩
    rw [threads_change_self, RwThread.yield_writing]
  cases move with
  | roEnter thread admitted place =>
      rw [not_waiting_of_admitted layout before.word admitted] at waiting
      cases waiting
  | tryRoEnter thread admitted place =>
      rw [not_waiting_of_admitted layout before.word admitted] at waiting
      cases waiting
  | roAnnounce thread closed place =>
      left
      change (view (before.word ||| readerParkedBit width)).waiting = true
      rw [view_or_readerParkedBit layout]
      exact waiting
  | roReleaseLast thread place last announced =>
      left
      change (view (before.word - 1)).waiting = true
      rw [view_sub_one layout before.word (holds.readers_pos place)]
      exact waiting
  | roReleaseQuiet thread place quiet =>
      left
      change (view (before.word - 1)).waiting = true
      rw [view_sub_one layout before.word (holds.readers_pos place)]
      exact waiting
  | rwTake thread free place =>
      left
      change (view (writerLockedBit width ||| before.word &&& parkedBits width)).waiting = true
      rw [view_writerLockedBit_or layout]
      exact waiting
  | tryRwTake thread free place =>
      left
      change (view (writerLockedBit width ||| before.word &&& parkedBits width)).waiting = true
      rw [view_writerLockedBit_or layout]
      exact waiting
  | rwAnnounce thread busy place =>
      left
      change (view (before.word ||| writerWaitingBit width)).waiting = true
      rw [view_or_writerWaitingBit layout]
  | rwReleaseWake thread place announced => exact Or.inr ⟨thread, yielded thread .rwWake place⟩
  | rwReleaseQuiet thread place quiet => exact Or.inr ⟨thread, yielded thread .idle place⟩
  | _ => exact Or.inl waiting

theorem queues_change {state : RwState Thread .writerPreferring width} (thread : Thread)
    (word : BitVec width) (next : RwThread .writerPreferring width) {writer : Thread}
    (reached : next.point.queues = true -> (state.threads thread).point.queues = true ∨
      (view word).waiting = true)
    (queues : ((state.change thread word next).threads writer).point.queues = true) :
    (state.threads writer).point.queues = true ∨ (view word).waiting = true := by
  by_cases same : writer = thread
  · subst same
    rw [threads_change_self] at queues
    exact reached queues
  · rw [threads_change_of_ne _ _ _ _ same] at queues
    exact Or.inl queues

theorem queues_elsewhere {state : RwState Thread .writerPreferring width} (thread : Thread)
    (word : BitVec width) {next : RwThread .writerPreferring width} {writer : Thread}
    (quiet : next.point.queues = false)
    (queues : ((state.change thread word next).threads writer).point.queues = true) :
    (state.threads writer).point.queues = true ∨ (view word).waiting = true := by
  refine queues_change thread word next (fun parks => ?_) queues
  rw [quiet] at parks
  cases parks

omit [DecidableEq Thread] in
theorem queues_unparkAll {state : RwState Thread .writerPreferring width} (wakeBitset : Nat)
    {writer : Thread} (queues : ((state.unparkAll backend wakeBitset).threads writer).point.queues = true) :
    (state.threads writer).point.queues = true := by
  change ((state.threads writer).unpark backend wakeBitset).point.queues = true at queues
  rcases RwThread.unpark_cases backend wakeBitset (state.threads writer) with same | ⟨_, moved⟩ | ⟨_, moved⟩
  · rwa [same] at queues
  · rw [moved] at queues
    cases queues
  · rw [moved] at queues
    cases queues

theorem queues_wakeAll {state : RwState Thread .writerPreferring width} (thread : Thread)
    (wakeBitset : Nat) {writer : Thread}
    (queues : ((state.wakeAll backend thread wakeBitset).threads writer).point.queues = true) :
    (state.threads writer).point.queues = true ∨ (view state.word).waiting = true := by
  rw [wakeAll_eq] at queues
  rcases queues_elsewhere thread state.word rfl queues with earlier | waiting
  · exact Or.inl (queues_unparkAll wakeBitset earlier)
  · exact Or.inr waiting

/-- Who gets to the point of parking leaves the waiting bit behind. -/
theorem queues_step (layout : 3 ≤ width) (move : RwStep backend before after) {writer : Thread}
    (queues : (after.threads writer).point.queues = true) :
    (before.threads writer).point.queues = true ∨ (view after.word).waiting = true := by
  have head : forall thread, (RwPoint.rwHead before.word : RwPoint .writerPreferring width).queues = true ->
      (before.threads thread).point.queues = true ∨ (view before.word).waiting = true :=
    fun _thread parks => Or.inr (queues_rwHead layout before.word parks)
  cases move with
  | roLoad thread place =>
      refine queues_change thread before.word _ ?_ queues
      intro parks
      unfold RwPoint.roHead at parks
      split at parks
      · cases parks
      · split at parks <;> cases parks
  | rwLoad thread place => exact queues_change thread before.word _ (head thread) queues
  | rwTakeFail thread observed free place => exact queues_change thread before.word _ (head thread) queues
  | rwAnnounce thread busy place =>
      refine queues_change thread _ _ (fun _parks => Or.inr ?_) queues
      change (view (before.word ||| writerWaitingBit width)).waiting = true
      rw [view_or_writerWaitingBit layout]
  | rwAnnounceFail thread observed busy place =>
      exact queues_change thread before.word _ (head thread) queues
  | rwPark thread busy announced place =>
      exact queues_change thread before.word _
        (fun _parks => Or.inr (waiting_of_announced layout before.word announced)) queues
  | roWake thread place => exact queues_wakeAll thread writerWaitBits queues
  | rwWake thread place => exact queues_wakeAll thread eitherWaitBits queues
  | _ => exact queues_elsewhere _ _ rfl queues

/-! ## Readers -/

/-- A reader is counted in only while the waiting bit is clear. -/
theorem not_waiting_of_Admitted (layout : 3 ≤ width) (move : RwStep backend before after)
    {reader : Thread} (admitted : Admitted before after reader) :
    (view before.word).waiting = false := by
  have changed : forall (thread : Thread) (word : BitVec width) (next : RwThread .writerPreferring width),
      next.reads ≤ (before.threads thread).reads ->
      ¬ Admitted before (before.change thread word next) reader := by
    intro thread word next fewer admitted
    by_cases same : reader = thread
    · subst same
      rw [Admitted, threads_change_self] at admitted
      exact absurd admitted (Nat.not_lt.mpr fewer)
    · rw [Admitted, threads_change_of_ne _ _ _ _ same] at admitted
      exact Nat.lt_irrefl _ admitted
  have woken : forall (thread : Thread) (wakeBitset : Nat),
      ¬ Admitted before (before.wakeAll backend thread wakeBitset) reader := by
    intro thread wakeBitset admitted
    have asleep : ((before.unparkAll backend wakeBitset).threads reader).reads =
        (before.threads reader).reads := RwThread.unpark_reads _ _ _
    rw [Admitted, wakeAll_eq] at admitted
    change _ < (((before.unparkAll backend wakeBitset).change thread before.word _).threads reader).reads
      at admitted
    by_cases same : reader = thread
    · subst same
      rw [threads_change_self, RwThread.goto_reads, asleep] at admitted
      exact Nat.lt_irrefl _ admitted
    · rw [threads_change_of_ne _ _ _ _ same, asleep] at admitted
      exact Nat.lt_irrefl _ admitted
  cases move with
  | roEnter thread entering place => exact not_waiting_of_admitted layout before.word entering
  | tryRoEnter thread entering place => exact not_waiting_of_admitted layout before.word entering
  | roReleaseLast thread place last announced =>
      exact absurd admitted (changed thread _ _ (Nat.sub_le _ _))
  | roReleaseQuiet thread place quiet => exact absurd admitted (changed thread _ _ (Nat.sub_le _ _))
  | roWake thread place => exact absurd admitted (woken thread writerWaitBits)
  | rwWake thread place => exact absurd admitted (woken thread eitherWaitBits)
  | _ => exact absurd admitted (changed _ _ _ (Nat.le_refl _))

end Steps

/-! ## Whole runs -/

section Runs

variable [Fintype Thread] [DecidableEq Thread]

/-- The waiting bit stands for every queued writer. -/
structure QueueCovered (watched : RwState Thread .writerPreferring width × RwWatch Thread) : Prop where
  parking : forall writer, (watched.1.threads writer).point.queues = true ->
    watched.2.queued writer = true
  covered : forall writer, watched.2.queued writer = true -> (view watched.1.word).waiting = true

theorem queueCovered_of_reachable (layout : 3 ≤ width) (backend : FutexBackend)
    {watched : RwState Thread .writerPreferring width × RwWatch Thread}
    (reachable : ((watchedSystem Thread backend width).stepsWhere ReleasesAlone).Reachable watched) :
    QueueCovered watched := by
  refine reachable.invariant ?_ ?_
  · rintro ⟨lock, watch⟩ ⟨rfl, rfl⟩
    exact ⟨nofun, nofun⟩
  · rintro ⟨before, watch⟩ ⟨after, watch'⟩ earlier ⟨parking, covered⟩ ⟨⟨move, noted⟩, alone⟩
    simp only at noted
    subst noted
    have holds := exclusive_of_reachable layout backend
      (reachable_within_of_asserted layout backend earlier.of_stepsWhere.of_recording)
    have kept : forall writer, watch.queued writer = true -> (view after.word).waiting = true := by
      intro writer queued
      rcases waiting_kept layout holds move.1 (covered writer queued) with waiting | ⟨releaser, yielded⟩
      · exact waiting
      · have nobody := alone releaser yielded writer
        change watch.queued writer = false at nobody
        rw [queued] at nobody
        cases nobody
    constructor
    · intro writer queues
      change (_ || _) = true
      rw [queues, Bool.true_or]
    · intro writer queued
      rcases Bool.or_eq_true_iff.mp queued with queues | still
      · rcases queues_step layout move.1 queues with earlier | waiting
        · exact kept writer (parking writer earlier)
        · exact waiting
      · exact kept writer (Bool.and_eq_true_iff.mp still).1

/-- Writer preference, for any number of readers and writers: as long as
nobody gives up the write side while a writer is queued, no reader is admitted
behind a queued writer.  In fact no reader is admitted at all meanwhile. -/
theorem queued_writer_blocks_readers (backend : FutexBackend) (concurrency : HardwareConcurrency)
    (watched : RwState Thread .writerPreferring (backend.valueBits concurrency) × RwWatch Thread)
    (reachable : ((watchedSystem Thread backend (backend.valueBits concurrency)).stepsWhere
      ReleasesAlone).Reachable watched)
    (after : RwState Thread .writerPreferring (backend.valueBits concurrency))
    (move : RwStep backend watched.1 after) (writer reader : Thread)
    (queued : watched.2.queued writer = true) : ¬ Admitted watched.1 after reader := by
  have layout := backend.three_le_valueBits concurrency
  intro admitted
  have covered := (queueCovered_of_reachable layout backend reachable).covered writer queued
  rw [not_waiting_of_Admitted layout move admitted] at covered
  cases covered

end Runs

/-! ## A queued writer that is overtaken -/

instance {preference : RwPreference} (before after : RwState Thread preference width) (writer : Thread) :
    Decidable (Yielded before after writer) :=
  inferInstanceAs (Decidable (_ ∧ _))

instance [Fintype Thread] (before after : RwState Thread .writerPreferring width × RwWatch Thread) :
    Decidable (ReleasesAlone before after) :=
  inferInstanceAs (Decidable (forall _writer, _ -> forall _queued, _))

/-- The first of three threads holds the write side, and the second one is
queued behind it. -/
def queuedBehindWriter : RwState (Fin 3) .writerPreferring 32 × RwWatch (Fin 3) where
  fst :=
    { word := writerLockedBit 32 ||| writerWaitingBit 32
      threads := fun thread =>
        if thread = 0 then ⟨0, true, .idle⟩ else ⟨0, false, if thread = 1 then .rwParked else .idle⟩ }
  snd := ⟨fun writer => decide (writer = 1), fun _ _ => false⟩

theorem queuedBehindWriter_reachable :
    ((watchedSystem (Fin 3) .linux 32).stepsWhere ReleasesAlone).Reachable queuedBehindWriter := by
  have advance : forall {watched : RwState (Fin 3) .writerPreferring 32 × RwWatch (Fin 3)}
      {after : RwState (Fin 3) .writerPreferring 32},
      ((watchedSystem (Fin 3) .linux 32).stepsWhere ReleasesAlone).Reachable watched ->
      RwStep .linux watched.1 after -> CountAsserted watched.1 after ->
      ReleasesAlone watched (after, watched.2.note watched.1 after) ->
      ((watchedSystem (Fin 3) .linux 32).stepsWhere ReleasesAlone).Reachable
        (after, watched.2.note watched.1 after) :=
    fun reachable move asserted alone => .step reachable ⟨⟨⟨move, asserted⟩, rfl⟩, alone⟩
  have start : ((watchedSystem (Fin 3) .linux 32).stepsWhere ReleasesAlone).Reachable (dormant, .blank) :=
    .initial ⟨rfl, rfl⟩
  have calls := advance start (RwStep.callAcquireRw 0 rfl) (fun _ => by decide) (by decide)
  have loads := advance calls (RwStep.rwLoad 0 rfl) (fun _ => by decide) (by decide)
  have takes := advance loads (RwStep.rwTake 0 (by decide) rfl) (fun _ => by decide) (by decide)
  have callsToo := advance takes (RwStep.callAcquireRw 1 rfl) (fun _ => by decide) (by decide)
  have loadsToo := advance callsToo (RwStep.rwLoad 1 rfl) (fun _ => by decide) (by decide)
  have announces := advance loadsToo (RwStep.rwAnnounce 1 (by decide) rfl) (fun _ => by decide) (by decide)
  have parks := advance announces (RwStep.rwPark 1 (by decide) (by decide) rfl) (fun _ => by decide)
    (by decide)
  convert parks using 1
  refine Prod.ext ?_ ?_
  · simp only [queuedBehindWriter, RwState.goto, RwState.change, RwState.mk.injEq]
    refine ⟨by decide, ?_⟩
    funext thread
    fin_cases thread <;> decide
  · simp only [queuedBehindWriter, RwWatch.note, RwWatch.mk.injEq]
    constructor
    · funext writer
      fin_cases writer <;> decide
    · funext reader writer
      fin_cases reader <;> fin_cases writer <;> decide

theorem queued_writer_blocks_readers_queuedBehindWriter :
    ¬ Admitted queuedBehindWriter.1 (queuedBehindWriter.1.goto 2 .roLoad) 2 :=
  queued_writer_blocks_readers .linux .uint16 queuedBehindWriter queuedBehindWriter_reachable _
    (RwStep.callAcquireRo 2 rfl) 1 2 rfl

/-- A release erases the waiting bit under a queued writer, and a reader that
begins meanwhile is admitted before the writer. -/
theorem reader_overtakes_queued_writer :
    Exists fun watched : RwState (Fin 3) .writerPreferring 32 × RwWatch (Fin 3) =>
      (watchedSystem (Fin 3) .linux 32).Reachable watched ∧ watched.2.queued 1 = true ∧
        watched.2.behind 2 1 = true ∧
        Exists fun after => RwStep .linux watched.1 after ∧ Admitted watched.1 after 2 := by
  have begins := queuedBehindWriter_reachable.of_stepsWhere.observed
    ⟨RwStep.callAcquireRo 2 rfl, fun _ => by decide⟩
  have calls := begins.observed ⟨RwStep.callReleaseRw 0 rfl rfl, fun _ => by decide⟩
  have erases := calls.observed ⟨RwStep.rwReleaseWake 0 rfl (by decide), fun _ => by decide⟩
  have looks := erases.observed ⟨RwStep.roLoad 2 rfl, fun _ => by decide⟩
  exact ⟨_, looks, by decide, by decide, _, RwStep.roEnter 2 (by decide) rfl,
    by unfold Admitted; decide⟩

end Threading
end Sweater
