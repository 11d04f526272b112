import Sweater.Futures.OneShot

namespace Sweater
namespace Futures

open Interleaving
open Threading

/-!
# What the two sides of a slot can rely on

The contract of `make()` for one slot of a program: the signal, the deletion,
the accesses after it, the waits and the first result.
-/

variable {T E : Type} {flavour : Flavour T E} {backend : FutexBackend} {concurrency : HardwareConcurrency}
  {PromiseName FutureName : Type}

/-- The promise has completed the slot, and its call has returned from
`completion_.signal()`. -/
def Settled (slot : Slot flavour (backend.valueBits concurrency) concurrency.bits) : Prop :=
  slot.completed = true ∧ slot.semaphore.points .promise = .idle

/-- A bound on the operations of the call that the thread of the futures is in,
once the slot is settled. -/
def callDistance (slot : Slot flavour (backend.valueBits concurrency) concurrency.bits) :
    FuturePoint FutureName -> Nat
  | .idle => 0
  | .delete _ _ => 1
  | .read _ => 1
  | .release _ _ => 2
  | .store _ _ => 3
  | .wait _ _ => 4 + stepsToReturn slot.semaphore.credits (slot.semaphore.points .future)
  | .test _ _ => 6

/-- The thread of the futures, or the wait that it is in, has a step that
brings its call nearer to the return. -/
def Nearer [DecidableEq FutureName]
    (world : World flavour (backend.valueBits concurrency) concurrency.bits PromiseName FutureName) (slot : Nat) :
    Prop :=
  Exists fun next => (FutureStep world next ∨ Exists fun semaphore =>
      SemaphoreStep (world.slots slot).semaphore semaphore ∧
        semaphore.points .promise = (world.slots slot).semaphore.points .promise ∧
        next = world.onSlot slot { world.slots slot with semaphore := semaphore }) ∧
    Settled (next.slots slot) ∧
    callDistance (next.slots slot) next.futurePoint < callDistance (world.slots slot) world.futurePoint

/-- The one-shot contract of a slot. -/
structure OneShot [DecidableEq FutureName]
    (world : World flavour (backend.valueBits concurrency) concurrency.bits PromiseName FutureName)
    (slot : Nat) : Prop where
  /-- at most one signal, and one when the promise has let go of the slot -/
  signalledOnce : (world.slots slot).semaphore.signalled ≤ 1
  signalled : (world.slots slot).released .promise = true ->
    (world.slots slot).semaphore.signalled = 1 ∧ Settled (world.slots slot)
  /-- at most one deletion, after both sides have released the slot -/
  deletedOnce : (world.slots slot).deletions ≤ 1
  deletedLast : (world.slots slot).deletions = 1 -> forall side, (world.slots slot).released side = true
  /-- no leak: a slot that no object points to, between two calls, has been deleted -/
  deleted : slot < world.made -> world.promisePoint = .idle -> world.futurePoint = .idle ->
    (forall name, world.promises name ≠ some slot) -> (forall name, world.futures name ≠ some slot) ->
    (world.slots slot).deletions = 1
  /-- nobody is going to touch a deleted slot, and nobody is inside its semaphore -/
  untouched : (world.slots slot).deletions ≠ 0 ->
    world.promisePoint.touches ≠ some slot ∧ world.futurePoint.touches ≠ some slot ∧
      (forall name, world.promises name ≠ some slot) ∧ (forall name, world.futures name ≠ some slot) ∧
      (forall side, (world.slots slot).semaphore.points side = .idle)
  /-- a future of a settled slot is never parked, and has a step towards its return -/
  prompt : Settled (world.slots slot) -> world.futurePoint.touches = some slot ->
    (world.slots slot).semaphore.points .future ≠ .parked ∧ Nearer world slot
  /-- the first `get()` has found what the only completion was -/
  firstGet : (world.slots slot).results ≠ [] -> Exists fun completion =>
    (world.slots slot).completions = [completion] ∧ (world.slots slot).results.head? = some (some completion)

section Slots

variable {slot : Slot flavour (backend.valueBits concurrency) concurrency.bits} {promise : PromisePhase T E}
  {future : FuturePhase}

theorem SlotSound.signalled_le (sound : SlotSound slot promise future) : slot.semaphore.signalled ≤ 1 := by
  have sent := sound.uses.signals
  have few := Bool.toNat_le slot.completed
  omega

theorem SlotSound.signalled_of_settled (sound : SlotSound slot promise future) (settled : Settled slot) :
    slot.semaphore.signalled = 1 := by
  have sent := sound.uses.signals
  rw [settled.1, settled.2] at sent
  exact sent

theorem SlotSound.settled_of_released (sound : SlotSound slot promise future)
    (released : slot.released .promise = true) : Settled slot := by
  have holds := sound.promise
  cases promise with
  | away => exact ⟨holds.2 released, holds.1⟩
  | delete => exact ⟨holds.2.2, holds.1⟩
  | test => cases holds.2.symm.trans released
  | store completion => cases holds.2.1.symm.trans released
  | signal => cases holds.1.symm.trans released
  | release => cases holds.2.1.symm.trans released

theorem SlotSound.deletions_le (sound : SlotSound slot promise future) : slot.deletions ≤ 1 := by
  have owed := sound.owners.deletions
  have few := Bool.toNat_le (slot.released .promise && slot.released .future)
  omega

/-- A slot is deleted after both releases, when neither thread owes the
deletion. -/
theorem SlotSound.deleted_iff (sound : SlotSound slot promise future) :
    slot.deletions ≠ 0 ↔
      (slot.released .promise = true ∧ slot.released .future = true) ∧ promise.deleting = 0 ∧ future.deleting = 0 := by
  have owed := sound.owners.deletions
  rw [← Bool.and_eq_true]
  cases both : slot.released .promise && slot.released .future with
  | false =>
      rw [both, Bool.toNat_false] at owed
      constructor
      · intro gone
        omega
      · rintro ⟨no, _⟩
        cases no
  | true =>
      rw [both, Bool.toNat_true] at owed
      constructor
      · intro gone
        exact ⟨rfl, by omega, by omega⟩
      · rintro ⟨_, first, second⟩
        omega

/-- Both threads are away from a deleted slot, and outside its semaphore. -/
theorem SlotSound.away_of_deleted (sound : SlotSound slot promise future) (gone : slot.deletions ≠ 0) :
    (promise = .away ∧ future = .away) ∧ forall side, slot.semaphore.points side = .idle := by
  rcases sound.deleted_iff.mp gone with ⟨⟨promiseGone, futureGone⟩, notPromise, notFuture⟩
  have left : promise = .away ∧ slot.semaphore.points .promise = .idle := by
    have holds := sound.promise
    cases promise with
    | away => exact ⟨rfl, holds.1⟩
    | delete => cases notPromise
    | test => cases holds.2.symm.trans promiseGone
    | store completion => cases holds.2.1.symm.trans promiseGone
    | signal => cases holds.1.symm.trans promiseGone
    | release => cases holds.2.1.symm.trans promiseGone
  have right : future = .away ∧ slot.semaphore.points .future = .idle := by
    have holds := sound.future
    cases future with
    | away => exact ⟨rfl, holds.1⟩
    | delete => cases notFuture
    | test => cases holds.2.symm.trans futureGone
    | wait => cases holds.1.symm.trans futureGone
    | store | read | release => cases holds.2.1.symm.trans futureGone
  refine ⟨⟨left.1, right.1⟩, ?_⟩
  intro side
  cases side with
  | promise => exact left.2
  | future => exact right.2

/-- What the first `get()` has found. -/
theorem SlotSound.firstGet (sound : SlotSound slot promise future) (read : slot.results ≠ []) :
    Exists fun completion =>
      slot.completions = [completion] ∧ slot.results.head? = some (some completion) := by
  have waited : slot.waited = true := by
    by_contra unwaited
    exact read (sound.contents.unread (Bool.not_eq_true _ ▸ unwaited))
  have once := sound.contents.once
  rw [sound.contents.served waited] at once
  rcases List.length_eq_one_iff.mp once with ⟨completion, completions⟩
  refine ⟨completion, completions, ?_⟩
  rw [sound.contents.first read, completions]
  rfl

/-- The waiter of a settled slot is not parked. -/
theorem SlotSound.not_parked (sound : SlotSound slot promise future) (settled : Settled slot) :
    slot.semaphore.points .future ≠ .parked := by
  have uses := sound.uses
  rw [settled.1] at uses
  by_cases waiting : future = .wait
  · rw [waiting] at uses
    have unwaited : slot.waited = false := (waiting ▸ sound.future : FutureAt slot .wait).2
    rw [unwaited] at uses
    exact not_parked_of_signalled sound.reachable uses (Nat.le_refl 1) settled.2
  · intro parked
    have holds := sound.future
    have idle : slot.semaphore.points .future = .idle := by
      cases future with
      | wait => exact absurd rfl waiting
      | _ => exact holds.1
    cases idle.symm.trans parked

end Slots

section Worlds

variable {world : World flavour (backend.valueBits concurrency) concurrency.bits PromiseName FutureName} {slot : Nat}

/-- Neither a thread nor an object points to a deleted slot. -/
theorem WorldSound.unheld_of_deleted (sound : WorldSound world) (gone : (world.slots slot).deletions ≠ 0) :
    (world.promisePoint.touches ≠ some slot ∧ world.futurePoint.touches ≠ some slot) ∧
      (forall name, world.promises name ≠ some slot) ∧ forall name, world.futures name ≠ some slot := by
  have live := sound.slots slot
  rcases live.away_of_deleted gone with ⟨⟨promiseAway, futureAway⟩, _⟩
  rcases (live.deleted_iff.mp gone).1 with ⟨promiseGone, futureGone⟩
  have promiseElsewhere := PromisePoint.elsewhere_of_away promiseAway
  have futureElsewhere := FuturePoint.elsewhere_of_away futureAway
  refine ⟨⟨promiseElsewhere, futureElsewhere⟩, ?_, ?_⟩
  · intro name held
    rcases sound.promises.dangling name slot held promiseGone with ⟨assignment, under⟩
    exact promiseElsewhere (PromisePoint.of_current under).2
  · intro name held
    rcases sound.futures.dangling name slot held futureGone with ⟨assignment, under⟩
    exact futureElsewhere (FuturePoint.of_current under).2

/-- A slot that nobody points to has been deleted. -/
theorem WorldSound.deleted_of_unheld (sound : WorldSound world) (made : slot < world.made)
    (promiseIdle : world.promisePoint = .idle) (futureIdle : world.futurePoint = .idle)
    (noPromise : forall name, world.promises name ≠ some slot)
    (noFuture : forall name, world.futures name ≠ some slot) : (world.slots slot).deletions = 1 := by
  have live := sound.slots slot
  rw [promiseIdle, futureIdle] at live
  have promiseGone : (world.slots slot).released .promise = true := by
    by_contra kept
    rcases sound.promises.covered slot made (Bool.not_eq_true _ ▸ kept) with ⟨name, held⟩
    exact noPromise name held
  have futureGone : (world.slots slot).released .future = true := by
    by_contra kept
    rcases sound.futures.covered slot made (Bool.not_eq_true _ ▸ kept) with ⟨name, held⟩
    exact noFuture name held
  have some := live.deleted_iff.mpr ⟨⟨promiseGone, futureGone⟩, rfl, rfl⟩
  have few := live.deletions_le
  omega

/-- After the wait for a settled slot, at most two more operations follow. -/
theorem callDistance_afterWait (shared : Slot flavour (backend.valueBits concurrency) concurrency.bits)
    (purpose : Purpose FutureName) : callDistance shared (.afterWait slot purpose) ≤ 2 := by
  cases purpose with
  | wait => exact Nat.zero_le 2
  | get => exact Nat.le_succ 1
  | release => exact Nat.le_refl 2

/-- A step of the thread of the futures on a settled slot. -/
theorem nearer_of_step [DecidableEq FutureName] {futures : FutureName -> Option Nat}
    {next : Slot flavour (backend.valueBits concurrency) concurrency.bits} {point : FuturePoint FutureName}
    (move : FutureStep world { world.onSlot slot next with futures := futures, futurePoint := point })
    (settled : Settled next) (less : callDistance next point < callDistance (world.slots slot) world.futurePoint) :
    Nearer world slot := by
  refine ⟨_, .inl move, ?_, ?_⟩
  · change Settled (Function.update world.slots slot next slot)
    rw [Function.update_self]
    exact settled
  · change callDistance (Function.update world.slots slot next slot) point < _
    rw [Function.update_self]
    exact less

/-- A future of a settled slot never waits for anybody. -/
theorem WorldSound.nearer [DecidableEq FutureName] (sound : WorldSound world) (settled : Settled (world.slots slot))
    (touched : world.futurePoint.touches = some slot) : Nearer world slot := by
  have live := sound.futureSlot rfl touched
  cases place : world.futurePoint with
  | idle =>
      rw [place] at touched
      cases touched
  | test other purpose =>
      rw [place] at touched
      cases touched
      cases waited : (world.slots slot).waited with
      | true =>
          refine ⟨_, .inl (.testWaited slot purpose place waited), settled, ?_⟩
          rw [place]
          exact Nat.lt_of_le_of_lt (callDistance_afterWait _ _) (by decide : 2 < 6)
      | false =>
          have untouched : (world.slots slot).callWait.semaphore.points .promise =
              (world.slots slot).semaphore.points .promise :=
            (points_goto _ _ _ _).trans (if_neg (by decide))
          have calling : (world.slots slot).callWait.semaphore.points .future = .waitSubtract :=
            (points_goto _ _ _ _).trans (if_pos rfl)
          apply nearer_of_step (.callWait slot purpose place waited) ⟨settled.1, untouched.trans settled.2⟩
          rw [place, callDistance, calling]
          exact (by decide : 5 < 6)
  | wait other purpose =>
      rw [place] at touched live
      cases touched
      have uses := live.uses
      rw [settled.1, live.future.2] at uses
      by_cases returned : (world.slots slot).semaphore.points .future = .idle
      · refine ⟨_, .inl (.waited slot purpose place returned), settled, ?_⟩
        rw [place, callDistance, callDistance, returned]
        exact (by decide : 3 < 4)
      · rcases nearer_of_signalled live.reachable uses (Nat.le_refl 1) settled.2 returned with
          ⟨semaphore, move, _, idle, less⟩
        refine ⟨_, .inr ⟨semaphore, move, idle.trans settled.2.symm, rfl⟩, ?_, ?_⟩
        · change Settled (Function.update world.slots slot _ slot)
          rw [Function.update_self]
          exact ⟨settled.1, idle⟩
        · change callDistance (Function.update world.slots slot _ slot) world.futurePoint < _
          rw [Function.update_self, place]
          exact Nat.add_lt_add_left less 4
  | store other purpose =>
      rw [place] at touched
      cases touched
      apply nearer_of_step (.store slot purpose place) settled
      rw [place]
      exact Nat.lt_of_le_of_lt (callDistance_afterWait _ _) (by decide : 2 < 3)
  | read other =>
      rw [place] at touched
      cases touched
      apply nearer_of_step (.read slot place) settled
      rw [place]
      exact Nat.zero_lt_one
  | release other assignment =>
      rw [place] at touched
      cases touched
      by_cases last : (world.slots slot).owners = 1
      · apply nearer_of_step (.releaseLast slot assignment place last) settled
        rw [place]
        exact Nat.lt_succ_self 1
      · apply nearer_of_step (.releaseFirst slot assignment place last) settled
        rw [place]
        exact Nat.zero_lt_two
  | delete other assignment =>
      rw [place] at touched
      cases touched
      apply nearer_of_step (.delete slot assignment place) settled
      rw [place]
      exact Nat.zero_lt_one

end Worlds

/-- Every slot of every program keeps the one-shot contract, in every
interleaving of the two threads and for both kinds of slots. -/
theorem one_shot [DecidableEq PromiseName] [DecidableEq FutureName]
    (world : World flavour (backend.valueBits concurrency) concurrency.bits PromiseName FutureName) (slot : Nat)
    (reachable : (futureSystem flavour (backend.valueBits concurrency) concurrency.bits PromiseName
      FutureName).Reachable world) : OneShot world slot := by
  have sound := worldSound_of_reachable reachable
  have live := sound.slots slot
  constructor
  case signalledOnce => exact live.signalled_le
  case signalled =>
    intro released
    have settled := live.settled_of_released released
    exact ⟨live.signalled_of_settled settled, settled⟩
  case deletedOnce => exact live.deletions_le
  case deletedLast =>
    intro once side
    have released := (live.deleted_iff.mp (by rw [once]; exact Nat.one_ne_zero)).1
    cases side with
    | promise => exact released.1
    | future => exact released.2
  case deleted => exact sound.deleted_of_unheld
  case untouched =>
    intro gone
    rcases sound.unheld_of_deleted gone with ⟨elsewhere, unheld⟩
    exact ⟨elsewhere.1, elsewhere.2, unheld.1, unheld.2, (live.away_of_deleted gone).2⟩
  case prompt =>
    intro settled touched
    exact ⟨live.not_parked settled, sound.nearer settled touched⟩
  case firstGet => exact live.firstGet

/-! ## The life of one pair -/

/-- A slot of numbers, where a value that has been moved away leaves zero. -/
abbrev numbers : Flavour Nat Empty := futureState fun _ => 0

/-- The world of one promise and one future. -/
abbrev PairWorld : Type :=
  World numbers (FutexBackend.linux.valueBits .uint16) HardwareConcurrency.uint16.bits Unit Unit

def pairSystem : System PairWorld :=
  futureSystem numbers (FutexBackend.linux.valueBits .uint16) HardwareConcurrency.uint16.bits Unit Unit

/-- A value is set and signalled, the future gets it, and both sides let go of the
slot.  On the way the future is inside its wait. -/
theorem pair_life :
    (Exists fun world => pairSystem.Reachable world ∧ Settled (world.slots 0) ∧ world.futurePoint = .wait 0 .get) ∧
    Exists fun world => pairSystem.Reachable world ∧ (world.slots 0).completions = [.value 7] ∧
      (world.slots 0).results = [some (.value 7)] ∧ (forall side, (world.slots 0).released side = true) ∧
      (world.slots 0).deletions = 1 := by
  have start : pairSystem.Reachable (.empty numbers _ _ Unit Unit) := .initial rfl
  have made := start.step (.make () () rfl rfl (by rintro _ none; cases none) (by rintro _ none; cases none))
  have called := made.step (.promise (.setValue () 0 7 rfl rfl rfl))
  have stored := called.step (.promise (.store 0 _ _ rfl))
  have added := stored.step (.semaphore 0 _ (.addUncontended .promise 1 rfl (by decide)) (by rintro (_ | _) <;> decide))
  have signalled := added.step (.promise (.signalled 0 _ rfl rfl))
  have gets := signalled.step (.future (.get () 0 rfl rfl))
  have waits := gets.step (.future (.callWait 0 _ rfl rfl))
  have taken := waits.step (.semaphore 0 _ (.subtractToken .future rfl (by decide)) (by rintro (_ | _) <;> decide))
  have waited := taken.step (.future (.waited 0 _ rfl rfl))
  have noted := waited.step (.future (.store 0 _ rfl))
  have got := noted.step (.future (.read 0 rfl))
  have abandons := got.step (.promise (.abandon (.destroy ()) 0 rfl rfl))
  have tested := abandons.step (.promise (.testCompleted 0 _ rfl rfl))
  have first := tested.step (.promise (.releaseFirst 0 _ rfl (by decide)))
  have releases := first.step (.future (.release (.destroy ()) 0 rfl rfl))
  have passes := releases.step (.future (.testWaited 0 _ rfl rfl))
  have last := passes.step (.future (.releaseLast 0 _ rfl (by decide)))
  have deleted := last.step (.future (.delete 0 _ rfl))
  refine ⟨⟨_, waits, ⟨rfl, rfl⟩, rfl⟩, ⟨_, deleted, rfl, rfl, ?_, rfl⟩⟩
  intro side
  cases side <;> rfl

/-- The future that waits for a value that has been signalled comes nearer to its
return, and in the end the value has been found and the slot deleted. -/
theorem one_shot_deleted :
    (Exists fun world : PairWorld => world.futurePoint = .wait 0 .get ∧ OneShot world 0 ∧ Nearer world 0) ∧
    Exists fun world : PairWorld => (world.slots 0).results = [some (.value 7)] ∧
      (forall side, (world.slots 0).released side = true) ∧ (world.slots 0).deletions = 1 ∧ OneShot world 0 := by
  obtain ⟨⟨waiting, reached, settled, place⟩, ⟨ended, reachable, _, results, released, deletions⟩⟩ := pair_life
  have contract : OneShot waiting 0 := one_shot waiting 0 reached
  have touched : waiting.futurePoint.touches = some 0 := by
    rw [place]
    rfl
  exact ⟨⟨waiting, place, contract, (contract.prompt settled touched).2⟩,
    ⟨ended, results, released, deletions, one_shot ended 0 reachable⟩⟩

end Futures
end Sweater
