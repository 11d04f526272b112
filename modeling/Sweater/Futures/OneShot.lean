import Sweater.Futures.SlotLife
import Sweater.Futures.Ownership

namespace Sweater
namespace Futures

open Interleaving
open Threading

/-!
# The one-shot protocol

A program drives any number of promises from one thread and any number of
futures from another one.  Every reachable state keeps the phases of the slots
and the ownership by the objects together.  What a user sees follows for every
slot at once: one signal, one deletion after both releases, no access after it,
no wait that blocks after the promise is done, and a first `get()` that finds
the completion.
-/

variable {T E Name : Type}

namespace PromisePoint

/-- The phase of the slot that the point touches. -/
def kind : PromisePoint T E Name -> PromisePhase T E
  | idle => .away
  | test _ _ => .test
  | store _ completion _ => .store completion
  | signal _ _ => .signal
  | release _ _ => .release
  | delete _ _ => .delete

/-- The phase of a slot. -/
def phase (slot : Nat) (point : PromisePoint T E Name) : PromisePhase T E :=
  if point.touches = some slot then point.kind else .away

/-- The assignment under way, and the slot that it lets go of. -/
def current (point : PromisePoint T E Name) : Option (Assignment Name × Nat) :=
  point.assignment.bind fun assignment => point.touches.map fun slot => (assignment, slot)

/-- The point touches no other slot. -/
def Only (slot : Nat) (point : PromisePoint T E Name) : Prop :=
  forall place, point.touches = some place -> place = slot

theorem only_of_touches {slot : Nat} {point : PromisePoint T E Name} (touched : point.touches = some slot) :
    point.Only slot := by
  intro place other
  rw [touched] at other
  exact (Option.some.inj other).symm

theorem only_idle (slot : Nat) : (idle : PromisePoint T E Name).Only slot := by
  intro place touched
  cases touched

theorem Only.phase_eq {slot : Nat} {point : PromisePoint T E Name} (only : point.Only slot) :
    point.phase slot = point.kind := by
  cases point with
  | idle => rfl
  | _ => exact if_pos (congrArg some (only _ rfl))

theorem elsewhere_of_away {slot : Nat} {point : PromisePoint T E Name} (away : point.phase slot = .away) :
    point.touches ≠ some slot := by
  intro touched
  rw [(only_of_touches touched).phase_eq] at away
  cases point with
  | idle => cases touched
  | _ => cases away

theorem of_current {slot : Nat} {point : PromisePoint T E Name} {assignment : Assignment Name}
    (under : point.current = some (assignment, slot)) :
    point.assignment = some assignment ∧ point.touches = some slot := by
  rcases Option.bind_eq_some_iff.mp under with ⟨_, current, touched⟩
  rcases Option.map_eq_some_iff.mp touched with ⟨_, touches, pair⟩
  cases pair
  exact ⟨current, touches⟩

end PromisePoint

namespace FuturePoint

/-- The phase of the slot that the point touches. -/
def kind : FuturePoint Name -> FuturePhase
  | idle => .away
  | test _ _ => .test
  | wait _ _ => .wait
  | store _ _ => .store
  | read _ => .read
  | release _ _ => .release
  | delete _ _ => .delete

/-- The phase of a slot. -/
def phase (slot : Nat) (point : FuturePoint Name) : FuturePhase :=
  if point.touches = some slot then point.kind else .away

/-- The assignment under way, and the slot that it lets go of. -/
def current (point : FuturePoint Name) : Option (Assignment Name × Nat) :=
  point.assignment.bind fun assignment => point.touches.map fun slot => (assignment, slot)

/-- The point touches no other slot. -/
def Only (slot : Nat) (point : FuturePoint Name) : Prop :=
  forall place, point.touches = some place -> place = slot

theorem only_of_touches {slot : Nat} {point : FuturePoint Name} (touched : point.touches = some slot) :
    point.Only slot := by
  intro place other
  rw [touched] at other
  exact (Option.some.inj other).symm

theorem only_idle (slot : Nat) : (idle : FuturePoint Name).Only slot := by
  intro place touched
  cases touched

theorem Only.phase_eq {slot : Nat} {point : FuturePoint Name} (only : point.Only slot) :
    point.phase slot = point.kind := by
  cases point with
  | idle => rfl
  | _ => exact if_pos (congrArg some (only _ rfl))

theorem elsewhere_of_away {slot : Nat} {point : FuturePoint Name} (away : point.phase slot = .away) :
    point.touches ≠ some slot := by
  intro touched
  rw [(only_of_touches touched).phase_eq] at away
  cases point with
  | idle => cases touched
  | _ => cases away

theorem of_current {slot : Nat} {point : FuturePoint Name} {assignment : Assignment Name}
    (under : point.current = some (assignment, slot)) :
    point.assignment = some assignment ∧ point.touches = some slot := by
  rcases Option.bind_eq_some_iff.mp under with ⟨_, current, touched⟩
  rcases Option.map_eq_some_iff.mp touched with ⟨_, touches, pair⟩
  cases pair
  exact ⟨current, touches⟩

end FuturePoint

section Worlds

variable {flavour : Flavour T E} {backend : FutexBackend} {concurrency : HardwareConcurrency}
  {PromiseName FutureName : Type}

/-- What holds in every reachable state. -/
structure WorldSound
    (world : World flavour (backend.valueBits concurrency) concurrency.bits PromiseName FutureName) : Prop where
  slots : forall slot,
    SlotSound (world.slots slot) (world.promisePoint.phase slot) (world.futurePoint.phase slot)
  promises : Holding world.promises world.made (fun slot => (world.slots slot).released .promise)
    world.promisePoint.current
  futures : Holding world.futures world.made (fun slot => (world.slots slot).released .future)
    world.futurePoint.current
  promiseMade : forall slot, world.promisePoint.touches = some slot -> slot < world.made
  futureMade : forall slot, world.futurePoint.touches = some slot -> slot < world.made

variable {world : World flavour (backend.valueBits concurrency) concurrency.bits PromiseName FutureName}

theorem worldSound_empty : WorldSound
    (World.empty flavour (backend.valueBits concurrency) concurrency.bits PromiseName FutureName) where
  slots := fun _ => slotSound_fresh
  promises := holding_empty _
  futures := holding_empty _
  promiseMade := by
    intro slot touched
    cases touched
  futureMade := by
    intro slot touched
    cases touched

/-- What one side has released, after a change of one slot. -/
theorem released_onSlot (world : World flavour (backend.valueBits concurrency) concurrency.bits PromiseName FutureName)
    (slot : Nat) (next : Slot flavour (backend.valueBits concurrency) concurrency.bits) (side : Side) :
    (fun place => ((world.onSlot slot next).slots place).released side) =
      Function.update (fun place => (world.slots place).released side) slot (next.released side) := by
  funext place
  by_cases same : place = slot
  · rw [same, Function.update_self]
    change (Function.update world.slots slot next slot).released side = _
    rw [Function.update_self]
  · rw [Function.update_of_ne same]
    change (Function.update world.slots slot next place).released side = _
    rw [Function.update_of_ne same]

/-- A step of the thread of the promises, which touches one slot. -/
theorem WorldSound.of_promise (sound : WorldSound world) {slot : Nat}
    {next : Slot flavour (backend.valueBits concurrency) concurrency.bits} {promises : PromiseName -> Option Nat}
    {point : PromisePoint T E PromiseName} (known : slot < world.made)
    (before : world.promisePoint.Only slot) (after : point.Only slot)
    (kept : next.released .future = (world.slots slot).released .future)
    (live : SlotSound next point.kind (world.futurePoint.phase slot))
    (held : Holding promises world.made
      (Function.update (fun place => (world.slots place).released .promise) slot (next.released .promise))
      point.current) :
    WorldSound { world.onSlot slot next with promises := promises, promisePoint := point } where
  slots := by
    intro place
    by_cases same : place = slot
    · rw [same]
      change SlotSound (Function.update world.slots slot next slot) _ _
      rw [Function.update_self, after.phase_eq]
      exact live
    · have was : world.promisePoint.phase place = .away := if_neg (fun touched => same (before place touched))
      have stays : point.phase place = .away := if_neg (fun touched => same (after place touched))
      change SlotSound (Function.update world.slots slot next place) (point.phase place) _
      rw [Function.update_of_ne same, stays, ← was]
      exact sound.slots place
  promises := (released_onSlot world slot next .promise).symm ▸ held
  futures := by
    have same := released_onSlot world slot next .future
    rw [kept, Function.update_eq_self] at same
    exact same.symm ▸ sound.futures
  promiseMade := fun place touched => (after place touched).symm ▸ known
  futureMade := sound.futureMade

/-- A step of the thread of the futures, which touches one slot. -/
theorem WorldSound.of_future (sound : WorldSound world) {slot : Nat}
    {next : Slot flavour (backend.valueBits concurrency) concurrency.bits} {futures : FutureName -> Option Nat}
    {point : FuturePoint FutureName} (known : slot < world.made)
    (before : world.futurePoint.Only slot) (after : point.Only slot)
    (kept : next.released .promise = (world.slots slot).released .promise)
    (live : SlotSound next (world.promisePoint.phase slot) point.kind)
    (held : Holding futures world.made
      (Function.update (fun place => (world.slots place).released .future) slot (next.released .future))
      point.current) :
    WorldSound { world.onSlot slot next with futures := futures, futurePoint := point } where
  slots := by
    intro place
    by_cases same : place = slot
    · rw [same]
      change SlotSound (Function.update world.slots slot next slot) _ _
      rw [Function.update_self, after.phase_eq]
      exact live
    · have was : world.futurePoint.phase place = .away := if_neg (fun touched => same (before place touched))
      have stays : point.phase place = .away := if_neg (fun touched => same (after place touched))
      change SlotSound (Function.update world.slots slot next place) _ (point.phase place)
      rw [Function.update_of_ne same, stays, ← was]
      exact sound.slots place
  promises := by
    have same := released_onSlot world slot next .promise
    rw [kept, Function.update_eq_self] at same
    exact same.symm ▸ sound.promises
  futures := (released_onSlot world slot next .future).symm ▸ held
  promiseMade := sound.promiseMade
  futureMade := fun place touched => (after place touched).symm ▸ known

/-- A step of the thread of the promises that changes no slot and no object. -/
theorem WorldSound.promiseTo (sound : WorldSound world) {slot : Nat} {point : PromisePoint T E PromiseName}
    (known : slot < world.made)
    (before : world.promisePoint.Only slot) (after : point.Only slot)
    (live : SlotSound (world.slots slot) point.kind (world.futurePoint.phase slot))
    (held : Holding world.promises world.made (fun place => (world.slots place).released .promise) point.current) :
    WorldSound { world with promisePoint := point } := by
  have same : world.onSlot slot (world.slots slot) = world := by
    rw [World.onSlot, Function.update_eq_self]
  have moved : WorldSound
      { world.onSlot slot (world.slots slot) with promises := world.promises, promisePoint := point } :=
    sound.of_promise known before after rfl live (by rw [Function.update_eq_self]; exact held)
  rw [same] at moved
  exact moved

/-- A step of the thread of the futures that changes no slot and no object. -/
theorem WorldSound.futureTo (sound : WorldSound world) {slot : Nat} {point : FuturePoint FutureName}
    (known : slot < world.made)
    (before : world.futurePoint.Only slot) (after : point.Only slot)
    (live : SlotSound (world.slots slot) (world.promisePoint.phase slot) point.kind)
    (held : Holding world.futures world.made (fun place => (world.slots place).released .future) point.current) :
    WorldSound { world with futurePoint := point } := by
  have same : world.onSlot slot (world.slots slot) = world := by
    rw [World.onSlot, Function.update_eq_self]
  have moved : WorldSound
      { world.onSlot slot (world.slots slot) with futures := world.futures, futurePoint := point } :=
    sound.of_future known before after rfl live (by rw [Function.update_eq_self]; exact held)
  rw [same] at moved
  exact moved

theorem WorldSound.promiseSlot (sound : WorldSound world) {slot : Nat} {point : PromisePoint T E PromiseName}
    (place : world.promisePoint = point) (touched : point.touches = some slot) :
    SlotSound (world.slots slot) point.kind (world.futurePoint.phase slot) := by
  rw [← (PromisePoint.only_of_touches touched).phase_eq, ← place]
  exact sound.slots slot

theorem WorldSound.futureSlot (sound : WorldSound world) {slot : Nat} {point : FuturePoint FutureName}
    (place : world.futurePoint = point) (touched : point.touches = some slot) :
    SlotSound (world.slots slot) (world.promisePoint.phase slot) point.kind := by
  rw [← (FuturePoint.only_of_touches touched).phase_eq, ← place]
  exact sound.slots slot

/-- A promise that holds a slot, between two calls. -/
theorem WorldSound.promiseHeld (sound : WorldSound world) {name : PromiseName} {slot : Nat}
    (idle : world.promisePoint = .idle) (held : world.promises name = some slot) :
    slot < world.made ∧ (world.slots slot).released .promise = false ∧
      SlotSound (world.slots slot) .away (world.futurePoint.phase slot) := by
  refine ⟨sound.promises.known name slot held, ?_, ?_⟩
  · by_contra gone
    have holding := sound.promises
    rw [idle] at holding
    rcases holding.dangling name slot held (Bool.not_eq_false _ ▸ gone) with ⟨_, current⟩
    cases current
  · have live := sound.slots slot
    rw [idle] at live
    exact live

/-- A future that holds a slot, between two calls. -/
theorem WorldSound.futureHeld (sound : WorldSound world) {name : FutureName} {slot : Nat}
    (idle : world.futurePoint = .idle) (held : world.futures name = some slot) :
    slot < world.made ∧ (world.slots slot).released .future = false ∧
      SlotSound (world.slots slot) (world.promisePoint.phase slot) .away := by
  refine ⟨sound.futures.known name slot held, ?_, ?_⟩
  · by_contra gone
    have holding := sound.futures
    rw [idle] at holding
    rcases holding.dangling name slot held (Bool.not_eq_false _ ▸ gone) with ⟨_, current⟩
    cases current
  · have live := sound.slots slot
    rw [idle] at live
    exact live

/-- `set_value`, `set_exception` and `run` are called on a slot that is not completed. -/
theorem WorldSound.beginStore (sound : WorldSound world) {name : PromiseName} {slot : Nat}
    (completion : Completion T E) (idle : world.promisePoint = .idle) (held : world.promises name = some slot)
    (pending : (world.slots slot).completed = false) :
    WorldSound { world with promisePoint := .store slot completion none } := by
  rcases sound.promiseHeld idle held with ⟨known, unreleased, live⟩
  apply sound.promiseTo known
  case before =>
    rw [idle]
    exact PromisePoint.only_idle slot
  case after => exact PromisePoint.only_of_touches rfl
  case live => exact live.promiseTo rfl ⟨live.promise.1, unreleased, pending⟩
  case held =>
    have holding := sound.promises
    rw [idle] at holding
    exact holding

/-- A step of the thread of the promises keeps the invariant. -/
theorem WorldSound.promiseStep [DecidableEq PromiseName]
    {after : World flavour (backend.valueBits concurrency) concurrency.bits PromiseName FutureName}
    (sound : WorldSound world) (move : PromiseStep world after) : WorldSound after := by
  have holding := sound.promises
  cases move with
  | setValue name slot value idle held pending => exact sound.beginStore _ idle held pending
  | setException name slot failure idle held pending => exact sound.beginStore _ idle held pending
  | run name slot completion idle held pending => exact sound.beginStore _ idle held pending
  | assignEmpty assignment idle empty =>
      rw [idle] at holding
      refine { sound with promises := idle ▸ holding.perform ?_ ?_ }
      · intro place held
        cases empty.symm.trans held
      · intro other place under
        cases under
  | abandon assignment slot idle held =>
      rcases sound.promiseHeld idle held with ⟨known, unreleased, live⟩
      rw [idle] at holding
      apply sound.promiseTo known
      case before =>
        rw [idle]
        exact PromisePoint.only_idle slot
      case after => exact PromisePoint.only_of_touches rfl
      case live => exact live.promiseTo rfl ⟨live.promise.1, unreleased⟩
      case held => exact holding.start held
  | testCompleted slot assignment place completed =>
      have live := sound.promiseSlot place rfl
      rw [place] at holding
      apply sound.promiseTo (sound.promiseMade slot (place ▸ rfl))
      case before => exact place ▸ PromisePoint.only_of_touches rfl
      case after => exact PromisePoint.only_of_touches rfl
      case live => exact live.promiseTo rfl ⟨live.promise.1, live.promise.2, completed⟩
      case held => exact holding
  | testPending slot assignment place pending =>
      have live := sound.promiseSlot place rfl
      rw [place] at holding
      apply sound.promiseTo (sound.promiseMade slot (place ▸ rfl))
      case before => exact place ▸ PromisePoint.only_of_touches rfl
      case after => exact PromisePoint.only_of_touches rfl
      case live => exact live.promiseTo rfl ⟨live.promise.1, live.promise.2, pending⟩
      case held => exact holding
  | store slot completion abandoning place =>
      have live := sound.promiseSlot place rfl
      rw [place] at holding
      apply sound.of_promise (sound.promiseMade slot (place ▸ rfl))
      case before => exact place ▸ PromisePoint.only_of_touches rfl
      case after => exact PromisePoint.only_of_touches rfl
      case kept => rfl
      case live => exact live.complete
      case held =>
        have same : ((world.slots slot).complete completion).released .promise =
            (world.slots slot).released .promise := rfl
        rw [same, Function.update_eq_self]
        exact holding
  | signalled slot abandoning place returned =>
      have live := sound.promiseSlot place rfl
      rw [place] at holding
      cases abandoning with
      | none =>
          apply sound.promiseTo (sound.promiseMade slot (place ▸ rfl))
          case before => exact place ▸ PromisePoint.only_of_touches rfl
          case after => exact PromisePoint.only_idle slot
          case live => exact live.promiseTo rfl ⟨returned, fun _ => live.promise.2⟩
          case held => exact holding
      | some assignment =>
          apply sound.promiseTo (sound.promiseMade slot (place ▸ rfl))
          case before => exact place ▸ PromisePoint.only_of_touches rfl
          case after => exact PromisePoint.only_of_touches rfl
          case live => exact live.promiseTo rfl ⟨returned, live.promise.1, live.promise.2⟩
          case held => exact holding
  | releaseFirst slot assignment place several =>
      have live := (sound.promiseSlot place rfl).releasePromise
      rw [if_neg several] at live
      rw [place] at holding
      apply sound.of_promise (sound.promiseMade slot (place ▸ rfl))
      case before => exact place ▸ PromisePoint.only_of_touches rfl
      case after => exact PromisePoint.only_idle slot
      case kept => exact (released_release _ _ _).trans (if_neg (by decide))
      case live => exact live
      case held =>
        rw [released_release, if_pos rfl]
        exact holding.let_go.performCurrent (Function.update_self _ _ _)
  | releaseLast slot assignment place last =>
      have live := (sound.promiseSlot place rfl).releasePromise
      rw [if_pos last] at live
      rw [place] at holding
      apply sound.of_promise (sound.promiseMade slot (place ▸ rfl))
      case before => exact place ▸ PromisePoint.only_of_touches rfl
      case after => exact PromisePoint.only_of_touches rfl
      case kept => exact (released_release _ _ _).trans (if_neg (by decide))
      case live => exact live
      case held =>
        rw [released_release, if_pos rfl]
        exact holding.let_go
  | delete slot assignment place =>
      have live := sound.promiseSlot place rfl
      rw [place] at holding
      apply sound.of_promise (sound.promiseMade slot (place ▸ rfl))
      case before => exact place ▸ PromisePoint.only_of_touches rfl
      case after => exact PromisePoint.only_idle slot
      case kept => rfl
      case live => exact live.deletePromise
      case held =>
        have same : (world.slots slot).delete.released .promise = (world.slots slot).released .promise := rfl
        rw [same, Function.update_eq_self]
        exact holding.performCurrent live.promise.2.1

/-- A call of the future begins with a test of `waited_`. -/
theorem WorldSound.beginTest (sound : WorldSound world) {name : FutureName} {slot : Nat} {purpose : Purpose FutureName}
    (idle : world.futurePoint = .idle) (held : world.futures name = some slot)
    (holds : Holding world.futures world.made (fun place => (world.slots place).released .future)
      (FuturePoint.test slot purpose).current) :
    WorldSound { world with futurePoint := .test slot purpose } := by
  rcases sound.futureHeld idle held with ⟨known, unreleased, live⟩
  apply sound.futureTo known
  case before =>
    rw [idle]
    exact FuturePoint.only_idle slot
  case after => exact FuturePoint.only_of_touches rfl
  case live => exact live.futureTo rfl rfl ⟨live.future.1, unreleased⟩
  case held => exact holds

/-- A step of the thread of the futures keeps the invariant. -/
theorem WorldSound.futureStep [DecidableEq FutureName]
    {after : World flavour (backend.valueBits concurrency) concurrency.bits PromiseName FutureName}
    (sound : WorldSound world) (move : FutureStep world after) : WorldSound after := by
  have holding := sound.futures
  cases move with
  | wait name slot idle held | get name slot idle held =>
      rw [idle] at holding
      exact sound.beginTest idle held holding
  | assignEmpty assignment idle empty =>
      rw [idle] at holding
      refine { sound with futures := idle ▸ holding.perform ?_ ?_ }
      · intro place held
        cases empty.symm.trans held
      · intro other place under
        cases under
  | release assignment slot idle held =>
      rw [idle] at holding
      exact sound.beginTest idle held (holding.start held)
  | testWaited slot purpose place waited =>
      have live := sound.futureSlot place rfl
      rw [place] at holding
      cases purpose with
      | wait =>
          apply sound.futureTo (sound.futureMade slot (place ▸ rfl))
          case before => exact place ▸ FuturePoint.only_of_touches rfl
          case after => exact FuturePoint.only_idle slot
          case live => exact live.futureTo rfl rfl ⟨live.future.1, fun _ => waited⟩
          case held => exact holding
      | get | release =>
          apply sound.futureTo (sound.futureMade slot (place ▸ rfl))
          case before => exact place ▸ FuturePoint.only_of_touches rfl
          case after => exact FuturePoint.only_of_touches rfl
          case live => exact live.futureTo rfl rfl ⟨live.future.1, live.future.2, waited⟩
          case held => exact holding
  | callWait slot purpose place unwaited =>
      have live := sound.futureSlot place rfl
      rw [place] at holding
      apply sound.of_future (sound.futureMade slot (place ▸ rfl))
      case before => exact place ▸ FuturePoint.only_of_touches rfl
      case after => exact FuturePoint.only_of_touches rfl
      case kept => rfl
      case live => exact live.callWait unwaited
      case held =>
        have same : (world.slots slot).callWait.released .future = (world.slots slot).released .future := rfl
        rw [same, Function.update_eq_self]
        cases purpose <;> exact holding
  | waited slot purpose place returned =>
      have live := sound.futureSlot place rfl
      rw [place] at holding
      apply sound.futureTo (sound.futureMade slot (place ▸ rfl))
      case before => exact place ▸ FuturePoint.only_of_touches rfl
      case after => exact FuturePoint.only_of_touches rfl
      case live => exact live.futureTo rfl rfl ⟨returned, live.future⟩
      case held => cases purpose <;> exact holding
  | store slot purpose place =>
      have live := sound.futureSlot place rfl
      rw [place] at holding
      have same : (Slot.released { world.slots slot with waited := true } .future) =
          (world.slots slot).released .future := rfl
      cases purpose with
      | wait =>
          apply sound.of_future (sound.futureMade slot (place ▸ rfl))
          case before => exact place ▸ FuturePoint.only_of_touches rfl
          case after => exact FuturePoint.only_idle slot
          case kept => rfl
          case live => exact live.recordWait rfl rfl ⟨live.future.1, fun _ => rfl⟩
          case held =>
            rw [same, Function.update_eq_self]
            exact holding
      | get | release =>
          apply sound.of_future (sound.futureMade slot (place ▸ rfl))
          case before => exact place ▸ FuturePoint.only_of_touches rfl
          case after => exact FuturePoint.only_of_touches rfl
          case kept => rfl
          case live => exact live.recordWait rfl rfl ⟨live.future.1, live.future.2.1, rfl⟩
          case held =>
            rw [same, Function.update_eq_self]
            exact holding
  | read slot place =>
      have live := sound.futureSlot place rfl
      rw [place] at holding
      apply sound.of_future (sound.futureMade slot (place ▸ rfl))
      case before => exact place ▸ FuturePoint.only_of_touches rfl
      case after => exact FuturePoint.only_idle slot
      case kept => rfl
      case live => exact live.get
      case held =>
        have same : (world.slots slot).get.released .future = (world.slots slot).released .future := rfl
        rw [same, Function.update_eq_self]
        exact holding
  | releaseFirst slot assignment place several =>
      have live := (sound.futureSlot place rfl).releaseFuture
      rw [if_neg several] at live
      rw [place] at holding
      apply sound.of_future (sound.futureMade slot (place ▸ rfl))
      case before => exact place ▸ FuturePoint.only_of_touches rfl
      case after => exact FuturePoint.only_idle slot
      case kept => exact (released_release _ _ _).trans (if_neg (by decide))
      case live => exact live
      case held =>
        rw [released_release, if_pos rfl]
        exact holding.let_go.performCurrent (Function.update_self _ _ _)
  | releaseLast slot assignment place last =>
      have live := (sound.futureSlot place rfl).releaseFuture
      rw [if_pos last] at live
      rw [place] at holding
      apply sound.of_future (sound.futureMade slot (place ▸ rfl))
      case before => exact place ▸ FuturePoint.only_of_touches rfl
      case after => exact FuturePoint.only_of_touches rfl
      case kept => exact (released_release _ _ _).trans (if_neg (by decide))
      case live => exact live
      case held =>
        rw [released_release, if_pos rfl]
        exact holding.let_go
  | delete slot assignment place =>
      have live := sound.futureSlot place rfl
      rw [place] at holding
      apply sound.of_future (sound.futureMade slot (place ▸ rfl))
      case before => exact place ▸ FuturePoint.only_of_touches rfl
      case after => exact FuturePoint.only_idle slot
      case kept => rfl
      case live => exact live.deleteFuture
      case held =>
        have same : (world.slots slot).delete.released .future = (world.slots slot).released .future := rfl
        rw [same, Function.update_eq_self]
        exact holding.performCurrent live.future.2.1

/-- A step inside `signal()` or `wait()` keeps the invariant. -/
theorem WorldSound.semaphoreStep (sound : WorldSound world) {slot : Nat}
    {semaphore : SemaphoreState Side (backend.valueBits concurrency) concurrency.bits}
    (move : SemaphoreStep (world.slots slot).semaphore semaphore)
    (inside : Inside (world.slots slot).semaphore semaphore) :
    WorldSound (world.onSlot slot { world.slots slot with semaphore := semaphore }) := by
  have released : forall side, (fun place =>
      ((world.onSlot slot { world.slots slot with semaphore := semaphore }).slots place).released side) =
        fun place => (world.slots place).released side := by
    intro side
    rw [released_onSlot]
    exact Function.update_eq_self slot (fun place => (world.slots place).released side)
  constructor
  case slots =>
    intro place
    by_cases same : place = slot
    · rw [same]
      change SlotSound (Function.update world.slots slot _ slot) _ _
      rw [Function.update_self]
      exact (sound.slots slot).semaphore move inside
    · change SlotSound (Function.update world.slots slot _ place) _ _
      rw [Function.update_of_ne same]
      exact sound.slots place
  case promises => exact (released .promise).symm ▸ sound.promises
  case futures => exact (released .future).symm ▸ sound.futures
  case promiseMade => exact sound.promiseMade
  case futureMade => exact sound.futureMade

/-- `make()` keeps the invariant. -/
theorem WorldSound.make [DecidableEq PromiseName] [DecidableEq FutureName] (sound : WorldSound world)
    {promise : PromiseName} {future : FutureName} (freePromise : world.promises promise = none)
    (freeFuture : world.futures future = none)
    (unusedPromise : forall assignment, world.promisePoint.assignment = some assignment -> ¬ assignment.mentions promise)
    (unusedFuture : forall assignment, world.futurePoint.assignment = some assignment -> ¬ assignment.mentions future) :
    WorldSound
      { world.onSlot world.made (.fresh flavour (backend.valueBits concurrency) concurrency.bits) with
        made := world.made + 1
        promises := Function.update world.promises promise (some world.made)
        futures := Function.update world.futures future (some world.made) } where
  slots := by
    intro place
    by_cases same : place = world.made
    · have promiseAway : world.promisePoint.phase world.made = .away :=
        if_neg (fun touched => Nat.lt_irrefl _ (sound.promiseMade _ touched))
      have futureAway : world.futurePoint.phase world.made = .away :=
        if_neg (fun touched => Nat.lt_irrefl _ (sound.futureMade _ touched))
      rw [same]
      change SlotSound (Function.update world.slots world.made _ world.made) (world.promisePoint.phase world.made)
        (world.futurePoint.phase world.made)
      rw [Function.update_self, promiseAway, futureAway]
      exact slotSound_fresh
    · change SlotSound (Function.update world.slots world.made _ place) _ _
      rw [Function.update_of_ne same]
      exact sound.slots place
  promises := by
    have holding := sound.promises.make freePromise
      (fun assignment place under => unusedPromise assignment (PromisePoint.of_current under).1)
    exact (released_onSlot world world.made (.fresh flavour _ _) .promise).symm ▸ holding
  futures := by
    have holding := sound.futures.make freeFuture
      (fun assignment place under => unusedFuture assignment (FuturePoint.of_current under).1)
    exact (released_onSlot world world.made (.fresh flavour _ _) .future).symm ▸ holding
  promiseMade := fun slot touched => Nat.lt_succ_of_lt (sound.promiseMade slot touched)
  futureMade := fun slot touched => Nat.lt_succ_of_lt (sound.futureMade slot touched)

theorem worldSound_of_reachable [DecidableEq PromiseName] [DecidableEq FutureName]
    (reachable : (futureSystem flavour (backend.valueBits concurrency) concurrency.bits PromiseName
      FutureName).Reachable world) : WorldSound world := by
  refine reachable.invariant ?_ ?_
  · intro state first
    cases first
    exact worldSound_empty
  · intro before after _ sound move
    cases move with
    | promise step => exact sound.promiseStep step
    | future step => exact sound.futureStep step
    | semaphore slot semaphore step inside => exact sound.semaphoreStep step inside
    | make promise future freePromise freeFuture unusedPromise unusedFuture =>
        exact sound.make freePromise freeFuture unusedPromise unusedFuture

end Worlds

end Futures
end Sweater
