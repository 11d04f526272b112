import Sweater.Futures.SlotSemaphore

namespace Sweater
namespace Futures

open Interleaving
open Threading

/-!
# Promises and futures, one atomic operation at a time

A constructor performs one operation on a slot together with the thread-local
control flow up to the next one.  The steps of the two threads inside `signal()`
and `wait()` are those of the futex semaphore.

The program is free to call what it likes, with two exceptions that the code
asserts: `set_value`, `set_exception` and `run` are called on a promise that has
a slot, and at most once for each slot.  The work that is given to `run` keeps
to this as well: it does not touch the promise that runs it, and a call of `run`
is the completion that its work ends with.
-/

variable {T E : Type} {flavour : Flavour T E} {width bits : Nat} {PromiseName FutureName : Type}
  [DecidableEq PromiseName] [DecidableEq FutureName]

namespace Slot

/-- The writes of `set_value` and `set_exception`, and the call of `signal()`. -/
def complete (slot : Slot flavour width bits) (completion : Completion T E) : Slot flavour width bits :=
  { slot with
    data := flavour.store completion slot.data
    completed := true
    completions := slot.completions ++ [completion]
    semaphore := slot.semaphore.goto .promise (.signalAdd 1) }

/-- The call of `completion_.wait()`. -/
def callWait (slot : Slot flavour width bits) : Slot flavour width bits :=
  { slot with semaphore := slot.semaphore.goto .future .waitSubtract }

/-- `get()`, after the wait. -/
def get (slot : Slot flavour width bits) : Slot flavour width bits :=
  { slot with
    data := (flavour.get slot.data).2
    results := slot.results ++ [(flavour.get slot.data).1] }

/-- `owners_.fetch_sub( 1 )` by one of the owners. -/
def release (slot : Slot flavour width bits) (side : Side) : Slot flavour width bits :=
  { slot with
    owners := slot.owners - 1
    released := Function.update slot.released side true }

/-- `delete this` -/
def delete (slot : Slot flavour width bits) : Slot flavour width bits :=
  { slot with deletions := slot.deletions + 1 }

end Slot

/-- The thread of the promises. -/
inductive PromiseStep : World flavour width bits PromiseName FutureName ->
    World flavour width bits PromiseName FutureName -> Prop
  | setValue {world} (name slot value) :
      world.promisePoint = .idle -> world.promises name = some slot -> (world.slots slot).completed = false ->
      PromiseStep world { world with promisePoint := .store slot (.value value) none }
  | setException {world} (name slot failure) :
      world.promisePoint = .idle -> world.promises name = some slot -> (world.slots slot).completed = false ->
      PromiseStep world { world with promisePoint := .store slot (.exception failure) none }
  /-- `run`, when the work has returned a value or has thrown -/
  | run {world} (name slot completion) :
      world.promisePoint = .idle -> world.promises name = some slot -> (world.slots slot).completed = false ->
      PromiseStep world { world with promisePoint := .store slot completion none }
  /-- a destruction, a move construction or a move assignment of a promise that has no slot -/
  | assignEmpty {world} (assignment : Assignment PromiseName) :
      world.promisePoint = .idle -> world.promises assignment.target = none ->
      PromiseStep world { world with promises := assignment.perform world.promises }
  /-- a destruction or a move assignment of a promise that has a slot -/
  | abandon {world} (assignment : Assignment PromiseName) (slot) :
      world.promisePoint = .idle -> world.promises assignment.target = some slot ->
      PromiseStep world { world with promisePoint := .test slot assignment }
  | testCompleted {world} (slot assignment) :
      world.promisePoint = .test slot assignment -> (world.slots slot).completed = true ->
      PromiseStep world { world with promisePoint := .release slot assignment }
  | testPending {world} (slot assignment) :
      world.promisePoint = .test slot assignment -> (world.slots slot).completed = false ->
      PromiseStep world
        { world with promisePoint := .store slot (.exception .brokenPromise) (some assignment) }
  | store {world} (slot completion abandoning) :
      world.promisePoint = .store slot completion abandoning ->
      PromiseStep world
        { world.onSlot slot ((world.slots slot).complete completion) with
          promisePoint := .signal slot abandoning }
  | signalled {world} (slot abandoning) :
      world.promisePoint = .signal slot abandoning -> (world.slots slot).semaphore.points .promise = .idle ->
      PromiseStep world { world with promisePoint := .afterSignal slot abandoning }
  | releaseFirst {world} (slot assignment) :
      world.promisePoint = .release slot assignment -> (world.slots slot).owners ≠ 1 ->
      PromiseStep world
        { world.onSlot slot ((world.slots slot).release .promise) with
          promises := assignment.perform world.promises
          promisePoint := .idle }
  | releaseLast {world} (slot assignment) :
      world.promisePoint = .release slot assignment -> (world.slots slot).owners = 1 ->
      PromiseStep world
        { world.onSlot slot ((world.slots slot).release .promise) with promisePoint := .delete slot assignment }
  | delete {world} (slot assignment) :
      world.promisePoint = .delete slot assignment ->
      PromiseStep world
        { world.onSlot slot (world.slots slot).delete with
          promises := assignment.perform world.promises
          promisePoint := .idle }

/-- The thread of the futures. -/
inductive FutureStep : World flavour width bits PromiseName FutureName ->
    World flavour width bits PromiseName FutureName -> Prop
  | wait {world} (name slot) :
      world.futurePoint = .idle -> world.futures name = some slot ->
      FutureStep world { world with futurePoint := .test slot .wait }
  | get {world} (name slot) :
      world.futurePoint = .idle -> world.futures name = some slot ->
      FutureStep world { world with futurePoint := .test slot .get }
  /-- a destruction, a move construction or a move assignment of a future that has no slot -/
  | assignEmpty {world} (assignment : Assignment FutureName) :
      world.futurePoint = .idle -> world.futures assignment.target = none ->
      FutureStep world { world with futures := assignment.perform world.futures }
  /-- a destruction or a move assignment of a future that has a slot -/
  | release {world} (assignment : Assignment FutureName) (slot) :
      world.futurePoint = .idle -> world.futures assignment.target = some slot ->
      FutureStep world { world with futurePoint := .test slot (.release assignment) }
  | testWaited {world} (slot purpose) :
      world.futurePoint = .test slot purpose -> (world.slots slot).waited = true ->
      FutureStep world { world with futurePoint := .afterWait slot purpose }
  | callWait {world} (slot purpose) :
      world.futurePoint = .test slot purpose -> (world.slots slot).waited = false ->
      FutureStep world
        { world.onSlot slot (world.slots slot).callWait with futurePoint := .wait slot purpose }
  | waited {world} (slot purpose) :
      world.futurePoint = .wait slot purpose -> (world.slots slot).semaphore.points .future = .idle ->
      FutureStep world { world with futurePoint := .store slot purpose }
  | store {world} (slot purpose) :
      world.futurePoint = .store slot purpose ->
      FutureStep world
        { world.onSlot slot { world.slots slot with waited := true } with
          futurePoint := .afterWait slot purpose }
  | read {world} (slot) :
      world.futurePoint = .read slot ->
      FutureStep world { world.onSlot slot (world.slots slot).get with futurePoint := .idle }
  | releaseFirst {world} (slot assignment) :
      world.futurePoint = .release slot assignment -> (world.slots slot).owners ≠ 1 ->
      FutureStep world
        { world.onSlot slot ((world.slots slot).release .future) with
          futures := assignment.perform world.futures
          futurePoint := .idle }
  | releaseLast {world} (slot assignment) :
      world.futurePoint = .release slot assignment -> (world.slots slot).owners = 1 ->
      FutureStep world
        { world.onSlot slot ((world.slots slot).release .future) with futurePoint := .delete slot assignment }
  | delete {world} (slot assignment) :
      world.futurePoint = .delete slot assignment ->
      FutureStep world
        { world.onSlot slot (world.slots slot).delete with
          futures := assignment.perform world.futures
          futurePoint := .idle }

/-- A step of either thread, or of its semaphore operation, or the making of a
new pair by anybody. -/
inductive WorldStep : World flavour width bits PromiseName FutureName ->
    World flavour width bits PromiseName FutureName -> Prop
  | promise {before after} : PromiseStep before after -> WorldStep before after
  | future {before after} : FutureStep before after -> WorldStep before after
  | semaphore {world} (slot semaphore) :
      SemaphoreStep (world.slots slot).semaphore semaphore -> Inside (world.slots slot).semaphore semaphore ->
      WorldStep world (world.onSlot slot { world.slots slot with semaphore := semaphore })
  /-- `make()`, into two objects that have no slot and are not being used -/
  | make {world} (promise future) :
      world.promises promise = none -> world.futures future = none ->
      (forall assignment, world.promisePoint.assignment = some assignment -> ¬ assignment.mentions promise) ->
      (forall assignment, world.futurePoint.assignment = some assignment -> ¬ assignment.mentions future) ->
      WorldStep world
        { world.onSlot world.made (.fresh flavour width bits) with
          made := world.made + 1
          promises := Function.update world.promises promise (some world.made)
          futures := Function.update world.futures future (some world.made) }

/-- Any program of a thread of promises and a thread of futures. -/
def futureSystem (flavour : Flavour T E) (width bits : Nat) (PromiseName FutureName : Type)
    [DecidableEq PromiseName] [DecidableEq FutureName] :
    System (World flavour width bits PromiseName FutureName) where
  initial := fun world => world = .empty flavour width bits PromiseName FutureName
  step := WorldStep

end Futures
end Sweater
