import Sweater.Futures.Steps

namespace Sweater
namespace Futures

open Interleaving
open Threading
open Threading.SemaphoreState

/-!
# The life of one slot

A slot is seen by each of the two threads through a phase: what the thread is
about to do with this slot.  `SlotSound` is what holds of a slot in every such
pair of phases.  The lemmas follow the operations of the code, and each moves
the phase of one thread.
-/

variable {T E : Type}

/-- What the thread of the promises is about to do with a slot. -/
inductive PromisePhase (T E : Type)
  | away
  | test
  | store (completion : Completion T E)
  | signal
  | release
  | delete

/-- What the thread of the futures is about to do with a slot. -/
inductive FuturePhase
  | away
  | test
  | wait
  | store
  | read
  | release
  | delete

namespace PromisePhase

/-- One before `delete this`. -/
def deleting : PromisePhase T E -> Nat
  | delete => 1
  | _ => 0

end PromisePhase

namespace FuturePhase

/-- One before `delete this`. -/
def deleting : FuturePhase -> Nat
  | delete => 1
  | _ => 0

/-- One between the call of `completion_.wait()` and the write of `waited_`. -/
def unrecorded : FuturePhase -> Nat
  | wait => 1
  | store => 1
  | _ => 0

end FuturePhase

section Soundness

variable {flavour : Flavour T E} {width bits : Nat}

/-- What the thread of the promises relies on. -/
def PromiseAt (slot : Slot flavour width bits) : PromisePhase T E -> Prop
  | .away => slot.semaphore.points .promise = .idle ∧ (slot.released .promise = true -> slot.completed = true)
  | .test => slot.semaphore.points .promise = .idle ∧ slot.released .promise = false
  | .store _ => slot.semaphore.points .promise = .idle ∧ slot.released .promise = false ∧ slot.completed = false
  | .signal => slot.released .promise = false ∧ slot.completed = true
  | .release => slot.semaphore.points .promise = .idle ∧ slot.released .promise = false ∧ slot.completed = true
  | .delete => slot.semaphore.points .promise = .idle ∧ slot.released .promise = true ∧ slot.completed = true

/-- What the thread of the futures relies on. -/
def FutureAt (slot : Slot flavour width bits) : FuturePhase -> Prop
  | .away => slot.semaphore.points .future = .idle ∧ (slot.released .future = true -> slot.waited = true)
  | .test => slot.semaphore.points .future = .idle ∧ slot.released .future = false
  | .wait => slot.released .future = false ∧ slot.waited = false
  | .store => slot.semaphore.points .future = .idle ∧ slot.released .future = false ∧ slot.waited = false
  | .read => slot.semaphore.points .future = .idle ∧ slot.released .future = false ∧ slot.waited = true
  | .release => slot.semaphore.points .future = .idle ∧ slot.released .future = false ∧ slot.waited = true
  | .delete => slot.semaphore.points .future = .idle ∧ slot.released .future = true ∧ slot.waited = true

/-- The completion of a slot, and what has been read of it. -/
structure ContentSound (slot : Slot flavour width bits) : Prop where
  once : slot.completions.length = slot.completed.toNat
  data : slot.results = [] ->
    slot.data = slot.completions.foldl (fun data completion => flavour.store completion data) flavour.fresh
  first : slot.results ≠ [] -> slot.results.head? = some slot.completions.head?
  unread : slot.waited = false -> slot.results = []
  served : slot.waited = true -> slot.completed = true

/-- The owners that are left, and the deletion that the last of them owes. -/
structure OwnersSound (slot : Slot flavour width bits) (promise : PromisePhase T E) (future : FuturePhase) :
    Prop where
  owners : slot.owners.toNat + (slot.released .promise).toNat + (slot.released .future).toNat = 2
  deletions : slot.deletions + promise.deleting + future.deleting =
    (slot.released .promise && slot.released .future).toNat

variable {slot after : Slot flavour width bits}

theorem PromiseAt.of_same {phase : PromisePhase T E} (holds : PromiseAt slot phase)
    (points : after.semaphore.points .promise = slot.semaphore.points .promise)
    (released : after.released .promise = slot.released .promise) (completed : after.completed = slot.completed) :
    PromiseAt after phase := by
  cases phase <;> simpa only [PromiseAt, points, released, completed] using holds

theorem FutureAt.of_same {phase : FuturePhase} (holds : FutureAt slot phase)
    (points : after.semaphore.points .future = slot.semaphore.points .future)
    (released : after.released .future = slot.released .future) (waited : after.waited = slot.waited) :
    FutureAt after phase := by
  cases phase <;> simpa only [FutureAt, points, released, waited] using holds

theorem ContentSound.of_same (sound : ContentSound slot) (completions : after.completions = slot.completions)
    (results : after.results = slot.results) (data : after.data = slot.data)
    (completed : after.completed = slot.completed) (waited : after.waited = slot.waited) : ContentSound after where
  once := by
    rw [completions, completed]
    exact sound.once
  data := by
    rw [results, data, completions]
    exact sound.data
  first := by
    rw [results, completions]
    exact sound.first
  unread := by
    rw [results, waited]
    exact sound.unread
  served := by
    rw [completed, waited]
    exact sound.served

theorem released_release (slot : Slot flavour width bits) (side other : Side) :
    (slot.release side).released other = if other = side then true else slot.released other :=
  Function.update_apply _ _ _ _

theorem points_goto (semaphore : SemaphoreState Side width bits) (side other : Side)
    (point : SemaphorePoint width bits) :
    (semaphore.goto side point).points other = if other = side then point else semaphore.points other :=
  Function.update_apply _ _ _ _

end Soundness

section Runs

variable {flavour : Flavour T E} {backend : FutexBackend} {concurrency : HardwareConcurrency}

/-- What holds of a slot, with the phases of the two threads. -/
structure SlotSound (slot : Slot flavour (backend.valueBits concurrency) concurrency.bits)
    (promise : PromisePhase T E) (future : FuturePhase) : Prop where
  reachable : SlotReachable slot.semaphore
  uses : Uses slot.completed.toNat (slot.waited.toNat + future.unrecorded) slot.semaphore
  contents : ContentSound slot
  owners : OwnersSound slot promise future
  promise : PromiseAt slot promise
  future : FutureAt slot future

variable {slot : Slot flavour (backend.valueBits concurrency) concurrency.bits} {promise : PromisePhase T E}
  {future : FuturePhase}

theorem concurrency_bits_pos (concurrency : HardwareConcurrency) : 0 < concurrency.bits := by
  cases concurrency <;> decide

theorem slotSound_fresh :
    SlotSound (.fresh flavour (backend.valueBits concurrency) concurrency.bits) .away .away where
  reachable := by
    refine .initial ⟨rfl, ?_⟩
    have uses : Uses 0 0 (SemaphoreState.fresh : SemaphoreState Side (backend.valueBits concurrency)
        concurrency.bits) := ⟨rfl, rfl, rfl, rfl⟩
    exact uses.inRange (Nat.zero_le 1) (concurrency_bits_pos concurrency) (backend.one_lt_valueBits concurrency)
  uses := ⟨rfl, rfl, rfl, rfl⟩
  contents := ⟨rfl, fun _ => rfl, fun read => absurd rfl read, fun _ => rfl, fun waited => nomatch waited⟩
  owners := ⟨rfl, rfl⟩
  promise := ⟨rfl, fun released => nomatch released⟩
  future := ⟨rfl, fun released => nomatch released⟩

/-- A step of the semaphore of a slot. -/
theorem slotReachable_step {before after : SemaphoreState Side (backend.valueBits concurrency) concurrency.bits}
    {signals waits : Nat} (reachable : SlotReachable before) (uses : Uses signals waits after) (few : signals ≤ 1)
    (move : SemaphoreStep before after) : SlotReachable after :=
  .step reachable
    ⟨move, uses.inRange few (concurrency_bits_pos concurrency) (backend.one_lt_valueBits concurrency)⟩

/-- The thread of the promises goes on without touching the slot. -/
theorem SlotSound.promiseTo (sound : SlotSound slot promise future) {next : PromisePhase T E}
    (deleting : next.deleting = promise.deleting) (holds : PromiseAt slot next) : SlotSound slot next future :=
  { sound with
    owners := { sound.owners with deletions := deleting ▸ sound.owners.deletions }
    promise := holds }

/-- The thread of the futures goes on without touching the slot. -/
theorem SlotSound.futureTo (sound : SlotSound slot promise future) {next : FuturePhase}
    (deleting : next.deleting = future.deleting) (unrecorded : next.unrecorded = future.unrecorded)
    (holds : FutureAt slot next) : SlotSound slot promise next :=
  { sound with
    uses := unrecorded ▸ sound.uses
    owners := { sound.owners with deletions := deleting ▸ sound.owners.deletions }
    future := holds }

/-! ## The owners -/

/-- One of two owners lets go.  It is the last one if the other has already
done so. -/
theorem release_owner {owners : BitVec 8} {other : Bool} (two : owners.toNat + other.toNat = 2) :
    (owners - 1).toNat + 1 + other.toNat = 2 ∧ (if owners = 1 then 1 else 0) = other.toNat := by
  have one : owners = 1 ↔ owners.toNat = 1 := by
    rw [← BitVec.toNat_inj]
    rfl
  have left : (owners - 1).toNat = (255 + owners.toNat) % 256 := BitVec.toNat_sub _ _
  cases other with
  | false =>
      change owners.toNat + 0 = 2 at two
      have several : ¬ owners = 1 := by
        rw [one]
        omega
      exact ⟨by change _ + 1 + 0 = 2; omega, if_neg several⟩
  | true =>
      change owners.toNat + 1 = 2 at two
      exact ⟨by change _ + 1 + 1 = 2; omega, if_pos (one.mpr (by omega))⟩

theorem OwnersSound.releasePromise (sound : OwnersSound slot .release future)
    (held : slot.released .promise = false) {next : PromisePhase T E}
    (owed : next.deleting = if slot.owners = 1 then 1 else 0) :
    OwnersSound (slot.release .promise) next future := by
  have owners := sound.owners
  have deletions := sound.deletions
  rw [held] at owners deletions
  rcases release_owner owners with ⟨left, last⟩
  constructor
  · rw [released_release, released_release, if_pos rfl, if_neg (by decide)]
    exact left
  · rw [owed, last]
    change slot.deletions + 0 + future.deleting = 0 at deletions
    simp [Slot.release]
    omega

theorem OwnersSound.releaseFuture (sound : OwnersSound slot promise .release)
    (held : slot.released .future = false) {next : FuturePhase}
    (owed : next.deleting = if slot.owners = 1 then 1 else 0) :
    OwnersSound (slot.release .future) promise next := by
  have owners := sound.owners
  have deletions := sound.deletions
  rw [held, Bool.and_false] at deletions
  rw [held] at owners
  rcases release_owner owners with ⟨left, last⟩
  constructor
  · rw [released_release, released_release, if_neg (by decide), if_pos rfl]
    change (slot.owners - 1).toNat + _ + 1 = 2
    omega
  · rw [owed, last]
    change slot.deletions + promise.deleting + 0 = 0 at deletions
    simp [Slot.release]
    omega

/-! ## The operations of a promise -/

theorem SlotSound.semaphore (sound : SlotSound slot promise future)
    {next : SemaphoreState Side (backend.valueBits concurrency) concurrency.bits}
    (move : SemaphoreStep slot.semaphore next) (inside : Inside slot.semaphore next) :
    SlotSound { slot with semaphore := next } promise future where
  reachable := slotReachable_step sound.reachable
    (sound.uses.step (concurrency_bits_pos concurrency) move inside) (Bool.toNat_le _) move
  uses := sound.uses.step (concurrency_bits_pos concurrency) move inside
  contents := sound.contents.of_same rfl rfl rfl rfl rfl
  owners := ⟨sound.owners.owners, sound.owners.deletions⟩
  promise := by
    have holds := sound.promise
    cases promise with
    | signal => exact holds
    | _ => exact ⟨inside _ holds.1, holds.2⟩
  future := by
    have holds := sound.future
    cases future with
    | wait => exact holds
    | _ => exact ⟨inside _ holds.1, holds.2⟩

/-- The writes of `set_value` or `set_exception`, and the call of `signal()`. -/
theorem SlotSound.complete {completion : Completion T E} (sound : SlotSound slot (.store completion) future) :
    SlotSound (slot.complete completion) .signal future := by
  rcases sound.promise with ⟨idle, held, pending⟩
  have untouched : (slot.complete completion).semaphore.points .future = slot.semaphore.points .future :=
    (points_goto _ _ _ _).trans (if_neg (by decide))
  have calling : (slot.complete completion).semaphore.points .promise = .signalAdd 1 :=
    (points_goto _ _ _ _).trans (if_pos rfl)
  have sent := sound.uses.signals
  rw [idle, pending] at sent
  change slot.semaphore.signalled + 0 = 0 at sent
  have uses : Uses 1 (slot.waited.toNat + future.unrecorded) (slot.complete completion).semaphore := by
    refine ⟨?_, ?_, ?_, ?_⟩
    · rw [calling]
      exact beq_self_eq_true _
    · rw [untouched]
      exact sound.uses.future
    · rw [calling]
      exact congrArg (fun signalled => signalled + 1) sent
    · rw [untouched]
      exact sound.uses.waits
  have unwaited : slot.waited = false := by
    by_contra waited
    have served := sound.contents.served (Bool.not_eq_false _ ▸ waited)
    rw [pending] at served
    cases served
  have empty : slot.completions = [] := by
    apply List.eq_nil_of_length_eq_zero
    rw [sound.contents.once, pending]
    rfl
  constructor
  case reachable =>
    refine slotReachable_step sound.reachable uses (Nat.le_refl 1) (.callSignal Side.promise 1 idle ?_)
    cases concurrency <;> decide
  case uses => exact uses
  case contents =>
    constructor
    · change (slot.completions ++ [completion]).length = 1
      rw [empty]
      rfl
    · intro unread
      change flavour.store completion slot.data = (slot.completions ++ [completion]).foldl _ _
      rw [sound.contents.data unread, empty]
      rfl
    · intro read
      exact absurd (sound.contents.unread unwaited) read
    · exact sound.contents.unread
    · exact fun _ => rfl
  case owners => exact ⟨sound.owners.owners, sound.owners.deletions⟩
  case promise => exact ⟨held, rfl⟩
  case future => exact sound.future.of_same untouched rfl rfl

/-- The promise lets go of its slot, and deletes it if it was the last owner. -/
theorem SlotSound.releasePromise (sound : SlotSound slot .release future) :
    SlotSound (slot.release .promise) (if slot.owners = 1 then .delete else .away) future := by
  rcases sound.promise with ⟨idle, held, completed⟩
  have released : (slot.release .promise).released .promise = true :=
    (released_release _ _ _).trans (if_pos rfl)
  have other : (slot.release .promise).released .future = slot.released .future :=
    (released_release _ _ _).trans (if_neg (by decide))
  constructor
  case reachable => exact sound.reachable
  case uses => exact sound.uses
  case contents => exact sound.contents.of_same rfl rfl rfl rfl rfl
  case owners =>
    apply sound.owners.releasePromise held
    split <;> rfl
  case promise =>
    split
    · exact ⟨idle, released, completed⟩
    · exact ⟨idle, fun _ => completed⟩
  case future => exact sound.future.of_same rfl other rfl

theorem SlotSound.deletePromise (sound : SlotSound slot .delete future) : SlotSound slot.delete .away future where
  reachable := sound.reachable
  uses := sound.uses
  contents := sound.contents.of_same rfl rfl rfl rfl rfl
  owners := by
    have deletions := sound.owners.deletions
    change slot.deletions + 1 + future.deleting = _ at deletions
    refine ⟨sound.owners.owners, ?_⟩
    change slot.deletions + 1 + 0 + future.deleting = (slot.released .promise && slot.released .future).toNat
    omega
  promise := ⟨sound.promise.1, fun _ => sound.promise.2.2⟩
  future := sound.future.of_same rfl rfl rfl

/-! ## The operations of a future -/

/-- The call of `completion_.wait()`. -/
theorem SlotSound.callWait (sound : SlotSound slot promise .test) (unwaited : slot.waited = false) :
    SlotSound slot.callWait promise .wait := by
  rcases sound.future with ⟨idle, held⟩
  have untouched : slot.callWait.semaphore.points .promise = slot.semaphore.points .promise :=
    (points_goto _ _ _ _).trans (if_neg (by decide))
  have calling : slot.callWait.semaphore.points .future = .waitSubtract :=
    (points_goto _ _ _ _).trans (if_pos rfl)
  have taken := sound.uses.waits
  rw [idle, unwaited] at taken
  change slot.semaphore.completed + 0 = 0 at taken
  have uses : Uses slot.completed.toNat 1 slot.callWait.semaphore := by
    refine ⟨?_, ?_, ?_, ?_⟩
    · rw [untouched]
      exact sound.uses.promise
    · rw [calling]
      rfl
    · rw [untouched]
      exact sound.uses.signals
    · rw [calling]
      exact congrArg (fun completed => completed + 1) taken
  constructor
  case reachable =>
    exact slotReachable_step sound.reachable uses (Bool.toNat_le _) (.callWait Side.future idle)
  case uses =>
    change Uses _ (slot.waited.toNat + 1) _
    rw [unwaited]
    exact uses
  case contents => exact sound.contents.of_same rfl rfl rfl rfl rfl
  case owners => exact ⟨sound.owners.owners, sound.owners.deletions⟩
  case promise => exact sound.promise.of_same untouched rfl rfl
  case future => exact ⟨held, unwaited⟩

/-- A wait that has returned has been served by the signal. -/
theorem SlotSound.completed_of_waited (sound : SlotSound slot promise .store) : slot.completed = true := by
  have account := tokenAccount_of_reachable backend concurrency sound.reachable
  have tokens := account.tokens
  have signals := sound.uses.signals
  have waits := sound.uses.waits
  rw [sound.future.1, sound.future.2.2] at waits
  change slot.semaphore.completed + 0 = 0 + 1 at waits
  cases completed : slot.completed with
  | true => rfl
  | false =>
      rw [completed] at signals
      change _ = 0 at signals
      omega

/-- The write of `waited_`. -/
theorem SlotSound.recordWait (sound : SlotSound slot promise .store) {next : FuturePhase}
    (deleting : next.deleting = 0) (unrecorded : next.unrecorded = 0)
    (holds : FutureAt { slot with waited := true } next) :
    SlotSound { slot with waited := true } promise next where
  reachable := sound.reachable
  uses := by
    have uses := sound.uses
    rw [sound.future.2.2] at uses
    rw [unrecorded]
    exact uses
  contents := ⟨sound.contents.once, sound.contents.data, sound.contents.first,
    fun unwaited => Bool.noConfusion unwaited, fun _ => sound.completed_of_waited⟩
  owners := ⟨sound.owners.owners, deleting ▸ sound.owners.deletions⟩
  promise := sound.promise.of_same rfl rfl rfl
  future := holds

/-- `get()`, after the wait. -/
theorem SlotSound.get (sound : SlotSound slot promise .read) : SlotSound slot.get promise .away := by
  rcases sound.future with ⟨idle, held, waited⟩
  have completed := sound.contents.served waited
  have once := sound.contents.once
  rw [completed] at once
  rcases List.length_eq_one_iff.mp once with ⟨completion, completions⟩
  constructor
  case reachable => exact sound.reachable
  case uses => exact sound.uses
  case contents =>
    constructor
    · exact sound.contents.once
    · intro unread
      cases List.append_ne_nil_of_right_ne_nil slot.results (List.cons_ne_nil _ _) unread
    · intro _
      change (slot.results ++ [(flavour.get slot.data).1]).head? = some slot.completions.head?
      cases results : slot.results with
      | nil =>
          rw [sound.contents.data results, completions]
          exact congrArg some (flavour.get_store completion)
      | cons first rest =>
          rw [← sound.contents.first (by rw [results]; exact List.cons_ne_nil _ _), results]
          rfl
    · intro unwaited
      cases waited.symm.trans unwaited
    · exact fun _ => completed
  case owners => exact ⟨sound.owners.owners, sound.owners.deletions⟩
  case promise => exact sound.promise.of_same rfl rfl rfl
  case future => exact ⟨idle, fun _ => waited⟩

/-- The future lets go of its slot, and deletes it if it was the last owner. -/
theorem SlotSound.releaseFuture (sound : SlotSound slot promise .release) :
    SlotSound (slot.release .future) promise (if slot.owners = 1 then .delete else .away) := by
  rcases sound.future with ⟨idle, held, waited⟩
  have released : (slot.release .future).released .future = true :=
    (released_release _ _ _).trans (if_pos rfl)
  have other : (slot.release .future).released .promise = slot.released .promise :=
    (released_release _ _ _).trans (if_neg (by decide))
  constructor
  case reachable => exact sound.reachable
  case uses => split <;> exact sound.uses
  case contents => exact sound.contents.of_same rfl rfl rfl rfl rfl
  case owners =>
    apply sound.owners.releaseFuture held
    split <;> rfl
  case promise => exact sound.promise.of_same rfl other rfl
  case future =>
    split
    · exact ⟨idle, released, waited⟩
    · exact ⟨idle, fun _ => waited⟩

theorem SlotSound.deleteFuture (sound : SlotSound slot promise .delete) : SlotSound slot.delete promise .away where
  reachable := sound.reachable
  uses := sound.uses
  contents := sound.contents.of_same rfl rfl rfl rfl rfl
  owners := by
    have deletions := sound.owners.deletions
    change slot.deletions + promise.deleting + 1 = _ at deletions
    refine ⟨sound.owners.owners, ?_⟩
    change slot.deletions + 1 + promise.deleting + 0 = (slot.released .promise && slot.released .future).toNat
    omega
  promise := sound.promise.of_same rfl rfl rfl
  future := ⟨sound.future.1, fun _ => sound.future.2.2⟩

end Runs

end Futures
end Sweater
