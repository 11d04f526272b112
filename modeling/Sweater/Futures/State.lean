import Sweater.Threading.FutexSemaphore

namespace Sweater
namespace Futures

open Threading

/-!
# Promises, futures and the slots they share

The data of `future.hpp` and `outcome_future.hpp`.  A slot (`future_state` or
`outcome_state`) has two owners, the promise and the future, and signals its
completion through a semaphore, the futex one; builds with the condition
variable semaphore are not covered here.  The two kinds of slots differ only in
how they store what they have been completed with, which is a `Flavour` here.

One thread drives all promises and another one all futures.  A point of a
thread names the slot that its next operation is going to touch.

The lists of completions and results, the deletions and the sides that have
released a slot are recorded for the proofs only.
-/

variable {T E : Type}

/-- What an `exception_ptr` points to. -/
inductive Failure (E : Type)
  | thrown (exception : E)
  | brokenPromise
  | badAlloc
  deriving DecidableEq, Repr

/-- What a slot is completed with, and what `get()` returns or throws. -/
inductive Completion (T E : Type)
  | value (value : T)
  | exception (failure : Failure E)
  deriving DecidableEq, Repr

/-! ## The two kinds of slots -/

/-- How a slot stores its completion.  `get` returns what it has found, and
leaves what it has not moved away. -/
structure Flavour (T E : Type) where
  Data : Type
  fresh : Data
  store : Completion T E -> Data -> Data
  get : Data -> Option (Completion T E) × Data
  get_store : forall completion, (get (store completion fresh)).1 = some completion

/-- The members of `future_state` that hold the result. -/
structure FutureState (T E : Type) where
  exception : Option (Failure E)
  storage : Option T
  hasValue : Bool

/-- `future_state`; the parameter says what a move leaves of a value. -/
def futureState (moved : T -> T) : Flavour T E where
  Data := FutureState T E
  fresh := ⟨none, none, false⟩
  store
    | .value value, data => { data with storage := some value, hasValue := true }
    | .exception failure, data => { data with exception := some failure }
  get data :=
    match data.exception with
    | some failure => (some (.exception failure), data)
    | none => (data.storage.map .value, { data with storage := data.storage.map moved })
  get_store := by
    intro completion
    cases completion <;> rfl

/-- `outcome_state`, whose storage holds an `outcome_result`. -/
def outcomeState (moved : Completion T E -> Completion T E) : Flavour T E where
  Data := Option (Completion T E)
  fresh := none
  store completion _ := some completion
  get data := (data, data.map moved)
  get_store := fun _ => rfl

/-! ## Slots -/

/-- The two owners of a slot, and the threads that drive them. -/
inductive Side
  | promise
  | future
  deriving DecidableEq, Repr

instance : Fintype Side := ⟨{.promise, .future}, fun side => by cases side <;> decide⟩

/-- A slot on the heap. -/
structure Slot (flavour : Flavour T E) (width bits : Nat) where
  /-- `completion_`, used by the two threads -/
  semaphore : SemaphoreState Side width bits
  data : flavour.Data
  completed : Bool
  waited : Bool
  owners : BitVec 8
  deletions : Nat
  released : Side -> Bool
  completions : List (Completion T E)
  /-- what the calls of `get()` have found -/
  results : List (Option (Completion T E))

/-- `new future_state<T>()` -/
def Slot.fresh (flavour : Flavour T E) (width bits : Nat) : Slot flavour width bits where
  semaphore := .fresh
  data := flavour.fresh
  completed := false
  waited := false
  owners := 2
  deletions := 0
  released := fun _ => false
  completions := []
  results := []

/-! ## Promises and futures -/

/-- What becomes of a promise or a future after it has let go of its slot. -/
inductive Assignment (Name : Type)
  | destroy (target : Name)
  | move (target source : Name)
  deriving DecidableEq

namespace Assignment

variable {Name : Type} [DecidableEq Name]

def target : Assignment Name -> Name
  | destroy target => target
  | move target _ => target

/-- The object occurs in the assignment. -/
def mentions (name : Name) : Assignment Name -> Prop
  | destroy target => name = target
  | move target source => name = target ∨ name = source

/-- The writes to `p_state_` of the objects. -/
def perform (pointers : Name -> Option Nat) : Assignment Name -> Name -> Option Nat
  | destroy target => Function.update pointers target none
  | move target source => Function.update (Function.update pointers target (pointers source)) source none

end Assignment

/-! ## Program points -/

/-- Where the thread of the promises is.  An assignment is present inside
`abandon()`. -/
inductive PromisePoint (T E Name : Type)
  | idle
  /-- before the writes of `set_value` or `set_exception` -/
  | store (slot : Nat) (completion : Completion T E) (abandoning : Option (Assignment Name))
  /-- inside `completion_.signal()` -/
  | signal (slot : Nat) (abandoning : Option (Assignment Name))
  /-- before `completed()` -/
  | test (slot : Nat) (abandoning : Assignment Name)
  /-- before `owners_.fetch_sub( 1 )` -/
  | release (slot : Nat) (abandoning : Assignment Name)
  /-- before `delete this` -/
  | delete (slot : Nat) (abandoning : Assignment Name)

/-- What a future waits for. -/
inductive Purpose (Name : Type)
  | wait
  | get
  | release (releasing : Assignment Name)

/-- Where the thread of the futures is. -/
inductive FuturePoint (Name : Type)
  | idle
  /-- before the test of `waited_` -/
  | test (slot : Nat) (purpose : Purpose Name)
  /-- inside `completion_.wait()` -/
  | wait (slot : Nat) (purpose : Purpose Name)
  /-- before `waited_ = true` -/
  | store (slot : Nat) (purpose : Purpose Name)
  /-- `get()`, after the wait -/
  | read (slot : Nat)
  /-- before `owners_.fetch_sub( 1 )` -/
  | release (slot : Nat) (releasing : Assignment Name)
  /-- before `delete this` -/
  | delete (slot : Nat) (releasing : Assignment Name)

namespace PromisePoint

variable {Name : Type}

/-- The slot that the next operation touches. -/
def touches : PromisePoint T E Name -> Option Nat
  | idle => none
  | store slot _ _ => some slot
  | signal slot _ => some slot
  | test slot _ => some slot
  | release slot _ => some slot
  | delete slot _ => some slot

/-- The assignment under way. -/
def assignment : PromisePoint T E Name -> Option (Assignment Name)
  | idle => none
  | store _ _ abandoning => abandoning
  | signal _ abandoning => abandoning
  | test _ abandoning => some abandoning
  | release _ abandoning => some abandoning
  | delete _ abandoning => some abandoning

/-- After the signal: the return of the call, or the release of the slot. -/
def afterSignal (slot : Nat) : Option (Assignment Name) -> PromisePoint T E Name
  | none => idle
  | some abandoning => release slot abandoning

end PromisePoint

namespace FuturePoint

variable {Name : Type}

/-- The slot that the next operation touches. -/
def touches : FuturePoint Name -> Option Nat
  | idle => none
  | test slot _ => some slot
  | wait slot _ => some slot
  | store slot _ => some slot
  | read slot => some slot
  | release slot _ => some slot
  | delete slot _ => some slot

/-- The assignment under way. -/
def assignment : FuturePoint Name -> Option (Assignment Name)
  | test _ (.release releasing) => some releasing
  | wait _ (.release releasing) => some releasing
  | store _ (.release releasing) => some releasing
  | release _ releasing => some releasing
  | delete _ releasing => some releasing
  | _ => none

/-- Where a call goes on when its slot has been waited for. -/
def afterWait (slot : Nat) : Purpose Name -> FuturePoint Name
  | .wait => idle
  | .get => read slot
  | .release releasing => release slot releasing

end FuturePoint

/-! ## The whole program -/

structure World (flavour : Flavour T E) (width bits : Nat) (PromiseName FutureName : Type) where
  slots : Nat -> Slot flavour width bits
  made : Nat
  /-- `p_state_` of each promise -/
  promises : PromiseName -> Option Nat
  /-- `p_state_` of each future -/
  futures : FutureName -> Option Nat
  promisePoint : PromisePoint T E PromiseName
  futurePoint : FuturePoint FutureName

namespace World

variable {flavour : Flavour T E} {width bits : Nat} {PromiseName FutureName : Type}

/-- A change of one slot. -/
def onSlot (world : World flavour width bits PromiseName FutureName) (slot : Nat)
    (next : Slot flavour width bits) : World flavour width bits PromiseName FutureName :=
  { world with slots := Function.update world.slots slot next }

/-- Before any slot has been made. -/
def empty (flavour : Flavour T E) (width bits : Nat) (PromiseName FutureName : Type) :
    World flavour width bits PromiseName FutureName where
  slots := fun _ => .fresh flavour width bits
  made := 0
  promises := fun _ => none
  futures := fun _ => none
  promisePoint := .idle
  futurePoint := .idle

end World

end Futures
end Sweater
