import Sweater.Interleaving.Reachability
import Mathlib.Data.BitVec
import Mathlib.Data.List.Count

namespace Sweater
namespace Native

open Interleaving

/-!
# Work in flight on a foreign pool

`fire_and_forget` of the Windows and the Apple backend and `fire_with_after` of
the libuv one increment the process-wide `g_in_flight` before they submit a
task, and decrement it after the last piece of user code, on whichever thread
runs that.  The Windows backend runs what its pool refuses at once; the libuv
backend takes the increment back.

Any number of calls may be under way, and a task may make further calls.
-/

inductive Backend
  | windows
  | apple
  | libuv
  deriving DecidableEq, Repr

/-- A functor packed into the context pointer, or on the heap.  The libuv
backend has all its contexts on the heap. -/
inductive Storage
  | packed
  | heap
  deriving DecidableEq, Repr

/-- Where a call is or, once it has submitted its task, where the task is. -/
inductive TaskPoint
  /-- before `new` -/
  | allocate
  /-- before `in_flight_inc()` -/
  | count
  /-- before `TrySubmitThreadpoolCallback`, `dispatch_async_f` or `uv_queue_work` -/
  | submit
  | queued
  /-- inside the work of the user -/
  | working
  /-- until the after-work callback, which runs on the loop thread -/
  | worked
  /-- inside `after()` -/
  | after
  /-- before `delete pf`, in the scope of the guard -/
  | delete
  /-- before `in_flight_dec()` -/
  | leave
  /-- `uv_queue_work` has failed, before `in_flight_dec()` -/
  | rejected
  /-- before `delete self` or `delete state` -/
  | deleteContext (accepted : Bool)
  /-- done, with what the call has returned -/
  | ended (accepted : Bool)
  /-- `new` has thrown out of a `noexcept` function -/
  | terminated
  deriving DecidableEq, Repr

structure Task where
  backend : Backend
  storage : Storage
  point : TaskPoint
  deriving DecidableEq, Repr

namespace Task

/-- Where a call begins. -/
def start (backend : Backend) (storage : Storage) : Task where
  backend := backend
  storage := storage
  point := if backend = .libuv ∨ storage = .heap then .allocate else .count

/-- The task goes on. -/
def goto (task : Task) (point : TaskPoint) : Task := { task with point := point }

/-- What follows the work of the user. -/
def afterWork (task : Task) : TaskPoint :=
  match task.backend, task.storage with
  | .libuv, _ => .worked
  | _, .heap => .delete
  | _, .packed => .leave

end Task

/-- One step of a call or of a task, with the counter before it and after it. -/
inductive TaskStep {sizeBits : Nat} : BitVec sizeBits -> Task -> BitVec sizeBits -> Task -> Prop
  | allocated {inFlight task} :
      task.point = .allocate -> TaskStep inFlight task inFlight (task.goto .count)
  /-- `new ( std::nothrow )` -/
  | outOfMemory {inFlight task} :
      task.point = .allocate -> task.backend ≠ .apple ->
      TaskStep inFlight task inFlight (task.goto (.ended false))
  | thrown {inFlight task} :
      task.point = .allocate -> task.backend = .apple ->
      TaskStep inFlight task inFlight (task.goto .terminated)
  | counted {inFlight task} :
      task.point = .count -> TaskStep inFlight task (inFlight + 1) (task.goto .submit)
  | submitted {inFlight task} :
      task.point = .submit -> TaskStep inFlight task inFlight (task.goto .queued)
  /-- the pool is exhausted, the caller runs the work -/
  | exhausted {inFlight task} :
      task.point = .submit -> task.backend = .windows ->
      TaskStep inFlight task inFlight (task.goto .working)
  | rejected {inFlight task} :
      task.point = .submit -> task.backend = .libuv ->
      TaskStep inFlight task inFlight (task.goto .rejected)
  | started {inFlight task} :
      task.point = .queued -> TaskStep inFlight task inFlight (task.goto .working)
  | worked {inFlight task} :
      task.point = .working -> TaskStep inFlight task inFlight (task.goto task.afterWork)
  | afterBegin {inFlight task} :
      task.point = .worked -> TaskStep inFlight task inFlight (task.goto .after)
  | afterEnd {inFlight task} :
      task.point = .after -> TaskStep inFlight task inFlight (task.goto .leave)
  | deleted {inFlight task} :
      task.point = .delete -> TaskStep inFlight task inFlight (task.goto .leave)
  | discounted {inFlight task} :
      task.point = .leave ->
      TaskStep inFlight task (inFlight - 1)
        (task.goto (if task.backend = .libuv then .deleteContext true else .ended true))
  | takenBack {inFlight task} :
      task.point = .rejected -> TaskStep inFlight task (inFlight - 1) (task.goto (.deleteContext false))
  | contextDeleted {inFlight task} (accepted) :
      task.point = .deleteContext accepted -> TaskStep inFlight task inFlight (task.goto (.ended accepted))

/-- The counter, and all calls so far. -/
structure Process (sizeBits : Nat) where
  inFlight : BitVec sizeBits
  tasks : List Task
  deriving DecidableEq, Repr

inductive ProcessStep {sizeBits : Nat} : Process sizeBits -> Process sizeBits -> Prop
  | call {process} (backend storage) :
      ProcessStep process { process with tasks := process.tasks ++ [.start backend storage] }
  | advance {inFlight inFlight' task task'} (front back : List Task) :
      TaskStep inFlight task inFlight' task' ->
      ProcessStep ⟨inFlight, front ++ task :: back⟩ ⟨inFlight', front ++ task' :: back⟩

/-- The runs of a process with a `std::size_t` of the given width. -/
def fireSystem (sizeBits : Nat) : System (Process sizeBits) where
  initial := fun process => process = ⟨0, []⟩
  step := ProcessStep

namespace TaskPoint

/-- The increment has been made, the task has not been rejected, and its user
code has not been left. -/
def unfinished : TaskPoint -> Bool
  | submit => true
  | queued => true
  | working => true
  | worked => true
  | after => true
  | _ => false

/-- The submission has succeeded, or the caller has started the work, and the
user code has not been left. -/
def acceptedUnfinished : TaskPoint -> Bool
  | submit => false
  | point => point.unfinished

/-- On the way from the user code or from the rejection to the decrement. -/
def leaving : TaskPoint -> Bool
  | delete => true
  | leave => true
  | rejected => true
  | _ => false

/-- The call has returned, and no callback is left to run. -/
def isOver : TaskPoint -> Bool
  | ended _ => true
  | _ => false

end TaskPoint

namespace Process

variable {sizeBits : Nat}

/-- How many tasks are at such a point. -/
def tasksAt (process : Process sizeBits) (points : TaskPoint -> Bool) : Nat :=
  process.tasks.countP fun task => points task.point

/-- The increments that have not been undone. -/
def undone (process : Process sizeBits) : Nat :=
  process.tasksAt TaskPoint.unfinished + process.tasksAt TaskPoint.leaving

end Process

section Counting

variable {sizeBits : Nat} {process after : Process sizeBits}

/-- One increment that has not been undone. -/
def TaskPoint.weight (point : TaskPoint) : Nat := point.unfinished.toNat + point.leaving.toNat

theorem weight_afterWork (task : Task) : task.afterWork.weight = 1 := by
  rcases task with ⟨backend, storage, point⟩
  cases backend <;> cases storage <;> rfl

theorem weight_discounted (task : Task) :
    (if task.backend = .libuv then TaskPoint.deleteContext true else .ended true).weight = 0 := by
  by_cases libuv : task.backend = .libuv
  · rw [if_pos libuv]
    rfl
  · rw [if_neg libuv]
    rfl

/-- A step changes the counter by as much as it changes the weight of its task. -/
theorem TaskStep.balance {inFlight inFlight' : BitVec sizeBits} {task task' : Task}
    (step : TaskStep inFlight task inFlight' task') :
    inFlight' = inFlight ∧ task'.point.weight = task.point.weight ∨
    inFlight' = inFlight + 1 ∧ task.point.weight = 0 ∧ task'.point.weight = 1 ∨
    inFlight' = inFlight - 1 ∧ task.point.weight = 1 ∧ task'.point.weight = 0 := by
  cases step with
  | counted here =>
      rw [here]
      exact Or.inr (Or.inl ⟨rfl, rfl, rfl⟩)
  | discounted here =>
      rw [here]
      exact Or.inr (Or.inr ⟨rfl, rfl, weight_discounted task⟩)
  | takenBack here =>
      rw [here]
      exact Or.inr (Or.inr ⟨rfl, rfl, rfl⟩)
  | worked here =>
      rw [here]
      exact Or.inl ⟨rfl, weight_afterWork task⟩
  | allocated here => exact Or.inl ⟨rfl, here ▸ rfl⟩
  | outOfMemory here => exact Or.inl ⟨rfl, here ▸ rfl⟩
  | thrown here => exact Or.inl ⟨rfl, here ▸ rfl⟩
  | submitted here => exact Or.inl ⟨rfl, here ▸ rfl⟩
  | exhausted here => exact Or.inl ⟨rfl, here ▸ rfl⟩
  | rejected here => exact Or.inl ⟨rfl, here ▸ rfl⟩
  | started here => exact Or.inl ⟨rfl, here ▸ rfl⟩
  | afterBegin here => exact Or.inl ⟨rfl, here ▸ rfl⟩
  | afterEnd here => exact Or.inl ⟨rfl, here ▸ rfl⟩
  | deleted here => exact Or.inl ⟨rfl, here ▸ rfl⟩
  | contextDeleted accepted here => exact Or.inl ⟨rfl, here ▸ rfl⟩

theorem tasksAt_advance (points : TaskPoint -> Bool) (inFlight : BitVec sizeBits) (front back : List Task) (task : Task) :
    (⟨inFlight, front ++ task :: back⟩ : Process sizeBits).tasksAt points =
      front.countP (fun task => points task.point) + back.countP (fun task => points task.point) +
        (points task.point).toNat := by
  rw [Process.tasksAt, List.countP_append, List.countP_cons, Nat.add_assoc]
  cases points task.point <;> rfl

theorem undone_advance (inFlight : BitVec sizeBits) (front back : List Task) (task : Task) :
    (⟨inFlight, front ++ task :: back⟩ : Process sizeBits).undone =
      (⟨0, front ++ back⟩ : Process sizeBits).undone + task.point.weight := by
  rw [Process.undone, tasksAt_advance, tasksAt_advance, Process.undone, Process.tasksAt, Process.tasksAt,
    List.countP_append, List.countP_append, TaskPoint.weight]
  omega

/-- A new call has incremented nothing yet. -/
theorem undone_call (process : Process sizeBits) (backend : Backend) (storage : Storage) :
    ({ process with tasks := process.tasks ++ [.start backend storage] } : Process sizeBits).undone =
      process.undone := by
  rw [Process.undone, Process.tasksAt, Process.tasksAt, List.countP_append, List.countP_append]
  cases backend <;> cases storage <;> rfl

/-- The counter counts the increments that have not been undone, as far as its type goes. -/
theorem inFlight_eq (reachable : (fireSystem sizeBits).Reachable process) :
    process.inFlight = BitVec.ofNat sizeBits process.undone := by
  apply reachable.invariant
  · intro process start
    rw [start]
    rfl
  · intro before after _ counts step
    cases step with
    | call backend storage =>
        rw [undone_call]
        exact counts
    | @advance inFlight inFlight' task task' front back move =>
        rw [undone_advance] at counts
        rw [undone_advance]
        generalize (⟨0, front ++ back⟩ : Process sizeBits).undone = others at counts ⊢
        change inFlight = _ at counts
        change inFlight' = _
        rcases move.balance with ⟨same, weight⟩ | ⟨same, before, later⟩ | ⟨same, before, later⟩
        · rw [same, weight, counts]
        · rw [same, later, counts, before, Nat.add_zero, BitVec.ofNat_add]
          rfl
        · rw [same, later, counts, before, BitVec.ofNat_add]
          exact BitVec.add_sub_cancel _ _

end Counting

/-- In every state of every run, the counter is the number of increments whose
task has neither been rejected nor left its user code, plus the number of those
on the way from there to the decrement; while that number fits into a
`std::size_t`, the counter is not below the number of accepted unfinished tasks
and not zero before a decrement; and it is zero when all calls have returned and
all callbacks have run. -/
theorem in_flight_counts (sizeBits : Nat) (process : Process sizeBits)
    (reachable : (fireSystem sizeBits).Reachable process) :
    process.inFlight.toNat =
      (process.tasksAt TaskPoint.unfinished + process.tasksAt TaskPoint.leaving) % 2 ^ sizeBits ∧
    (process.tasksAt TaskPoint.unfinished + process.tasksAt TaskPoint.leaving < 2 ^ sizeBits ->
      process.tasksAt TaskPoint.acceptedUnfinished ≤ process.inFlight.toNat ∧
      forall task, task ∈ process.tasks -> task.point = .leave ∨ task.point = .rejected -> 0 < process.inFlight.toNat) ∧
    ((forall task, task ∈ process.tasks -> task.point.isOver = true) -> process.inFlight = 0) := by
  have counts := inFlight_eq reachable
  have value : process.inFlight.toNat = process.undone % 2 ^ sizeBits := by
    rw [counts, BitVec.toNat_ofNat]
  refine ⟨value, ?_, ?_⟩
  · intro fits
    have exact : process.inFlight.toNat = process.undone := value.trans (Nat.mod_eq_of_lt fits)
    constructor
    · rw [exact]
      apply Nat.le_trans _ (Nat.le_add_right _ _)
      apply List.countP_mono_left
      intro task _ accepted
      rcases task with ⟨backend, storage, point⟩
      cases point with
      | submit => cases accepted
      | _ => exact accepted
    · intro task member next
      rw [exact]
      apply Nat.lt_of_lt_of_le _ (Nat.le_add_left _ _)
      apply List.countP_pos_iff.mpr
      refine ⟨task, member, ?_⟩
      rcases next with leave | rejected
      · rw [leave]
        rfl
      · rw [rejected]
        rfl
  · intro quiet
    have none : forall points : TaskPoint -> Bool, (forall accepted, points (.ended accepted) = false) ->
        process.tasksAt points = 0 := by
      intro points outside
      apply List.countP_eq_zero.mpr
      intro task member
      have done := quiet task member
      rcases task with ⟨backend, storage, point⟩
      cases point with
      | ended accepted => exact Bool.eq_false_iff.mp (outside accepted)
      | _ => cases done
    rw [counts, Process.undone, none _ fun _ => rfl, none _ fun _ => rfl]
    rfl

/-- A packed functor on the Apple backend, at every point of its way. -/
theorem in_flight_counts_packed : Exists fun process : Process 64 =>
    (fireSystem 64).Reachable process ∧ process.tasks = [⟨.apple, .packed, .working⟩] ∧
      process.inFlight.toNat = (1 + 0) % 2 ^ 64 := by
  have begun : (fireSystem 64).Reachable ⟨0, []⟩ := .initial rfl
  have called := begun.step (.call .apple .packed)
  have counted := called.step (.advance [] [] (.counted rfl))
  have submitted := counted.step (.advance [] [] (.submitted rfl))
  have working := submitted.step (.advance [] [] (.started rfl))
  exact ⟨_, working, rfl, (in_flight_counts 64 _ working).1⟩

/-- A heap functor of the Windows backend has finished and is still counted:
its thread deletes it first. -/
theorem in_flight_after_finish : Exists fun process : Process 64 =>
    (fireSystem 64).Reachable process ∧ process.tasks = [⟨.windows, .heap, .delete⟩] ∧
      process.inFlight = 1 ∧ process.tasksAt TaskPoint.unfinished = 0 := by
  have begun : (fireSystem 64).Reachable ⟨0, []⟩ := .initial rfl
  have called := begun.step (.call .windows .heap)
  have allocated := called.step (.advance [] [] (.allocated rfl))
  have counted := allocated.step (.advance [] [] (.counted rfl))
  have submitted := counted.step (.advance [] [] (.submitted rfl))
  have working := submitted.step (.advance [] [] (.started rfl))
  have worked := working.step (.advance [] [] (.worked rfl))
  exact ⟨_, worked, rfl, by decide, by decide⟩

end Native
end Sweater
