import Sweater.Interleaving.ReentrantLocks
import Sweater.Threading.ReadRecursion

namespace Sweater
namespace Threading

open Interleaving
open Machine

/-!
# Nested reads of many threads

The recursion registry belongs to one thread; what it is for is seen only when
several threads share the mutexes.  The underlying locks prefer writers: as
long as a writer is queued they may keep a reader out, also one that reads
already.  `basic_rrw_mutex` does not ask them for a nested hold, and
`reader_preferring_rw_mutex` is built on locks that let readers pass.

A registry is touched by its own thread only, so a call to it happens together
with the access to the underlying lock that comes next, or with the call that
finds the lock occupied.  The rules for the write side are those of the
underlying lock.
-/

variable {Thread Mutex : Type}

/-- How the read side of a mutex is built. -/
structure RrwMechanism where
  /-- the holds of a thread are collapsed in its registry -/
  tracksHolds : Bool
  /-- the underlying lock lets readers pass a queued writer -/
  readersPass : Bool

namespace RrwMechanism

/-- `reader_preferring_rw_mutex` of `posix/rw_mutex.hpp` -/
def readerPreferringRwMutex : RrwMechanism := ⟨false, true⟩

/-- `basic_rrw_mutex` -/
def basicRrwMutex : RrwMechanism := ⟨true, false⟩

/-- One of the two precautions has been taken. -/
def NestsReads (mechanism : RrwMechanism) : Prop :=
  mechanism.tracksHolds = true ∨ mechanism.readersPass = true

end RrwMechanism

/-- Where a thread is. -/
inductive LockPoint (Mutex : Type)
  /-- outside the mutexes -/
  | running
  /-- `os_acquire_ro()` -/
  | acquiringRo (m : Mutex)
  /-- `acquire_rw()` -/
  | acquiringRw (m : Mutex)
  /-- an exception has left a `noexcept` function -/
  | terminated
  deriving DecidableEq

namespace LockPoint

/-- The mutex that the thread waits for. -/
def awaited : LockPoint Mutex -> Option Mutex
  | acquiringRo m | acquiringRw m => some m
  | running | terminated => none

end LockPoint

/-- A thread with its registry, its read holds and its place. -/
structure LockingThread (Mutex : Type) where
  run : ReadRun Mutex
  point : LockPoint Mutex

namespace LockingThread

def fresh (policy : GrowthPolicy) : LockingThread Mutex := ⟨⟨⟨.fresh policy, fun _ => 0, []⟩, fun _ => 0⟩, .running⟩

variable [DecidableEq Mutex] (mechanism : RrwMechanism) (policy : GrowthPolicy) (here : LockingThread Mutex) (m : Mutex)

/-- The registry has been changed, and nothing else. -/
def enroll (registry : HeldVec Mutex) : LockingThread Mutex :=
  { here with run := { here.run with thread := { here.run.thread with registry := registry } } }

/-- The callers have another number of holds. -/
def hold (count : Nat) : LockingThread Mutex :=
  { here with run := { here.run with outstanding := Function.update here.run.outstanding m count } }

/-- `acquire_ro()` up to the underlying lock -/
def callRo (memory : Bool) : LockingThread Mutex :=
  if mechanism.tracksHolds then
    match here.run.thread.registry.enter policy memory m with
    | (.ok true, registry) => { here.enroll registry with point := .acquiringRo m }
    | (.ok false, registry) => (here.enroll registry).hold m (here.run.outstanding m + 1)
    | (.error _, registry) => here.enroll registry
  else { here with point := .acquiringRo m }

/-- `os_acquire_ro()` returns. -/
def grantRo : LockingThread Mutex where
  run := ⟨here.run.thread.osAcquireRo m, Function.update here.run.outstanding m (here.run.outstanding m + 1)⟩
  point := .running

/-- `try_acquire_ro()` -/
def tryRo (memory granted memoryLater : Bool) : LockingThread Mutex :=
  if mechanism.tracksHolds then
    let attempt := ReadOperation.tryAcquireRo m memory granted memoryLater
    { run := attempt.next policy here.run
      point := if (attempt.perform policy here.run.thread).1 = .terminated then .terminated else .running }
  else
    { run := ⟨here.run.thread.osTryAcquireRo m granted,
        Function.update here.run.outstanding m (here.run.outstanding m + if granted then 1 else 0)⟩
      point := .running }

/-- `release_ro()` -/
def releaseRo : LockingThread Mutex :=
  if mechanism.tracksHolds then { here with run := (ReadOperation.releaseRo m).next policy here.run }
  else
    { here with
      run := ⟨here.run.thread.osReleaseRo m, Function.update here.run.outstanding m (here.run.outstanding m - 1)⟩ }

/-- Where the call that is under way will leave the thread. -/
def settled : ReadRun Mutex :=
  match here.point with
  | .acquiringRo m => (here.grantRo m).run
  | _ => here.run

/-- The part of `acquire_ro` that waits and the part before it make up the call. -/
theorem settled_callRo (running : here.point = .running) (tracks : mechanism.tracksHolds = true) (memory : Bool) :
    (here.callRo mechanism policy m memory).settled = (ReadOperation.acquireRo m memory).next policy here.run := by
  unfold callRo
  rw [if_pos tracks]
  dsimp only [ReadOperation.next, ReadOperation.perform, ReadOperation.account, ReadOperation.mutex, ReadingThread.acquireRo]
  rcases here.run.thread.registry.enter policy memory m with ⟨_ | _ | _, registry⟩
  · simp only [settled, enroll, running, reduceCtorEq, if_false]
  · simp only [settled, enroll, hold, running, if_true]
  · simp only [settled, enroll, grantRo, ReadingThread.osAcquireRo, if_true]

end LockingThread

/-- The threads, and who writes. -/
structure RrwState (Thread Mutex : Type) where
  threads : Thread -> LockingThread Mutex
  writer : Mutex -> Option Thread

namespace RrwState

def fresh (policy : GrowthPolicy) : RrwState Thread Mutex := ⟨fun _ => .fresh policy, fun _ => none⟩

/-- The underlying lock admits a reader. -/
def ReadersAdmitted (mechanism : RrwMechanism) (state : RrwState Thread Mutex) (m : Mutex) : Prop :=
  state.writer m = none ∧
    (mechanism.readersPass = true ∨ forall thread, (state.threads thread).point ≠ .acquiringRw m)

/-- The underlying lock admits a writer. -/
def WriterAdmitted (state : RrwState Thread Mutex) (m : Mutex) : Prop :=
  state.writer m = none ∧ forall thread, (state.threads thread).run.thread.osHolds m = 0

variable [DecidableEq Thread] [DecidableEq Mutex] (state : RrwState Thread Mutex)

def goto (thread : Thread) (next : LockingThread Mutex) : RrwState Thread Mutex :=
  { state with threads := Function.update state.threads thread next }

def setWriter (m : Mutex) (writer : Option Thread) : RrwState Thread Mutex :=
  { state with writer := Function.update state.writer m writer }

/-- What the callers hold. -/
def holds : LockHolds Thread Mutex where
  reads := fun thread => (state.threads thread).run.outstanding
  writer := state.writer

end RrwState

/-- A step of one thread. -/
inductive RrwStep [DecidableEq Thread] [DecidableEq Mutex] (mechanism : RrwMechanism) (policy : GrowthPolicy)
    (before : RrwState Thread Mutex) : RrwState Thread Mutex -> Prop
  | callRo (thread : Thread) (m : Mutex) (memory : Bool) : (before.threads thread).point = .running ->
      RrwStep mechanism policy before (before.goto thread ((before.threads thread).callRo mechanism policy m memory))
  | grantRo (thread : Thread) (m : Mutex) : (before.threads thread).point = .acquiringRo m ->
      before.ReadersAdmitted mechanism m ->
      RrwStep mechanism policy before (before.goto thread ((before.threads thread).grantRo m))
  | tryRo (thread : Thread) (m : Mutex) (memory granted memoryLater : Bool) :
      (before.threads thread).point = .running -> (granted = true -> before.ReadersAdmitted mechanism m) ->
      RrwStep mechanism policy before
        (before.goto thread ((before.threads thread).tryRo mechanism policy m memory granted memoryLater))
  | releaseRo (thread : Thread) (m : Mutex) : (before.threads thread).point = .running ->
      0 < (before.threads thread).run.outstanding m ->
      RrwStep mechanism policy before (before.goto thread ((before.threads thread).releaseRo mechanism policy m))
  | callRw (thread : Thread) (m : Mutex) : (before.threads thread).point = .running ->
      RrwStep mechanism policy before (before.goto thread { before.threads thread with point := .acquiringRw m })
  | grantRw (thread : Thread) (m : Mutex) : (before.threads thread).point = .acquiringRw m -> before.WriterAdmitted m ->
      RrwStep mechanism policy before
        ((before.goto thread { before.threads thread with point := .running }).setWriter m (some thread))
  | tryRwTaken (thread : Thread) (m : Mutex) : (before.threads thread).point = .running -> before.WriterAdmitted m ->
      RrwStep mechanism policy before (before.setWriter m (some thread))
  | tryRwRefused (thread : Thread) : (before.threads thread).point = .running -> RrwStep mechanism policy before before
  | releaseRw (thread : Thread) (m : Mutex) : (before.threads thread).point = .running ->
      before.writer m = some thread -> RrwStep mechanism policy before (before.setWriter m none)

/-- Any program of balanced calls. -/
def rrwSystem (Thread : Type) {Mutex : Type} [DecidableEq Thread] [DecidableEq Mutex] (mechanism : RrwMechanism)
    (policy : GrowthPolicy) : System (RrwState Thread Mutex) where
  initial := fun state => state = .fresh policy
  step := RrwStep mechanism policy

/-! ## One thread -/

namespace LockingThread

section Calls

variable [DecidableEq Mutex] {mechanism : RrwMechanism} {policy : GrowthPolicy} {here : LockingThread Mutex} {m : Mutex}

/-- The registry and the underlying locks agree with the holds of the callers. -/
structure Consistent (mechanism : RrwMechanism) (here : LockingThread Mutex) : Prop where
  collapsed : mechanism.tracksHolds = true -> Collapsed here.settled
  outermost : mechanism.tracksHolds = true -> forall m, here.point = .acquiringRo m -> here.run.outstanding m = 0
  counted : mechanism.tracksHolds = false -> forall m, here.run.thread.osHolds m = here.run.outstanding m
  alive : here.point ≠ .terminated

theorem settled_of_running (running : here.point = .running) : here.settled = here.run := by
  rw [settled, running]

theorem consistent_fresh (policy : GrowthPolicy) :
    Consistent mechanism (fresh policy : LockingThread Mutex) where
  collapsed := fun _ => ⟨Tallies.empty, fun _ => rfl⟩
  outermost := nofun
  counted := fun _ _ => rfl
  alive := nofun

/-- Between two calls. -/
theorem Consistent.of_running (running : here.point = .running)
    (collapsed : mechanism.tracksHolds = true -> Collapsed here.run)
    (counted : mechanism.tracksHolds = false -> forall m, here.run.thread.osHolds m = here.run.outstanding m) :
    Consistent mechanism here where
  collapsed := by rwa [settled_of_running running]
  outermost := by
    intro _ m acquiring
    cases running.symm.trans acquiring
  counted := counted
  alive := by
    intro terminated
    cases running.symm.trans terminated

theorem Consistent.run_collapsed (consistent : Consistent mechanism here) (running : here.point = .running)
    (tracks : mechanism.tracksHolds = true) : Collapsed here.run := by
  rw [← settled_of_running running]
  exact consistent.collapsed tracks

theorem outstanding_grantRo (here : LockingThread Mutex) (m other : Mutex) :
    (here.grantRo m).run.outstanding other = if other = m then here.run.outstanding m + 1 else here.run.outstanding other := by
  change Function.update here.run.outstanding m (here.run.outstanding m + 1) other = _
  rw [Function.update_apply]

theorem osHolds_grantRo (here : LockingThread Mutex) (m other : Mutex) :
    (here.grantRo m).run.thread.osHolds other =
      if other = m then here.run.thread.osHolds m + 1 else here.run.thread.osHolds other := by
  change Function.update here.run.thread.osHolds m (here.run.thread.osHolds m + 1) other = _
  rw [Function.update_apply]

/-- The underlying lock is held as long as there is a hold. -/
theorem Consistent.osHolds_eq_zero_iff (consistent : Consistent mechanism here) (m : Mutex) :
    here.run.thread.osHolds m = 0 ↔ here.run.outstanding m = 0 := by
  cases tracks : mechanism.tracksHolds with
  | false =>
      rw [consistent.counted tracks]
      exact Int.natCast_eq_zero
  | true =>
      have locks := (consistent.collapsed tracks).locks m
      cases point : here.point with
      | acquiringRo other =>
          have none := consistent.outermost tracks other point
          rw [settled, point] at locks
          dsimp only at locks
          rw [osHolds_grantRo, outstanding_grantRo] at locks
          split at locks
          · rename_i same
            subst same
            rw [none] at locks ⊢
            simp only [Nat.zero_add, Nat.lt_one_iff, if_true] at locks
            exact iff_of_true (by omega) rfl
          · rw [locks]
            split <;> omega
      | running | acquiringRw | terminated =>
          rw [settled, point] at locks
          dsimp only at locks
          rw [locks]
          split <;> omega

/-- What a call of `acquire_ro` does before it waits. -/
theorem Consistent.callRo_cases (consistent : Consistent mechanism here) (running : here.point = .running)
    (policy : GrowthPolicy) (m : Mutex) (memory : Bool) :
    let called := here.callRo mechanism policy m memory
    (called.run.outstanding = here.run.outstanding ∧ called.point = .acquiringRo m ∧
      (mechanism.tracksHolds = true -> here.run.outstanding m = 0)) ∨
    (called.run.outstanding = Function.update here.run.outstanding m (here.run.outstanding m + 1) ∧
      called.point = .running ∧ 0 < here.run.outstanding m) ∨
    (called.run.outstanding = here.run.outstanding ∧ called.point = .running ∧ here.run.outstanding m = 0) := by
  cases tracks : mechanism.tracksHolds with
  | false =>
      unfold callRo
      rw [tracks]
      exact Or.inl ⟨rfl, rfl, fun tracked => absurd tracked Bool.false_ne_true⟩
  | true =>
      unfold callRo HeldVec.enter
      rw [if_pos tracks]
      rcases (consistent.run_collapsed running tracks).records.locate_cases m with
        ⟨index, located, _, _, positive⟩ | ⟨located, none⟩
      · rw [located]
        exact Or.inr (Or.inl ⟨rfl, running, positive⟩)
      · rw [located]
        rcases HeldVec.emplaceBack_cases policy memory here.run.thread.registry ⟨m, 1⟩ with
          ⟨pushed, entered, _⟩ | ⟨failed, _⟩
        · rw [entered]
          exact Or.inl ⟨rfl, rfl, fun _ => none⟩
        · rw [failed]
          exact Or.inr (Or.inr ⟨rfl, running, none⟩)

theorem Consistent.callRo (consistent : Consistent mechanism here) (running : here.point = .running) (memory : Bool)
    (shallow : forall other, (here.callRo mechanism policy m memory).run.outstanding other < 2 ^ 32) :
    Consistent mechanism (here.callRo mechanism policy m memory) := by
  have shape := consistent.callRo_cases running policy m memory
  refine ⟨?_, ?_, ?_, ?_⟩
  · intro tracks
    rw [settled_callRo _ _ _ _ running tracks]
    refine ((consistent.run_collapsed running tracks).perform (.acquireRo m memory) trivial).2 ?_
    intro other
    have depth := shallow other
    rw [← settled_callRo _ _ _ _ running tracks]
    rcases shape with ⟨same, waits, first⟩ | ⟨_, runs, _⟩ | ⟨_, runs, _⟩
    · rw [settled, waits]
      dsimp only
      rw [outstanding_grantRo, same, first tracks]
      rw [same] at depth
      split
      · decide
      · exact depth
    · rwa [settled_of_running runs]
    · rwa [settled_of_running runs]
  · intro tracks other waits
    rcases shape with ⟨same, acquires, first⟩ | ⟨_, runs, _⟩ | ⟨_, runs, _⟩
    · cases acquires.symm.trans waits
      rw [same]
      exact first tracks
    · cases runs.symm.trans waits
    · cases runs.symm.trans waits
  · intro untracked other
    unfold LockingThread.callRo
    rw [untracked]
    exact consistent.counted untracked other
  · rcases shape with ⟨_, acquires, _⟩ | ⟨_, runs, _⟩ | ⟨_, runs, _⟩
    · rw [acquires]
      nofun
    · rw [runs]
      nofun
    · rw [runs]
      nofun

theorem Consistent.grantRo (consistent : Consistent mechanism here) (waits : here.point = .acquiringRo m) :
    Consistent mechanism (here.grantRo m) := by
  apply Consistent.of_running rfl
  · intro tracks
    have collapsed := consistent.collapsed tracks
    rwa [settled, waits] at collapsed
  · intro untracked other
    rw [osHolds_grantRo, outstanding_grantRo, consistent.counted untracked m]
    split
    · exact (Int.natCast_succ _).symm
    · exact consistent.counted untracked other

/-- A try that is refused by the underlying lock returns only for a thread that
reads already. -/
theorem tryAcquireRo_refused {run : ReadRun Mutex} (collapsed : Collapsed run) (memory memoryLater : Bool)
    (returned : (run.thread.tryAcquireRo policy m memory false memoryLater).1 = .returned) : 0 < run.outstanding m := by
  unfold ReadingThread.tryAcquireRo HeldVec.bumpIfHeld at returned
  rcases collapsed.records.locate_cases m with ⟨_, _, _, _, positive⟩ | ⟨located, _⟩
  · exact positive
  · simp only [located] at returned
    rcases HeldVec.reserveOne_cases policy memory run.thread.registry with ⟨reserved, reserving, _, _⟩ | failed
    · rw [reserving] at returned
      cases returned
    · rw [failed] at returned
      cases returned

/-- A try has added a hold, or it has changed none. -/
theorem Consistent.tryRo_cases (consistent : Consistent mechanism here) (running : here.point = .running)
    (policy : GrowthPolicy) (m : Mutex) (memory granted memoryLater : Bool) :
    let tried := here.tryRo mechanism policy m memory granted memoryLater
    tried.point = .running ∧ (tried.run.outstanding = here.run.outstanding ∨
      (tried.run.outstanding = Function.update here.run.outstanding m (here.run.outstanding m + 1) ∧
        (granted = true ∨ 0 < here.run.outstanding m))) := by
  unfold tryRo
  cases tracks : mechanism.tracksHolds with
  | false =>
      refine ⟨rfl, ?_⟩
      cases granted with
      | false => exact Or.inl (Function.update_eq_self _ _)
      | true => exact Or.inr ⟨rfl, Or.inl rfl⟩
  | true =>
      have collapsed := consistent.run_collapsed running tracks
      have considerate : Considerate policy here.run (.tryAcquireRo m memory granted memoryLater) :=
        (collapsed.perform (.tryAcquireRo m memory granted memoryLater) trivial).1
      refine ⟨if_neg considerate.completed, ?_⟩
      by_cases returned : (here.run.thread.tryAcquireRo policy m memory granted memoryLater).1 = .returned
      · refine Or.inr ⟨if_pos returned, ?_⟩
        cases granted with
        | false => exact Or.inr (tryAcquireRo_refused collapsed memory memoryLater returned)
        | true => exact Or.inl rfl
      · exact Or.inl (if_neg returned)

theorem Consistent.tryRo (consistent : Consistent mechanism here) (running : here.point = .running)
    (m : Mutex) (memory granted memoryLater : Bool)
    (shallow : forall other, (here.tryRo mechanism policy m memory granted memoryLater).run.outstanding other < 2 ^ 32) :
    Consistent mechanism (here.tryRo mechanism policy m memory granted memoryLater) := by
  have runs := (consistent.tryRo_cases running policy m memory granted memoryLater).1
  apply Consistent.of_running runs
  · intro tracks
    have collapsed := consistent.run_collapsed running tracks
    unfold LockingThread.tryRo at shallow ⊢
    rw [if_pos tracks] at shallow ⊢
    exact (collapsed.perform (.tryAcquireRo m memory granted memoryLater) trivial).2 shallow
  · intro untracked other
    unfold LockingThread.tryRo
    rw [untracked]
    change Function.update here.run.thread.osHolds m _ other = (Function.update here.run.outstanding m _ other : Nat)
    rw [Function.update_apply, Function.update_apply, consistent.counted untracked m]
    split
    · cases granted with
      | false => rfl
      | true => exact (Int.natCast_succ _).symm
    · exact consistent.counted untracked other

theorem releaseRo_cases (mechanism : RrwMechanism) (policy : GrowthPolicy) (here : LockingThread Mutex) (m : Mutex) :
    (here.releaseRo mechanism policy m).point = here.point ∧ (here.releaseRo mechanism policy m).run.outstanding =
      Function.update here.run.outstanding m (here.run.outstanding m - 1) := by
  unfold releaseRo
  cases mechanism.tracksHolds with
  | false => exact ⟨rfl, rfl⟩
  | true => exact ⟨rfl, rfl⟩

theorem Consistent.releaseRo (consistent : Consistent mechanism here) (running : here.point = .running)
    (held : 0 < here.run.outstanding m) : Consistent mechanism (here.releaseRo mechanism policy m) := by
  apply Consistent.of_running ((releaseRo_cases mechanism policy here m).1.trans running)
  · intro tracks
    unfold LockingThread.releaseRo
    rw [if_pos tracks]
    exact ((consistent.run_collapsed running tracks).releaseRo m held).2
  · intro untracked other
    unfold LockingThread.releaseRo
    rw [untracked]
    change Function.update here.run.thread.osHolds m _ other = (Function.update here.run.outstanding m _ other : Nat)
    rw [Function.update_apply, Function.update_apply, consistent.counted untracked m]
    split
    · exact (Int.natCast_pred_of_pos held).symm
    · exact consistent.counted untracked other

/-- The write side does not touch the holds of a reader. -/
theorem Consistent.goto (consistent : Consistent mechanism here) {point : LockPoint Mutex}
    (reads : forall m, here.point ≠ .acquiringRo m) (writes : forall m, point ≠ .acquiringRo m)
    (alive : point ≠ .terminated) : Consistent mechanism { here with point := point } := by
  have unsettled : forall thread : LockingThread Mutex, (forall m, thread.point ≠ .acquiringRo m) ->
      thread.settled = thread.run := by
    intro thread elsewhere
    unfold settled
    split
    · exact absurd ‹_› (elsewhere _)
    · rfl
  refine ⟨?_, fun _ m acquires => absurd acquires (writes m), consistent.counted, alive⟩
  intro tracks
  have collapsed := consistent.collapsed tracks
  rw [unsettled here reads] at collapsed
  rw [unsettled _ writes]
  exact collapsed

end Calls

end LockingThread

/-! ## Whole runs -/

section Runs

variable [DecidableEq Thread] [DecidableEq Mutex] {mechanism : RrwMechanism} {policy : GrowthPolicy}
  {state before after : RrwState Thread Mutex}

/-- The depths stay below the range of their counters. -/
def RrwState.Shallow (state : RrwState Thread Mutex) : Prop :=
  forall thread m, (state.threads thread).run.outstanding m < 2 ^ 32

omit [DecidableEq Mutex] in
theorem RrwState.threads_goto (state : RrwState Thread Mutex) (thread other : Thread) (next : LockingThread Mutex) :
    (state.goto thread next).threads other = if other = thread then next else state.threads other :=
  Function.update_apply _ _ _ _

omit [DecidableEq Mutex] in
theorem RrwState.threads_goto_self (state : RrwState Thread Mutex) (thread : Thread) (next : LockingThread Mutex) :
    (state.goto thread next).threads thread = next :=
  Function.update_self _ _ _

omit [DecidableEq Mutex] in
theorem RrwState.threads_goto_of_ne (state : RrwState Thread Mutex) {thread other : Thread} (next : LockingThread Mutex)
    (different : other ≠ thread) : (state.goto thread next).threads other = state.threads other :=
  Function.update_of_ne different _ _

omit [DecidableEq Mutex] in
/-- What holds of all threads, and of the one that moves afterwards. -/
theorem RrwState.forall_goto (holds : LockingThread Mutex -> Prop) (earlier : forall thread, holds (state.threads thread))
    {mover : Thread} {next : LockingThread Mutex} (now : holds next) (thread : Thread) :
    holds ((state.goto mover next).threads thread) := by
  rw [RrwState.threads_goto]
  split
  · exact now
  · exact earlier thread

theorem RrwState.holds_goto {thread : Thread} {m : Mutex} {next : LockingThread Mutex} {count : Nat}
    (changed : next.run.outstanding = Function.update (state.threads thread).run.outstanding m count) :
    (state.goto thread next).holds = state.holds.setReads thread m count := by
  apply LockHolds.ext
  · funext reader
    change ((state.goto thread next).threads reader).run.outstanding =
      Function.update state.holds.reads thread (Function.update (state.holds.reads thread) m count) reader
    rw [RrwState.threads_goto, Function.update_apply]
    split
    · exact changed
    · rfl
  · rfl

omit [DecidableEq Mutex] in
theorem RrwState.holds_goto_same {thread : Thread} {next : LockingThread Mutex}
    (same : next.run.outstanding = (state.threads thread).run.outstanding) :
    (state.goto thread next).holds = state.holds := by
  apply LockHolds.ext
  · funext reader
    change ((state.goto thread next).threads reader).run.outstanding = (state.threads reader).run.outstanding
    rw [RrwState.threads_goto]
    split
    · rename_i here
      rw [same, here]
    · rfl
  · rfl

theorem consistent_of_reachable
    (reachable : ((rrwSystem Thread mechanism policy).within RrwState.Shallow).Reachable state)
    (thread : Thread) : (state.threads thread).Consistent mechanism := by
  revert thread
  apply reachable.invariant
  · rintro _ ⟨rfl, _⟩ thread
    exact LockingThread.consistent_fresh policy
  · rintro before after _ consistent ⟨move, shallow⟩
    cases move with
    | callRo mover m memory running =>
        apply RrwState.forall_goto (LockingThread.Consistent mechanism) consistent
        apply (consistent mover).callRo running
        have depth := shallow mover
        rwa [RrwState.threads_goto_self] at depth
    | grantRo mover m waits _ => exact RrwState.forall_goto _ consistent ((consistent mover).grantRo waits)
    | tryRo mover m memory granted memoryLater running _ =>
        apply RrwState.forall_goto (LockingThread.Consistent mechanism) consistent
        apply (consistent mover).tryRo running
        have depth := shallow mover
        rwa [RrwState.threads_goto_self] at depth
    | releaseRo mover m running held => exact RrwState.forall_goto _ consistent ((consistent mover).releaseRo running held)
    | callRw mover m running =>
        apply RrwState.forall_goto (LockingThread.Consistent mechanism) consistent
        exact (consistent mover).goto (by rw [running]; nofun) nofun nofun
    | grantRw mover m waits _ =>
        apply RrwState.forall_goto (LockingThread.Consistent mechanism) consistent
        exact (consistent mover).goto (by rw [waits]; nofun) nofun nofun
    | tryRwTaken | tryRwRefused | releaseRw => exact consistent

/-- The holds of the callers follow the rules of reentrant locks. -/
theorem rrw_refines_reentrantLocks
    (reachable : ((rrwSystem Thread mechanism policy).within RrwState.Shallow).Reachable state) :
    (reentrantLocks Thread Mutex).Reachable state.holds := by
  apply reachable.invariant
  · rintro _ ⟨rfl, _⟩
    exact .initial rfl
  · rintro before after reachable earlier ⟨move, _⟩
    have exclusive := reentrantLocks_exclusive earlier
    have consistent := consistent_of_reachable reachable
    have free : forall {thread m}, 0 < (before.threads thread).run.outstanding m -> before.holds.writer m = none := by
      intro thread m held
      by_contra writing
      exact Nat.ne_of_gt held (exclusive m writing thread)
    have unread : forall {m}, before.WriterAdmitted m -> forall reader, before.holds.reads reader m = 0 :=
      fun admitted reader => ((consistent reader).osHolds_eq_zero_iff _).mp (admitted.2 reader)
    apply earlier.step
    cases move with
    | callRo thread m memory running =>
        rcases (consistent thread).callRo_cases running policy m memory with
          ⟨same, _⟩ | ⟨added, _, held⟩ | ⟨same, _⟩
        · rw [RrwState.holds_goto_same same]
          exact .pause
        · rw [RrwState.holds_goto added]
          exact .read thread m (free held)
        · rw [RrwState.holds_goto_same same]
          exact .pause
    | grantRo thread m waits admitted =>
        have added : (before.goto thread ((before.threads thread).grantRo m)).holds =
            before.holds.setReads thread m ((before.threads thread).run.outstanding m + 1) := RrwState.holds_goto rfl
        rw [added]
        exact .read thread m admitted.1
    | tryRo thread m memory granted memoryLater running admitted =>
        rcases ((consistent thread).tryRo_cases running policy m memory granted memoryLater).2 with
          same | ⟨added, answer⟩
        · rw [RrwState.holds_goto_same same]
          exact .pause
        · rw [RrwState.holds_goto added]
          exact .read thread m (answer.elim (fun granted => (admitted granted).1) free)
    | releaseRo thread m running held =>
        rw [RrwState.holds_goto (LockingThread.releaseRo_cases mechanism policy _ m).2]
        exact .unread thread m held
    | callRw thread m running =>
        have same : (before.goto thread { before.threads thread with point := .acquiringRw m }).holds = before.holds :=
          RrwState.holds_goto_same rfl
        rw [same]
        exact .pause
    | grantRw thread m waits admitted =>
        have same : (before.goto thread { before.threads thread with point := .running }).holds = before.holds :=
          RrwState.holds_goto_same rfl
        change LockHolds.Step _ ((before.goto thread _).holds.setWriter m (some thread))
        rw [same]
        exact .write thread m admitted.1 (unread admitted)
    | tryRwTaken thread m running admitted => exact .write thread m admitted.1 (unread admitted)
    | tryRwRefused thread running => exact .pause
    | releaseRw thread m running writing => exact .unwrite thread m writing

/-- A thread that waits stays where it is, or the underlying lock admits it. -/
theorem RrwStep.waits_cases (move : RrwStep mechanism policy before after) (thread : Thread)
    (waits : (before.threads thread).point ≠ .running) :
    after.threads thread = before.threads thread ∨
    ((after.threads thread).point = .running ∧
      ((Exists fun m => (before.threads thread).point = .acquiringRo m ∧ before.ReadersAdmitted mechanism m) ∨
        Exists fun m => (before.threads thread).point = .acquiringRw m ∧ before.WriterAdmitted m)) := by
  have aside : forall {mover : Thread} {next : LockingThread Mutex}, (before.threads mover).point = .running ->
      (before.goto mover next).threads thread = before.threads thread := by
    intro mover next running
    rw [RrwState.threads_goto]
    split
    · rename_i same
      rw [same] at waits
      exact absurd running waits
    · rfl
  cases move with
  | callRo mover m memory running => exact Or.inl (aside running)
  | tryRo mover m memory granted memoryLater running _ => exact Or.inl (aside running)
  | releaseRo mover m running _ => exact Or.inl (aside running)
  | callRw mover m running => exact Or.inl (aside running)
  | grantRo mover m place admitted =>
      by_cases same : thread = mover
      · subst same
        refine Or.inr ⟨?_, Or.inl ⟨m, place, admitted⟩⟩
        rw [RrwState.threads_goto_self]
        rfl
      · left
        rw [RrwState.threads_goto, if_neg same]
  | grantRw mover m place admitted =>
      by_cases same : thread = mover
      · subst same
        refine Or.inr ⟨?_, Or.inr ⟨m, place, admitted⟩⟩
        change ((before.goto thread _).threads thread).point = _
        rw [RrwState.threads_goto_self]
      · left
        change (before.goto mover _).threads thread = _
        rw [RrwState.threads_goto, if_neg same]
  | tryRwTaken | tryRwRefused | releaseRw => exact Or.inl rfl

/-- A thread that reads already is admitted as long as it waits. -/
theorem admitted_of_nested (nests : mechanism.NestsReads)
    (reachable : ((rrwSystem Thread mechanism policy).within RrwState.Shallow).Reachable state)
    {thread : Thread} {m : Mutex} (reads : 0 < (state.threads thread).run.outstanding m)
    (waits : (state.threads thread).point = .acquiringRo m) : state.ReadersAdmitted mechanism m := by
  rcases nests with tracks | passes
  · have none := (consistent_of_reachable reachable thread).outermost tracks m waits
    exact absurd none (Nat.ne_of_gt reads)
  · refine ⟨?_, Or.inl passes⟩
    by_contra writing
    exact Nat.ne_of_gt reads (reentrantLocks_exclusive (rrw_refines_reentrantLocks reachable) m writing thread)

/-- A nested read and a queued writer. -/
structure WaitForEachOther (m : Mutex) (reader writer : Thread) (state : RrwState Thread Mutex) : Prop where
  reads : 0 < (state.threads reader).run.outstanding m
  nested : (state.threads reader).point = .acquiringRo m
  queued : (state.threads writer).point = .acquiringRw m

omit [DecidableEq Thread] in
theorem WaitForEachOther.stuck {m : Mutex} {reader writer : Thread}
    (stuck : WaitForEachOther m reader writer state) (strict : mechanism.readersPass = false)
    (consistent : (state.threads reader).Consistent mechanism) :
    ¬ state.ReadersAdmitted mechanism m ∧ ¬ state.WriterAdmitted m := by
  constructor
  · rintro ⟨_, passes | unqueued⟩
    · rw [strict] at passes
      cases passes
    · exact unqueued writer stuck.queued
  · rintro ⟨_, unread⟩
    exact Nat.ne_of_gt stuck.reads ((consistent.osHolds_eq_zero_iff m).mp (unread reader))

theorem WaitForEachOther.step {m : Mutex} {reader writer : Thread}
    (stuck : WaitForEachOther m reader writer before) (strict : mechanism.readersPass = false)
    (consistent : (before.threads reader).Consistent mechanism) (move : RrwStep mechanism policy before after) :
    WaitForEachOther m reader writer after := by
  have nobody := stuck.stuck strict consistent
  have readerStays : after.threads reader = before.threads reader := by
    rcases move.waits_cases reader (by rw [stuck.nested]; nofun) with
      stays | ⟨_, ⟨other, place, admitted⟩ | ⟨_, place, _⟩⟩
    · exact stays
    · cases stuck.nested.symm.trans place
      exact absurd admitted nobody.1
    · cases stuck.nested.symm.trans place
  have writerStays : after.threads writer = before.threads writer := by
    rcases move.waits_cases writer (by rw [stuck.queued]; nofun) with
      stays | ⟨_, ⟨_, place, _⟩ | ⟨other, place, admitted⟩⟩
    · exact stays
    · cases stuck.queued.symm.trans place
    · cases stuck.queued.symm.trans place
      exact absurd admitted nobody.2
  constructor
  · rw [readerStays]
    exact stuck.reads
  · rw [readerStays]
    exact stuck.nested
  · rw [writerStays]
    exact stuck.queued

theorem WaitForEachOther.continues {m : Mutex} {reader writer : Thread}
    (stuck : WaitForEachOther m reader writer before) (strict : mechanism.readersPass = false)
    (reachable : ((rrwSystem Thread mechanism policy).within RrwState.Shallow).Reachable before)
    (later : ((rrwSystem Thread mechanism policy).within RrwState.Shallow).Continues before after) :
    WaitForEachOther m reader writer after := by
  apply later.invariant reachable stuck
  intro middle next reached still move
  exact still.step strict (consistent_of_reachable reached reader) move.1

section Order

variable {Rank : Type} [Preorder Rank]

/-- A thread that begins to wait has no mutex that does not come before the one
it waits for; nested reads are free. -/
def InOrder (rank : Mutex -> Rank) (before after : RrwState Thread Mutex) : Prop :=
  forall thread m, (before.threads thread).point = .running -> (after.threads thread).point.awaited = some m ->
    ((after.threads thread).point = .acquiringRo m ∧ 0 < (before.threads thread).run.outstanding m) ∨
    forall held, before.holds.HeldBy held thread -> rank held < rank m

/-- The thread has a mutex and can give it back, or the lock it waits for admits it. -/
def RrwState.GoesOn (mechanism : RrwMechanism) (state : RrwState Thread Mutex) (thread : Thread) : Prop :=
  match (state.threads thread).point with
  | .running => Exists fun held => state.holds.HeldBy held thread
  | .acquiringRo m => state.ReadersAdmitted mechanism m
  | .acquiringRw m => state.WriterAdmitted m
  | .terminated => False

/-- Only a thread that goes on gets the write side. -/
theorem RrwStep.writer_cases (move : RrwStep mechanism policy before after) {thread : Thread} {held : Mutex}
    (writes : after.writer held = some thread) :
    before.writer held = some thread ∨ (after.threads thread).point = .running := by
  have taken : forall {mover : Thread} {m : Mutex},
      Function.update before.writer m (some mover) held = some thread -> before.writer held = some thread ∨ thread = mover := by
    intro mover m writes
    rw [Function.update_apply] at writes
    split at writes
    · exact Or.inr (Option.some.inj writes).symm
    · exact Or.inl writes
  cases move with
  | callRo | grantRo | tryRo | releaseRo | callRw | tryRwRefused => exact Or.inl writes
  | grantRw mover m place _ =>
      rcases taken writes with earlier | rfl
      · exact Or.inl earlier
      · right
        change ((before.goto thread _).threads thread).point = _
        rw [RrwState.threads_goto_self]
  | tryRwTaken mover m running _ =>
      rcases taken writes with earlier | rfl
      · exact Or.inl earlier
      · exact Or.inr running
  | releaseRw mover m _ _ =>
      left
      change Function.update before.writer m none held = some thread at writes
      rw [Function.update_apply] at writes
      split at writes
      · cases writes
      · exact writes

/-- A thread that begins to wait keeps its read holds. -/
theorem RrwStep.outstanding_of_waits (move : RrwStep mechanism policy before after)
    (consistent : forall thread, (before.threads thread).Consistent mechanism) {thread : Thread}
    (running : (before.threads thread).point = .running) (waits : (after.threads thread).point ≠ .running) :
    (after.threads thread).run.outstanding = (before.threads thread).run.outstanding := by
  have moved : forall {mover : Thread} {next : LockingThread Mutex},
      ((before.goto mover next).threads thread).point ≠ .running -> thread = mover := by
    intro mover next waits
    by_contra different
    rw [RrwState.threads_goto_of_ne _ _ different] at waits
    exact waits running
  cases move with
  | callRo mover m memory _ =>
      obtain rfl := moved waits
      rw [RrwState.threads_goto_self] at waits ⊢
      rcases (consistent thread).callRo_cases running policy m memory with ⟨same, _⟩ | ⟨_, runs, _⟩ | ⟨_, runs, _⟩
      · exact same
      · exact absurd runs waits
      · exact absurd runs waits
  | grantRo mover m place _ =>
      obtain rfl := moved waits
      cases running.symm.trans place
  | tryRo mover m memory granted memoryLater _ _ =>
      obtain rfl := moved waits
      rw [RrwState.threads_goto_self] at waits
      exact absurd ((consistent thread).tryRo_cases running policy m memory granted memoryLater).1 waits
  | releaseRo mover m _ _ =>
      obtain rfl := moved waits
      rw [RrwState.threads_goto_self, (LockingThread.releaseRo_cases mechanism policy _ m).1] at waits
      exact absurd running waits
  | callRw mover m _ =>
      obtain rfl := moved waits
      rw [RrwState.threads_goto_self]
  | grantRw mover m place _ =>
      obtain rfl := moved waits
      cases running.symm.trans place
  | tryRwTaken | tryRwRefused | releaseRw => exact absurd running waits

/-- What a thread that waits holds comes before the mutex that it waits for. -/
def RrwState.WaitsInOrder (rank : Mutex -> Rank) (state : RrwState Thread Mutex) : Prop :=
  forall thread m, (state.threads thread).point.awaited = some m ->
    ((state.threads thread).point = .acquiringRo m ∧ 0 < (state.threads thread).run.outstanding m) ∨
    forall held, state.holds.HeldBy held thread -> rank held < rank m

theorem waitsInOrder (rank : Mutex -> Rank)
    (reachable : (((rrwSystem Thread mechanism policy).within RrwState.Shallow).stepsWhere (InOrder rank)).Reachable state) :
    state.WaitsInOrder rank := by
  apply reachable.invariant
  · rintro _ ⟨rfl, _⟩ thread m waits
    cases waits
  · rintro before after reachable ordered ⟨⟨move, _⟩, inOrder⟩ thread m waits
    have consistent := consistent_of_reachable reachable.of_stepsWhere
    have resting : (after.threads thread).point ≠ .running := by
      intro running
      rw [running] at waits
      cases waits
    have reads : (after.threads thread).run.outstanding = (before.threads thread).run.outstanding := by
      by_cases running : (before.threads thread).point = .running
      · exact move.outstanding_of_waits consistent running resting
      · rcases move.waits_cases thread running with stays | ⟨runs, _⟩
        · rw [stays]
        · exact absurd runs resting
    have fewer : forall held, after.holds.HeldBy held thread -> before.holds.HeldBy held thread := by
      rintro held (read | writes)
      · left
        change 0 < (after.threads thread).run.outstanding held at read
        rwa [reads] at read
      · exact Or.inr ((move.writer_cases writes).resolve_right resting)
    have earlier : ((after.threads thread).point = .acquiringRo m ∧ 0 < (before.threads thread).run.outstanding m) ∨
        forall held, before.holds.HeldBy held thread -> rank held < rank m := by
      by_cases running : (before.threads thread).point = .running
      · exact inOrder thread m running waits
      · rcases move.waits_cases thread running with stays | ⟨runs, _⟩
        · rw [stays] at waits ⊢
          exact ordered thread m waits
        · exact absurd runs resting
    rw [reads]
    exact earlier.imp id (fun less held has => less held (fewer held has))

omit [DecidableEq Thread] [DecidableEq Mutex] in
theorem goesOn_of_running {thread : Thread} {held : Mutex} (running : (state.threads thread).point = .running)
    (has : state.holds.HeldBy held thread) : state.GoesOn mechanism thread := by
  rw [RrwState.GoesOn, running]
  exact ⟨held, has⟩

omit [DecidableEq Thread] [DecidableEq Mutex] in
theorem goesOn_of_readersAdmitted {thread : Thread} {m : Mutex} (waits : (state.threads thread).point = .acquiringRo m)
    (admitted : state.ReadersAdmitted mechanism m) : state.GoesOn mechanism thread := by
  rw [RrwState.GoesOn, waits]
  exact admitted

omit [DecidableEq Thread] [DecidableEq Mutex] in
theorem goesOn_of_writerAdmitted {thread : Thread} {m : Mutex} (waits : (state.threads thread).point = .acquiringRw m)
    (admitted : state.WriterAdmitted m) : state.GoesOn mechanism thread := by
  rw [RrwState.GoesOn, waits]
  exact admitted

/-- At a standstill, somebody holds the mutex that a thread waits for. -/
theorem heldBy_of_standstill
    (reachable : ((rrwSystem Thread mechanism policy).within RrwState.Shallow).Reachable state)
    (standstill : ¬ Exists fun other => state.GoesOn mechanism other) {thread : Thread} {m : Mutex}
    (waits : (state.threads thread).point.awaited = some m) : Exists fun holder => state.holds.HeldBy m holder := by
  by_cases free : state.writer m = none
  · -- the writer that waits, or that keeps the reader out, is kept out by a reader
    have read : forall {writer}, (state.threads writer).point = .acquiringRw m ->
        Exists fun holder => state.holds.HeldBy m holder := by
      intro writer queued
      by_contra unheld
      refine standstill ⟨writer, goesOn_of_writerAdmitted queued ⟨free, ?_⟩⟩
      intro reader
      apply ((consistent_of_reachable reachable reader).osHolds_eq_zero_iff m).mpr
      exact Nat.eq_zero_of_not_pos (fun reads => unheld ⟨reader, Or.inl reads⟩)
    cases point : (state.threads thread).point with
    | running | terminated =>
        rw [point] at waits
        cases waits
    | acquiringRw other =>
        rw [point] at waits
        cases waits
        exact read point
    | acquiringRo other =>
        rw [point] at waits
        cases waits
        by_cases queue : Exists fun writer => (state.threads writer).point = .acquiringRw m
        · obtain ⟨writer, queued⟩ := queue
          exact read queued
        · refine absurd ⟨thread, goesOn_of_readersAdmitted point ⟨free, Or.inr ?_⟩⟩ standstill
          exact fun writer queued => queue ⟨writer, queued⟩
  · obtain ⟨writer, writes⟩ := Option.ne_none_iff_exists'.mp free
    exact ⟨writer, Or.inr writes⟩

/-- Threads that take the mutexes in a fixed order, and read again whenever they
like, never wait for each other: as long as one of them waits, some thread is
admitted or has a mutex that it can give back. -/
theorem ordered_threads_go_on [Finite Thread] (nests : mechanism.NestsReads) (rank : Mutex -> Rank)
    (state : RrwState Thread Mutex)
    (reachable : (((rrwSystem Thread mechanism policy).within RrwState.Shallow).stepsWhere (InOrder rank)).Reachable state)
    (thread : Thread) (m : Mutex) (waits : (state.threads thread).point.awaited = some m) :
    Exists fun other => state.GoesOn mechanism other := by
  have bounded := reachable.of_stepsWhere
  by_contra standstill
  refine waits_end rank (fun thread => (state.threads thread).point.awaited) ?_ waits
  intro thread m waits
  right
  obtain ⟨holder, has⟩ := heldBy_of_standstill bounded standstill waits
  cases point : (state.threads holder).point with
  | running => exact absurd ⟨holder, goesOn_of_running point has⟩ standstill
  | terminated => exact absurd point (consistent_of_reachable bounded holder).alive
  | acquiringRo later | acquiringRw later =>
      have waitsLater : (state.threads holder).point.awaited = some later := by
        rw [point]
        rfl
      rcases waitsInOrder rank reachable holder later waitsLater with ⟨nested, reads⟩ | less
      · have admitted := admitted_of_nested nests bounded reads nested
        exact absurd ⟨holder, goesOn_of_readersAdmitted nested admitted⟩ standstill
      · exact ⟨holder, later, waitsLater, less m has⟩

end Order

end Runs

/-! ## Two threads and two mutexes -/

/-- The mutex `false` comes before the mutex `true`. -/
def orderedSystem : System (RrwState Bool Bool) :=
  ((rrwSystem Bool .basicRrwMutex exactGrowth).within RrwState.Shallow).stepsWhere (InOrder Bool.toNat)

/-- A step after which nobody waits. -/
theorem ordered_step {state next : RrwState Bool Bool} (reachable : orderedSystem.Reachable state)
    (move : RrwStep .basicRrwMutex exactGrowth state next)
    (shallow : forall thread m, (next.threads thread).run.outstanding m < 2 ^ 32)
    (running : forall thread, (next.threads thread).point = .running) : orderedSystem.Reachable next := by
  refine .step reachable ⟨⟨move, shallow⟩, ?_⟩
  intro thread m _ waits
  rw [running] at waits
  cases waits

/-- Both threads read the first mutex, one of them twice.  That one has the second
mutex too, and the other one waits for it. -/
theorem nested_and_queued : Exists fun state => orderedSystem.Reachable state ∧
    (state.threads true).run.outstanding false = 2 ∧ (state.threads false).run.outstanding false = 1 ∧
      state.writer true = some true ∧ (state.threads false).point = .acquiringRo true := by
  have start : orderedSystem.Reachable (.fresh exactGrowth) := .initial ⟨rfl, fun _ _ => Nat.two_pow_pos 32⟩
  have reads := ordered_step start (.tryRo true false true true true rfl (fun _ => ⟨rfl, Or.inr (by decide)⟩))
    (by decide) (by decide)
  have nests := ordered_step reads (.callRo true false true rfl) (by decide) (by decide)
  have other := ordered_step nests (.tryRo false false true true true rfl (fun _ => ⟨rfl, Or.inr (by decide)⟩))
    (by decide) (by decide)
  have writes := ordered_step other (.tryRwTaken true true rfl ⟨rfl, by decide⟩) (by decide) (by decide)
  refine ⟨_, .step writes ⟨⟨.callRo false true true rfl, ?_⟩, ?_⟩, rfl, rfl, rfl, rfl⟩
  · unfold RrwState.Shallow
    decide
  · intro thread m _ waits
    right
    intro held has
    cases thread with
    | true => cases waits
    | false =>
        cases waits
        cases held with
        | false => decide
        | true =>
            rcases has with reads | writes
            · exact absurd reads (by decide)
            · exact absurd writes (by decide)

theorem ordered_threads_go_on_queued : Exists fun state : RrwState Bool Bool =>
    (state.threads false).point = .acquiringRo true ∧ Exists fun other => state.GoesOn .basicRrwMutex other := by
  obtain ⟨state, reachable, _, _, _, waits⟩ := nested_and_queued
  refine ⟨state, waits, ordered_threads_go_on (Or.inl rfl) Bool.toNat state reachable false true ?_⟩
  rw [waits]
  rfl

end Threading
end Sweater
