import Sweater.Interleaving.Reachability
import Sweater.Machine.Tallies
import Sweater.Machine.Words

namespace Sweater
namespace Threading

open Interleaving
open Machine

/-!
# Reentrant reads by collapsing holds

`basic_rrw_mutex` takes the read side of the underlying lock once for all the
read holds that a thread has on one mutex.  The holds are recorded in a
`read_recursion_registry`, a table that belongs to the thread.

The container of the registry is any vector that keeps its contents when an
allocation fails; how much it allocates when it grows is left to a policy.
Whether memory is available, and whether a `try` of the underlying lock
succeeds, is decided from outside at every operation.  The write side is
inherited unchanged and does not appear here.
-/

variable {Mutex : Type}

/-- `read_hold` -/
structure ReadHold (Mutex : Type) where
  mutex : Mutex
  depth : BitVec 32
  deriving DecidableEq

/-- The capacity that a container gets when it asks for a number of elements,
and the capacity it has before it allocates at all. -/
structure GrowthPolicy where
  inPlace : Nat
  grown : Nat -> Nat
  enough : forall requested, requested ≤ grown requested

/-- `std::bad_alloc` -/
inductive BadAlloc
  | badAlloc
  deriving DecidableEq

/-- `HeldVec` -/
structure HeldVec (Mutex : Type) where
  holds : List (ReadHold Mutex)
  capacity : Nat
  fits : holds.length ≤ capacity

namespace HeldVec

variable (policy : GrowthPolicy) (memory : Bool) (vec : HeldVec Mutex)

def fresh : HeldVec Mutex := ⟨[], policy.inPlace, Nat.zero_le _⟩

/-- `reserve( requested )` -/
def reserve (requested : Nat) : Except BadAlloc Unit × HeldVec Mutex :=
  if requested ≤ vec.capacity then (.ok (), vec)
  else if short : vec.capacity < requested ∧ memory = true then
    (.ok (), ⟨vec.holds, policy.grown requested,
      Nat.le_trans vec.fits (Nat.le_trans (Nat.le_of_lt short.1) (policy.enough requested))⟩)
  else (.error .badAlloc, vec)

/-- `emplace_back( mutex, depth )` -/
def emplaceBack (hold : ReadHold Mutex) : Except BadAlloc Unit × HeldVec Mutex :=
  if room : vec.holds.length < vec.capacity then
    (.ok (), ⟨vec.holds ++ [hold], vec.capacity, by rw [List.length_append]; exact room⟩)
  else if memory then
    (.ok (), ⟨vec.holds ++ [hold], policy.grown (vec.holds.length + 1), by
      rw [List.length_append]; exact policy.enough _⟩)
  else (.error .badAlloc, vec)

/-- `held_[ index ] = hold` -/
def assign (index : Nat) (hold : ReadHold Mutex) : HeldVec Mutex :=
  ⟨vec.holds.set index hold, vec.capacity, by rw [List.length_set]; exact vec.fits⟩

/-- `pop_back()` -/
def popBack : HeldVec Mutex :=
  ⟨vec.holds.dropLast, vec.capacity, by
    rw [List.length_dropLast]; exact Nat.le_trans (Nat.sub_le _ _) vec.fits⟩

end HeldVec

/-! ## The registry -/

namespace HeldVec

variable [DecidableEq Mutex] (policy : GrowthPolicy) (memory : Bool) (vec : HeldVec Mutex) (m : Mutex)

/-- The loop that looks for the entry of a mutex. -/
def locate : Option (Fin vec.holds.length) :=
  vec.holds.findFinIdx? (fun e => decide (e.mutex = m))

/-- `++e.depth` -/
def bump (index : Fin vec.holds.length) : HeldVec Mutex :=
  vec.assign index { vec.holds[index] with depth := vec.holds[index].depth + 1 }

/-- `enter( m )`; true asks the caller to take the lock. -/
def enter : Except BadAlloc Bool × HeldVec Mutex :=
  match vec.locate m with
  | some index => (.ok false, vec.bump index)
  | none =>
      match vec.emplaceBack policy memory ⟨m, 1⟩ with
      | (.ok _, entered) => (.ok true, entered)
      | (.error failure, left) => (.error failure, left)

omit [DecidableEq Mutex] in
/-- `held_[ index ] = held_.back(); held_.pop_back();` -/
def removeBySwap (index : Nat) : HeldVec Mutex :=
  match vec.holds.getLast? with
  | some back => (vec.assign index back).popBack
  | none => vec

/-- `leave( m )`; true asks the caller to drop the lock. -/
def leave : Bool × HeldVec Mutex :=
  match vec.locate m with
  | some index =>
      let depth := vec.holds[index].depth - 1
      let lowered := vec.assign index { vec.holds[index] with depth := depth }
      if depth = 0 then (true, lowered.removeBySwap index) else (false, lowered)
  | none => (false, vec)

/-- `bump_if_held( m )` -/
def bumpIfHeld : Bool × HeldVec Mutex :=
  match vec.locate m with
  | some index => (true, vec.bump index)
  | none => (false, vec)

omit [DecidableEq Mutex] in
/-- `reserve_one()` -/
def reserveOne : Except BadAlloc Unit × HeldVec Mutex :=
  vec.reserve policy memory (vec.holds.length + 1)

omit [DecidableEq Mutex] in
/-- `note_first( m )`, up to the `noexcept` that stands on it -/
def noteFirst : Except BadAlloc Unit × HeldVec Mutex :=
  vec.emplaceBack policy memory ⟨m, 1⟩

end HeldVec

/-! ## The mutex -/

/-- The calls that reach the underlying lock. -/
inductive OsCall (Mutex : Type)
  | acquireRo (m : Mutex)
  | tryAcquireRo (m : Mutex) (granted : Bool)
  | releaseRo (m : Mutex)
  deriving DecidableEq

/-- One thread: its registry, the read locks that it holds of the underlying
locks, and, for the proofs, the calls it has made there. -/
structure ReadingThread (Mutex : Type) where
  registry : HeldVec Mutex
  osHolds : Mutex -> Int
  osCalls : List (OsCall Mutex)

/-- How an operation ends. -/
inductive ReadOutcome
  | returned
  /-- a `try` returns false -/
  | refused
  | threw
  /-- an exception leaves a `noexcept` function -/
  | terminated
  deriving DecidableEq

namespace ReadingThread

variable [DecidableEq Mutex]

def osAcquireRo (thread : ReadingThread Mutex) (m : Mutex) : ReadingThread Mutex :=
  { thread with
    osHolds := Function.update thread.osHolds m (thread.osHolds m + 1)
    osCalls := thread.osCalls ++ [.acquireRo m] }

def osTryAcquireRo (thread : ReadingThread Mutex) (m : Mutex) (granted : Bool) : ReadingThread Mutex :=
  { thread with
    osHolds := Function.update thread.osHolds m (thread.osHolds m + if granted then 1 else 0)
    osCalls := thread.osCalls ++ [.tryAcquireRo m granted] }

def osReleaseRo (thread : ReadingThread Mutex) (m : Mutex) : ReadingThread Mutex :=
  { thread with
    osHolds := Function.update thread.osHolds m (thread.osHolds m - 1)
    osCalls := thread.osCalls ++ [.releaseRo m] }

variable (policy : GrowthPolicy) (thread : ReadingThread Mutex) (m : Mutex)

/-- `acquire_ro()` -/
def acquireRo (memory : Bool) : ReadOutcome × ReadingThread Mutex :=
  match thread.registry.enter policy memory m with
  | (.ok true, registry) => (.returned, { thread with registry := registry }.osAcquireRo m)
  | (.ok false, registry) => (.returned, { thread with registry := registry })
  | (.error _, registry) => (.threw, { thread with registry := registry })

/-- `release_ro()` -/
def releaseRo : ReadOutcome × ReadingThread Mutex :=
  match thread.registry.leave m with
  | (true, registry) => (.returned, { thread with registry := registry }.osReleaseRo m)
  | (false, registry) => (.returned, { thread with registry := registry })

/-- `try_acquire_ro()`; memory may be short for the reservation and for the
note that follows it. -/
def tryAcquireRo (memory granted memoryLater : Bool) : ReadOutcome × ReadingThread Mutex :=
  match thread.registry.bumpIfHeld m with
  | (true, registry) => (.returned, { thread with registry := registry })
  | (false, registry) =>
      match registry.reserveOne policy memory with
      | (.error _, reserved) => (.threw, { thread with registry := reserved })
      | (.ok _, reserved) =>
          if granted then
            match reserved.noteFirst policy memoryLater m with
            | (.ok _, noted) =>
                (.returned, { { thread with registry := reserved }.osTryAcquireRo m true with registry := noted })
            | (.error _, noted) =>
                (.terminated, { { thread with registry := reserved }.osTryAcquireRo m true with registry := noted })
          else (.refused, { thread with registry := reserved }.osTryAcquireRo m false)

end ReadingThread

/-! ## Runs of one thread -/

/-- A call on the read side, with the answers that it meets. -/
inductive ReadOperation (Mutex : Type)
  | acquireRo (m : Mutex) (memory : Bool)
  | tryAcquireRo (m : Mutex) (memory granted memoryLater : Bool)
  | releaseRo (m : Mutex)

/-- A thread, and the read holds that its callers have on each mutex. -/
structure ReadRun (Mutex : Type) where
  thread : ReadingThread Mutex
  outstanding : Mutex -> Nat

namespace ReadOperation

/-- The mutex it is called on. -/
def mutex : ReadOperation Mutex -> Mutex
  | acquireRo m _ => m
  | tryAcquireRo m _ _ _ => m
  | releaseRo m => m

/-- A release is made only of a hold. -/
def Matched (run : ReadRun Mutex) : ReadOperation Mutex -> Prop
  | releaseRo m => 0 < run.outstanding m
  | _ => True

/-- A further hold on a mutex that the thread reads already. -/
def Nested (run : ReadRun Mutex) : ReadOperation Mutex -> Prop
  | releaseRo _ => False
  | operation => 0 < run.outstanding operation.mutex

variable [DecidableEq Mutex] (policy : GrowthPolicy)

def perform (thread : ReadingThread Mutex) : ReadOperation Mutex -> ReadOutcome × ReadingThread Mutex
  | acquireRo m memory => thread.acquireRo policy m memory
  | tryAcquireRo m memory granted memoryLater => thread.tryAcquireRo policy m memory granted memoryLater
  | releaseRo m => thread.releaseRo m

/-- The holds of the callers: a call that returns has added one or dropped one. -/
def account (outstanding : Mutex -> Nat) (outcome : ReadOutcome) : ReadOperation Mutex -> Mutex -> Nat
  | releaseRo m => Function.update outstanding m (outstanding m - 1)
  | operation =>
      if outcome = .returned then
        Function.update outstanding operation.mutex (outstanding operation.mutex + 1)
      else outstanding

end ReadOperation

/-- The run after a call. -/
def ReadOperation.next [DecidableEq Mutex] (policy : GrowthPolicy) (run : ReadRun Mutex)
    (operation : ReadOperation Mutex) : ReadRun Mutex where
  thread := (operation.perform policy run.thread).2
  outstanding := operation.account run.outstanding (operation.perform policy run.thread).1

/-- Any sequence of matched calls. -/
def readSystem [DecidableEq Mutex] (policy : GrowthPolicy) : System (ReadRun Mutex) where
  initial := fun run => run = ⟨⟨.fresh policy, fun _ => 0, []⟩, fun _ => 0⟩
  step := fun before after => Exists fun operation : ReadOperation Mutex =>
    operation.Matched before ∧ after = operation.next policy before

/-! ## What the registry records -/

namespace HeldVec

/-- The entries are the positive depths. -/
def Records (vec : HeldVec Mutex) (outstanding : Mutex -> Nat) : Prop :=
  Tallies ReadHold.mutex (fun hold => hold.depth.toNat) vec.holds outstanding

variable {policy : GrowthPolicy} {memory : Bool} {vec left : HeldVec Mutex} {m : Mutex}
  {outstanding : Mutex -> Nat}

/-- Reserving does not touch the contents, and leaves room if it succeeds. -/
theorem reserveOne_cases (policy : GrowthPolicy) (memory : Bool) (vec : HeldVec Mutex) :
    (Exists fun reserved : HeldVec Mutex => vec.reserveOne policy memory = (.ok (), reserved) ∧
      reserved.holds = vec.holds ∧ reserved.holds.length < reserved.capacity) ∨
    vec.reserveOne policy memory = (.error .badAlloc, vec) := by
  unfold reserveOne reserve
  split
  · exact Or.inl ⟨_, rfl, rfl, ‹_›⟩
  · split
    · exact Or.inl ⟨_, rfl, rfl, policy.enough _⟩
    · exact Or.inr rfl

/-- A failing allocation leaves the container as it was, and fails only where
there is no room. -/
theorem emplaceBack_cases (policy : GrowthPolicy) (memory : Bool) (vec : HeldVec Mutex)
    (hold : ReadHold Mutex) :
    (Exists fun pushed : HeldVec Mutex =>
      vec.emplaceBack policy memory hold = (.ok (), pushed) ∧ pushed.holds = vec.holds ++ [hold]) ∨
    (vec.emplaceBack policy memory hold = (.error .badAlloc, vec) ∧ vec.capacity ≤ vec.holds.length) := by
  unfold emplaceBack
  split
  · exact Or.inl ⟨_, rfl, rfl⟩
  · rename_i full
    split
    · exact Or.inl ⟨_, rfl, rfl⟩
    · exact Or.inr ⟨rfl, Nat.not_lt.mp full⟩

/-- The first hold on a mutex. -/
theorem Records.push (records : vec.Records outstanding) (none : outstanding m = 0)
    {pushed : HeldVec Mutex} (contents : pushed.holds = vec.holds ++ [⟨m, 1⟩]) [DecidableEq Mutex] :
    pushed.Records (Function.update outstanding m (outstanding m + 1)) := by
  have one : 0 < (1 : BitVec 32).toNat := by decide
  have added := Tallies.push records (⟨m, 1⟩ : ReadHold Mutex) none one
  rw [← contents] at added
  rw [none]
  exact added

variable [DecidableEq Mutex]

/-- The loop finds the entry of a mutex exactly if there is a hold on it. -/
theorem Records.locate_cases (records : vec.Records outstanding) (m : Mutex) :
    (Exists fun index => vec.locate m = some index ∧ vec.holds[index].mutex = m ∧
      vec.holds[index].depth.toNat = outstanding m ∧ 0 < outstanding m) ∨
    (vec.locate m = none ∧ outstanding m = 0) := by
  cases located : vec.locate m with
  | some index =>
      left
      have found := of_decide_eq_true (List.findFinIdx?_eq_some_iff.mp located).1
      have member : vec.holds[index] ∈ vec.holds := List.getElem_mem _
      have agrees := Tallies.agrees records _ member
      have positive := Tallies.positive records _ member
      rw [found] at agrees
      rw [agrees] at positive
      exact ⟨index, rfl, found, agrees, positive⟩
  | none =>
      right
      refine ⟨rfl, Nat.eq_zero_of_not_pos ?_⟩
      intro positive
      rcases List.mem_map.mp (Tallies.complete records m positive) with ⟨hold, member, same⟩
      have skipped := List.findFinIdx?_eq_none_iff.mp located hold member
      exact absurd (decide_eq_true same) skipped

/-- A further hold on a mutex that is held already. -/
theorem Records.bump (records : vec.Records outstanding) {index : Fin vec.holds.length}
    (found : vec.holds[index].mutex = m) (depth : vec.holds[index].depth.toNat = outstanding m)
    (shallow : outstanding m + 1 < 2 ^ 32) :
    (vec.bump index).Records (Function.update outstanding m (outstanding m + 1)) := by
  subst found
  have raised : (vec.holds[index].depth + 1).toNat = outstanding vec.holds[index].mutex + 1 := by
    rw [toNat_add_one _ (by rw [depth]; exact shallow), depth]
  have changed := Tallies.set records
    ({ vec.holds[index] with depth := vec.holds[index].depth + 1 } : ReadHold Mutex) index.isLt rfl (by simp only [raised]; exact Nat.succ_pos _)
  rw [raised] at changed
  exact changed

omit [DecidableEq Mutex] in
/-- The swap removes one entry and keeps the others. -/
theorem removeBySwap_perm (vec : HeldVec Mutex) {index : Nat} (inside : index < vec.holds.length) :
    (vec.removeBySwap index).holds.Perm (vec.holds.eraseIdx index) := by
  unfold removeBySwap
  split
  · exact set_getLast_dropLast_perm inside ‹_›
  · rename_i empty
    rw [List.getLast?_eq_none_iff.mp empty] at inside
    cases inside

/-- `leave` drops one hold, and says whether it was the last one. -/
theorem Records.leave (records : vec.Records outstanding) (held : 0 < outstanding m) :
    (vec.leave m).1 = decide (outstanding m = 1) ∧
    (vec.leave m).2.Records (Function.update outstanding m (outstanding m - 1)) := by
  rcases records.locate_cases m with ⟨index, located, found, depth, positive⟩ | ⟨_, none⟩
  · subst found
    have lowered : (vec.holds[index].depth - 1).toNat = outstanding vec.holds[index].mutex - 1 := by
      have one := toNat_sub_one vec.holds[index].depth (by rw [depth]; exact positive)
      omega
    unfold HeldVec.leave
    rw [located]
    simp only
    by_cases last : vec.holds[index].depth - 1 = 0
    · have one : outstanding vec.holds[index].mutex = 1 := by
        rw [last] at lowered
        change 0 = _ at lowered
        omega
      rw [if_pos last, one]
      refine ⟨rfl, ?_⟩
      have inside : index.val < (vec.holds.set index
          { vec.holds[index] with depth := vec.holds[index].depth - 1 }).length := by
        rw [List.length_set]
        exact index.isLt
      have removed := Tallies.eraseIdx records index.isLt
      refine removed.perm (List.Perm.symm ?_)
      refine (removeBySwap_perm (vec.assign index
        { vec.holds[index] with depth := vec.holds[index].depth - 1 }) inside).trans ?_
      change ((vec.holds.set _ _).eraseIdx _).Perm _
      rw [List.eraseIdx_set_eq]
    · have more : 0 < outstanding vec.holds[index].mutex - 1 := by
        rw [← lowered]
        exact Nat.pos_of_ne_zero (fun zero => last (BitVec.eq_of_toNat_eq zero))
      rw [if_neg last]
      refine ⟨(decide_eq_false (by omega)).symm, ?_⟩
      have changed := Tallies.set records
        ({ vec.holds[index] with depth := vec.holds[index].depth - 1 } : ReadHold Mutex) index.isLt rfl (by simp only [lowered]; exact more)
      rw [lowered] at changed
      exact changed
  · exact absurd none (Nat.pos_iff_ne_zero.mp held)

end HeldVec

/-! ## What an operation does -/

/-- The registry records the holds of the callers, and the underlying lock is
held once where there are any. -/
structure Collapsed (run : ReadRun Mutex) : Prop where
  records : run.thread.registry.Records run.outstanding
  locks : forall m, run.thread.osHolds m = if 0 < run.outstanding m then 1 else 0

section Operations

variable [DecidableEq Mutex] {policy : GrowthPolicy} {run : ReadRun Mutex}

/-- What a call leaves alone, whatever the depths. -/
structure Considerate (policy : GrowthPolicy) (run : ReadRun Mutex) (operation : ReadOperation Mutex) :
    Prop where
  nested : operation.Nested run -> (operation.next policy run).thread.osCalls = run.thread.osCalls
  undone : (operation.perform policy run.thread).1 = .refused ∨
      (operation.perform policy run.thread).1 = .threw ->
    (operation.next policy run).thread.registry.holds = run.thread.registry.holds ∧
      (operation.next policy run).thread.osHolds = run.thread.osHolds
  completed : (operation.perform policy run.thread).1 ≠ .terminated

theorem Considerate.of_performed {operation : ReadOperation Mutex} {outcome : ReadOutcome}
    {thread : ReadingThread Mutex} (performed : operation.perform policy run.thread = (outcome, thread))
    (nested : operation.Nested run -> thread.osCalls = run.thread.osCalls)
    (undone : outcome = .refused ∨ outcome = .threw ->
      thread.registry.holds = run.thread.registry.holds ∧ thread.osHolds = run.thread.osHolds)
    (completed : outcome ≠ .terminated) : Considerate policy run operation := by
  constructor
  · unfold ReadOperation.next
    rwa [performed]
  · unfold ReadOperation.next
    rwa [performed]
  · rwa [performed]

theorem Collapsed.of_performed {operation : ReadOperation Mutex} {outcome : ReadOutcome}
    {thread : ReadingThread Mutex} (performed : operation.perform policy run.thread = (outcome, thread))
    (records : thread.registry.Records (operation.account run.outstanding outcome))
    (locks : forall m, thread.osHolds m =
      if 0 < operation.account run.outstanding outcome m then 1 else 0) :
    Collapsed (operation.next policy run) := by
  constructor
  · unfold ReadOperation.next
    rwa [performed]
  · unfold ReadOperation.next
    rwa [performed]

/-- A call that returns has made the depth one greater. -/
theorem shallow_of_performed {operation : ReadOperation Mutex} {m : Mutex} {thread : ReadingThread Mutex}
    (performed : operation.perform policy run.thread = (.returned, thread))
    (added : operation.account run.outstanding .returned m = run.outstanding m + 1)
    (shallow : forall m, (operation.next policy run).outstanding m < 2 ^ 32) :
    run.outstanding m + 1 < 2 ^ 32 := by
  have bound := shallow m
  unfold ReadOperation.next at bound
  rw [performed] at bound
  change operation.account run.outstanding .returned m < 2 ^ 32 at bound
  rwa [added] at bound

/-- The locks after a first hold. -/
theorem Collapsed.lock (collapsed : Collapsed run) {m : Mutex} (none : run.outstanding m = 0) (other : Mutex) :
    Function.update run.thread.osHolds m (run.thread.osHolds m + 1) other =
      if 0 < Function.update run.outstanding m (run.outstanding m + 1) other then 1 else 0 := by
  by_cases same : other = m
  · subst same
    rw [Function.update_self, Function.update_self, collapsed.locks, none]
    rfl
  · rw [Function.update_of_ne same, Function.update_of_ne same, collapsed.locks]

/-- The locks after a further hold. -/
theorem Collapsed.nest (collapsed : Collapsed run) {m : Mutex} (some : 0 < run.outstanding m) (other : Mutex) :
    run.thread.osHolds other =
      if 0 < Function.update run.outstanding m (run.outstanding m + 1) other then 1 else 0 := by
  by_cases same : other = m
  · subst same
    rw [Function.update_self, collapsed.locks, if_pos some, if_pos (Nat.succ_pos _)]
  · rw [Function.update_of_ne same, collapsed.locks]

/-- The locks after a hold has been dropped. -/
theorem Collapsed.unlock (collapsed : Collapsed run) {m : Mutex} (held : 0 < run.outstanding m)
    (other : Mutex) :
    (if run.outstanding m = 1 then Function.update run.thread.osHolds m (run.thread.osHolds m - 1)
      else run.thread.osHolds) other =
      if 0 < Function.update run.outstanding m (run.outstanding m - 1) other then 1 else 0 := by
  have now := collapsed.locks m
  rw [if_pos held] at now
  by_cases same : other = m
  · subst same
    rw [Function.update_self]
    split
    · rename_i last
      rw [Function.update_self, now, last]
      rfl
    · rename_i more
      rw [now, if_pos (by omega)]
  · rw [Function.update_of_ne same]
    split
    · rw [Function.update_of_ne same, collapsed.locks]
    · exact collapsed.locks other

theorem Collapsed.acquireRo (collapsed : Collapsed run) (m : Mutex) (memory : Bool) :
    Considerate policy run (.acquireRo m memory) ∧
    ((forall other, ((ReadOperation.acquireRo m memory).next policy run).outstanding other < 2 ^ 32) ->
      Collapsed ((ReadOperation.acquireRo m memory).next policy run)) := by
  rcases collapsed.records.locate_cases m with ⟨index, located, found, depth, some⟩ | ⟨located, none⟩
  · have performed : (ReadOperation.acquireRo m memory).perform policy run.thread =
        (.returned, { run.thread with registry := run.thread.registry.bump index }) := by
      simp only [ReadOperation.perform, ReadingThread.acquireRo, HeldVec.enter, located]
    refine ⟨.of_performed performed (fun _ => rfl) nofun nofun, fun shallow => ?_⟩
    have bound := shallow_of_performed performed (Function.update_self _ _ _) shallow
    exact .of_performed performed (collapsed.records.bump found depth bound) (collapsed.nest some)
  · have outermost : ¬ (ReadOperation.acquireRo m memory).Nested run := Nat.not_lt.mpr (Nat.le_of_eq none)
    rcases HeldVec.emplaceBack_cases policy memory run.thread.registry ⟨m, 1⟩ with
      ⟨pushed, entered, contents⟩ | ⟨failed, _⟩
    · have performed : (ReadOperation.acquireRo m memory).perform policy run.thread =
          (.returned, { run.thread with registry := pushed }.osAcquireRo m) := by
        simp only [ReadOperation.perform, ReadingThread.acquireRo, HeldVec.enter, located, entered]
      exact ⟨.of_performed performed (fun nested => absurd nested outermost) nofun nofun,
        fun _ => .of_performed performed (collapsed.records.push none contents) (collapsed.lock none)⟩
    · have performed : (ReadOperation.acquireRo m memory).perform policy run.thread = (.threw, run.thread) := by
        simp only [ReadOperation.perform, ReadingThread.acquireRo, HeldVec.enter, located, failed]
      exact ⟨.of_performed performed (fun _ => rfl) (fun _ => ⟨rfl, rfl⟩) nofun,
        fun _ => .of_performed performed collapsed.records collapsed.locks⟩

theorem Collapsed.tryAcquireRo (collapsed : Collapsed run) (m : Mutex) (memory granted memoryLater : Bool) :
    Considerate policy run (.tryAcquireRo m memory granted memoryLater) ∧
    ((forall other, ((ReadOperation.tryAcquireRo m memory granted memoryLater).next policy run).outstanding
        other < 2 ^ 32) ->
      Collapsed ((ReadOperation.tryAcquireRo m memory granted memoryLater).next policy run)) := by
  rcases collapsed.records.locate_cases m with ⟨index, located, found, depth, some⟩ | ⟨located, none⟩
  · have performed : (ReadOperation.tryAcquireRo m memory granted memoryLater).perform policy run.thread =
        (.returned, { run.thread with registry := run.thread.registry.bump index }) := by
      simp only [ReadOperation.perform, ReadingThread.tryAcquireRo, HeldVec.bumpIfHeld, located]
    refine ⟨.of_performed performed (fun _ => rfl) nofun nofun, fun shallow => ?_⟩
    have bound := shallow_of_performed performed (Function.update_self _ _ _) shallow
    exact .of_performed performed (collapsed.records.bump found depth bound) (collapsed.nest some)
  · have outermost : ¬ (ReadOperation.tryAcquireRo m memory granted memoryLater).Nested run :=
      Nat.not_lt.mpr (Nat.le_of_eq none)
    rcases HeldVec.reserveOne_cases policy memory run.thread.registry with
      ⟨reserved, reserving, contents, room⟩ | failed
    · cases granted with
      | false =>
          have performed : (ReadOperation.tryAcquireRo m memory false memoryLater).perform policy run.thread =
              (.refused, { run.thread with registry := reserved }.osTryAcquireRo m false) := by
            simp only [ReadOperation.perform, ReadingThread.tryAcquireRo, HeldVec.bumpIfHeld, located,
              reserving, Bool.false_eq_true, if_false]
          have locks : ({ run.thread with registry := reserved }.osTryAcquireRo m false).osHolds =
              run.thread.osHolds := by
            simp only [ReadingThread.osTryAcquireRo, Bool.false_eq_true, if_false, Int.add_zero,
              Function.update_eq_self]
          refine ⟨.of_performed performed (fun nested => absurd nested outermost)
            (fun _ => ⟨contents, locks⟩) nofun, fun _ => .of_performed performed ?_ ?_⟩
          · have records := collapsed.records
            unfold HeldVec.Records at records ⊢
            rw [← contents] at records
            exact records
          · rw [locks]
            exact collapsed.locks
      | true =>
          rcases HeldVec.emplaceBack_cases policy memoryLater reserved ⟨m, 1⟩ with
            ⟨noted, entered, appended⟩ | ⟨_, full⟩
          · have performed : (ReadOperation.tryAcquireRo m memory true memoryLater).perform policy run.thread =
                (.returned, { { run.thread with registry := reserved }.osTryAcquireRo m true with
                  registry := noted }) := by
              simp only [ReadOperation.perform, ReadingThread.tryAcquireRo, HeldVec.bumpIfHeld, located,
                reserving, if_true, HeldVec.noteFirst, entered]
            rw [contents] at appended
            exact ⟨.of_performed performed (fun nested => absurd nested outermost) nofun nofun,
              fun _ => .of_performed performed (collapsed.records.push none appended) (collapsed.lock none)⟩
          · exact absurd room (Nat.not_lt.mpr full)
    · have performed : (ReadOperation.tryAcquireRo m memory granted memoryLater).perform policy run.thread =
          (.threw, run.thread) := by
        simp only [ReadOperation.perform, ReadingThread.tryAcquireRo, HeldVec.bumpIfHeld, located, failed]
      exact ⟨.of_performed performed (fun _ => rfl) (fun _ => ⟨rfl, rfl⟩) nofun,
        fun _ => .of_performed performed collapsed.records collapsed.locks⟩

theorem Collapsed.releaseRo (collapsed : Collapsed run) (m : Mutex) (held : 0 < run.outstanding m) :
    Considerate policy run (.releaseRo m) ∧ Collapsed ((ReadOperation.releaseRo m).next policy run) := by
  rcases collapsed.records.leave held with ⟨isLast, records⟩
  have unlocked := collapsed.unlock held
  have left : run.thread.registry.leave m =
      (decide (run.outstanding m = 1), (run.thread.registry.leave m).2) := Prod.ext isLast rfl
  by_cases last : run.outstanding m = 1
  · rw [decide_eq_true last] at left
    have performed : (ReadOperation.releaseRo m).perform policy run.thread =
        (.returned, { run.thread with registry := (run.thread.registry.leave m).2 }.osReleaseRo m) := by
      rw [ReadOperation.perform, ReadingThread.releaseRo, left]
    rw [if_pos last] at unlocked
    exact ⟨.of_performed performed nofun nofun nofun, .of_performed performed records unlocked⟩
  · rw [decide_eq_false last] at left
    have performed : (ReadOperation.releaseRo m).perform policy run.thread =
        (.returned, { run.thread with registry := (run.thread.registry.leave m).2 }) := by
      rw [ReadOperation.perform, ReadingThread.releaseRo, left]
    rw [if_neg last] at unlocked
    exact ⟨.of_performed performed nofun nofun nofun, .of_performed performed records unlocked⟩

/-- Every call that is matched. -/
theorem Collapsed.perform (collapsed : Collapsed run) (operation : ReadOperation Mutex)
    (matched : operation.Matched run) :
    Considerate policy run operation ∧
    ((forall m, (operation.next policy run).outstanding m < 2 ^ 32) -> Collapsed (operation.next policy run)) := by
  cases operation with
  | acquireRo m memory => exact collapsed.acquireRo m memory
  | tryAcquireRo m memory granted memoryLater => exact collapsed.tryAcquireRo m memory granted memoryLater
  | releaseRo m =>
      have released : Considerate policy run (.releaseRo m) ∧ Collapsed ((ReadOperation.releaseRo m).next policy run) :=
        collapsed.releaseRo m matched
      exact ⟨released.1, fun _ => released.2⟩

end Operations

/-! ## Whole runs -/

/-- The registry collapses the read holds of a thread, for every sequence of
matched calls: after each of them there is at most one entry for a mutex, with
the number of outstanding holds as its depth, and the underlying lock is held
once exactly if there are any.  A further call does not reach the underlying
lock if it is nested, and leaves no trace if it throws or returns false. -/
theorem holds_collapse [DecidableEq Mutex] (policy : GrowthPolicy) (run : ReadRun Mutex)
    (reachable : ((readSystem policy).within
      (fun run => forall m, run.outstanding m < 2 ^ 32)).Reachable run) :
    (run.thread.registry.holds.map ReadHold.mutex).Nodup ∧
    (forall hold, hold ∈ run.thread.registry.holds -> hold.depth.toNat = run.outstanding hold.mutex) ∧
    (forall m, m ∈ run.thread.registry.holds.map ReadHold.mutex ↔ 0 < run.outstanding m) ∧
    (forall m, run.thread.osHolds m = if 0 < run.outstanding m then 1 else 0) ∧
    forall operation : ReadOperation Mutex, operation.Matched run ->
      (operation.Nested run -> (operation.next policy run).thread.osCalls = run.thread.osCalls) ∧
      ((operation.perform policy run.thread).1 = .refused ∨ (operation.perform policy run.thread).1 = .threw ->
        (operation.next policy run).thread.registry.holds = run.thread.registry.holds ∧
          (operation.next policy run).thread.osHolds = run.thread.osHolds) ∧
      (operation.perform policy run.thread).1 ≠ .terminated := by
  have collapsed : Collapsed run := by
    refine reachable.invariant ?_ ?_
    · rintro _ ⟨rfl, _⟩
      exact ⟨Tallies.empty, fun _ => rfl⟩
    · rintro before _ _ collapsed ⟨⟨operation, matched, rfl⟩, shallow⟩
      exact (collapsed.perform operation matched).2 shallow
  refine ⟨collapsed.records.unique, collapsed.records.agrees, collapsed.records.mem_keys_iff,
    collapsed.locks, ?_⟩
  intro operation matched
  have considerate : Considerate policy run operation := (collapsed.perform operation matched).1
  exact ⟨considerate.nested, considerate.undone, considerate.completed⟩

/-- A container that allocates exactly what it is asked for. -/
def exactGrowth : GrowthPolicy := ⟨0, id, fun _ => Nat.le_refl _⟩

/-- Two mutexes, the second one read twice, and the first one left again. -/
def nestedReads : ReadRun Bool :=
  [ReadOperation.acquireRo false true, .tryAcquireRo true true true false, .acquireRo true false,
    .releaseRo false].foldl (ReadOperation.next exactGrowth) ⟨⟨.fresh exactGrowth, fun _ => 0, []⟩, fun _ => 0⟩

theorem nestedReads_reachable :
    ((readSystem exactGrowth).within (fun run => forall m : Bool, run.outstanding m < 2 ^ 32)).Reachable
      nestedReads := by
  have start : ((readSystem exactGrowth).within
      (fun run => forall m : Bool, run.outstanding m < 2 ^ 32)).Reachable
      ⟨⟨.fresh exactGrowth, fun _ => 0, []⟩, fun _ => 0⟩ := .initial ⟨rfl, by decide⟩
  have reads := System.Reachable.step start ⟨⟨.acquireRo false true, trivial, rfl⟩, by decide⟩
  have tries := System.Reachable.step reads ⟨⟨.tryAcquireRo true true true false, trivial, rfl⟩, by decide⟩
  have again := System.Reachable.step tries ⟨⟨.acquireRo true false, trivial, rfl⟩, by decide⟩
  exact System.Reachable.step again ⟨⟨.releaseRo false, by unfold ReadOperation.Matched; decide, rfl⟩, by decide⟩

theorem holds_collapse_nestedReads :
    (forall m, nestedReads.thread.osHolds m = if 0 < nestedReads.outstanding m then 1 else 0) ∧
    ((ReadOperation.acquireRo true false).next exactGrowth nestedReads).thread.osCalls =
      nestedReads.thread.osCalls := by
  have collapse := holds_collapse exactGrowth nestedReads nestedReads_reachable
  refine ⟨collapse.2.2.2.1, (collapse.2.2.2.2 (.acquireRo true false) trivial).1 ?_⟩
  unfold ReadOperation.Nested
  decide

end Threading
end Sweater
