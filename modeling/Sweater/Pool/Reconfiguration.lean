import Sweater.Interleaving.Reachability
import Mathlib.Data.BitVec
import Mathlib.Data.List.Basic
import Mathlib.Data.List.TakeWhile

namespace Sweater
namespace Pool

open Interleaving

/-!
# Changing the size of the pool

The pool of a shop is a span over an array of worker threads.  `create_pool`
publishes the span before the threads exist and keeps the array in a
`unique_ptr` until all of them have been created.  When the creation of a
thread throws, the array is freed on the way out, and neither the span nor the
threads that already run are told.

What has happened to arrays and threads is kept as a log of events, the latest
one first.  An array is named by the length of the log at its allocation, so
that no name comes back.  An operation has no result at all when it would touch
a freed array or join a thread twice.
-/

/-- What happens to arrays of workers and to their threads. -/
inductive PoolEvent
  | allocated (storage : Nat)
  | started (storage workerIndex : Nat)
  | joined (storage workerIndex : Nat)
  | freed (storage : Nat)
  deriving DecidableEq, Repr

namespace PoolEvent

/-- The array that an event is about. -/
def storage : PoolEvent -> Nat
  | allocated storage | started storage _ | joined storage _ | freed storage => storage

/-- A thread runs from its start until it is joined. -/
def Running (events : List PoolEvent) (storage workerIndex : Nat) : Prop :=
  started storage workerIndex ∈ events ∧ joined storage workerIndex ∉ events

instance (events : List PoolEvent) (storage workerIndex : Nat) :
    Decidable (Running events storage workerIndex) :=
  inferInstanceAs (Decidable (_ ∧ _))

def Live (events : List PoolEvent) (storage : Nat) : Prop :=
  allocated storage ∈ events ∧ freed storage ∉ events

instance (events : List PoolEvent) (storage : Nat) : Decidable (Live events storage) :=
  inferInstanceAs (Decidable (_ ∧ _))

/-- All threads of an array are joined before it is freed. -/
def JoinedBeforeFreed : List PoolEvent -> Prop
  | [] => True
  | event :: earlier =>
      (forall storage, event = freed storage -> forall workerIndex,
        started storage workerIndex ∈ earlier -> joined storage workerIndex ∈ earlier) ∧
      JoinedBeforeFreed earlier

end PoolEvent

open PoolEvent

/-- `std::span<worker_thread>` -/
structure Span where
  data : Option Nat
  size : Nat
  deriving DecidableEq, Repr

/-- `pool_ = {}` -/
def Span.empty : Span := ⟨none, 0⟩

/-- A shop, as far as its threads go. -/
structure PoolState where
  pool : Span
  brexit : Bool
  events : List PoolEvent
  deriving DecidableEq, Repr

inductive Outcome
  | returned
  | threw
  deriving DecidableEq, Repr

/-- How the requests of one call to the operating system are going to end. -/
structure Attempt where
  /-- the allocation of the array succeeds -/
  memory : Bool
  /-- the creation of the thread succeeds -/
  creates : Nat -> Bool

namespace PoolState

/-- The members of a shop before its constructor creates the pool. -/
def unstaffed : PoolState := ⟨.empty, false, []⟩

def record (state : PoolState) (event : PoolEvent) : PoolState :=
  { state with events := event :: state.events }

/-- One event for each worker, in their order. -/
def recordEach (state : PoolState) (event : Nat -> PoolEvent) (workers : List Nat) : PoolState :=
  { state with events := (workers.map event).reverse ++ state.events }

/-- `stop_and_destroy_pool` -/
def stopAndDestroyPool (state : PoolState) : Option PoolState :=
  match state.pool.data with
  | none => some { state with pool := .empty, brexit := true }
  | some storage =>
      if Live state.events storage ∧
          forall workerIndex, workerIndex < state.pool.size -> Running state.events storage workerIndex then
        let joined := { state with brexit := true }.recordEach (.joined storage) (List.range state.pool.size)
        some { joined.record (.freed storage) with pool := .empty }
      else none

/-- The loop of `create_pool`. -/
def startWorkers (creates : Nat -> Bool) (storage : Nat) : List Nat -> PoolState -> Outcome × PoolState
  | [], state => (.returned, state)
  | workerIndex :: others, state =>
      if creates workerIndex then startWorkers creates storage others (state.record (.started storage workerIndex))
      else (.threw, state)

/-- `create_pool` -/
def createPool (attempt : Attempt) (size : Nat) (state : PoolState) : Option (Outcome × PoolState) :=
  if size = state.pool.size then some (.returned, state)
  else do
    let stopped <- state.stopAndDestroyPool
    let opened := { stopped with brexit := false }
    if attempt.memory then
      let storage := opened.events.length
      let published := { opened.record (.allocated storage) with pool := ⟨some storage, size⟩ }
      match startWorkers attempt.creates storage (List.range size) published with
      | (.returned, staffed) => some (.returned, staffed)
      -- the destructor of the unique_ptr
      | (.threw, staffed) => some (.threw, staffed.record (.freed storage))
    else some (.threw, opened)

end PoolState

/-! ## The life of a shop -/

inductive Phase
  | unborn
  | alive
  | gone
  deriving DecidableEq, Repr

structure ShopLife where
  phase : Phase
  state : PoolState
  deriving DecidableEq, Repr

/-- A call that changes the pool, with the fate of its requests. -/
inductive Operation (bits : Nat)
  /-- the constructor; the size is `local_hardware_concurrency - 1` -/
  | construct (size : BitVec bits) (attempt : Attempt)
  | setMaxAllowedThreads (maxThreads : BitVec bits) (attempt : Attempt)
  | destroy

namespace Operation

variable {bits : Nat}

/-- The phase in which an operation can be called. -/
def phase : Operation bits -> Phase
  | construct _ _ => .unborn
  | setMaxAllowedThreads _ _ | destroy => .alive

/-- A call; a constructor that throws leaves no members behind. -/
def perform : Operation bits -> PoolState -> Option (Outcome × ShopLife)
  | construct size attempt, state =>
      match state.createPool attempt size.toNat with
      | none => none
      | some (.returned, staffed) => some (.returned, ⟨.alive, staffed⟩)
      | some (.threw, abandoned) => some (.threw, ⟨.gone, { abandoned with pool := .empty }⟩)
  | setMaxAllowedThreads maxThreads attempt, state => do
      let stopped <- state.stopAndDestroyPool
      let (outcome, resized) <- stopped.createPool attempt (maxThreads - 1).toNat
      some (outcome, ⟨.alive, resized⟩)
  | destroy, state => do
      let stopped <- state.stopAndDestroyPool
      some (.returned, ⟨.gone, stopped⟩)

/-- No thread is left behind: all of them are created, or none is asked for, or
the first one already fails and there are no members to be left in a bad state. -/
def Completes : Operation bits -> Prop
  | construct size attempt => attempt.memory = true ->
      attempt.creates 0 = false ∨ forall workerIndex, workerIndex < size.toNat -> attempt.creates workerIndex = true
  | setMaxAllowedThreads maxThreads attempt => attempt.memory = true ->
      forall workerIndex, workerIndex < (maxThreads - 1).toNat -> attempt.creates workerIndex = true
  | destroy => True

end Operation

/-- Shops whose operations are all as admitted. -/
def poolSystem {bits : Nat} (admitted : Operation bits -> Prop) : System ShopLife where
  initial := fun life => life = ⟨.unborn, .unstaffed⟩
  step := fun before after => Exists fun operation => Exists fun outcome =>
    admitted operation ∧ operation.phase = before.phase ∧
      operation.perform before.state = some (outcome, after)

/-- What is asked of a shop between two calls. -/
structure PoolState.Sound (state : PoolState) : Prop where
  refers : state.pool.size ≠ 0 -> Exists fun storage =>
    state.pool.data = some storage ∧ Live state.events storage
  members : forall storage workerIndex, Running state.events storage workerIndex ->
    state.pool.data = some storage ∧ workerIndex < state.pool.size
  joined : JoinedBeforeFreed state.events
  working : state.pool.size ≠ 0 -> state.brexit = false

/-! ## The log -/

namespace PoolEvent

theorem JoinedBeforeFreed.append {earlier : List PoolEvent} (ordered : JoinedBeforeFreed earlier)
    {later : List PoolEvent} (keeps : forall event, event ∈ later -> forall storage, event ≠ freed storage) :
    JoinedBeforeFreed (later ++ earlier) := by
  induction later with
  | nil => exact ordered
  | cons event others inductionHypothesis =>
      refine ⟨?_, inductionHypothesis (fun other member => keeps other (List.mem_cons_of_mem _ member))⟩
      intro storage frees
      exact absurd frees (keeps event (List.mem_cons_self ..) storage)

end PoolEvent

namespace PoolState

/-- Between two calls, as long as all of them have completed: the pool is empty,
or just its workers are running. -/
structure Settled (state : PoolState) : Prop where
  staffed : state.pool = .empty ∨ Exists fun storage => state.pool.data = some storage ∧
    state.brexit = false ∧ Live state.events storage ∧
    forall workerIndex, workerIndex < state.pool.size -> Running state.events storage workerIndex
  members : forall storage workerIndex, Running state.events storage workerIndex ->
    state.pool.data = some storage ∧ workerIndex < state.pool.size
  named : forall event, event ∈ state.events -> event.storage < state.events.length
  joined : JoinedBeforeFreed state.events

theorem Settled.sound {state : PoolState} (settled : Settled state) : Sound state := by
  refine ⟨?_, settled.members, settled.joined, ?_⟩
  · intro some
    rcases settled.staffed with empty | ⟨storage, data, _, live, _⟩
    · exact absurd (congrArg Span.size empty) some
    · exact ⟨storage, data, live⟩
  · intro some
    rcases settled.staffed with empty | ⟨_, _, working, _⟩
    · exact absurd (congrArg Span.size empty) some
    · exact working

theorem settled_unstaffed : Settled unstaffed :=
  ⟨Or.inl rfl, fun _ _ running => absurd running.1 List.not_mem_nil, nofun, trivial⟩

/-- An empty pool with nobody running. -/
structure Idle (state : PoolState) : Prop where
  settled : Settled state
  empty : state.pool = .empty

theorem Idle.not_running {state : PoolState} (idle : Idle state) (storage workerIndex : Nat) :
    ¬ Running state.events storage workerIndex := by
  intro running
  have data := (idle.settled.members storage workerIndex running).1
  rw [idle.empty] at data
  cases data

/-- The flag may change while there is no pool. -/
theorem Idle.withBrexit {state : PoolState} (idle : Idle state) (brexit : Bool) :
    Idle { state with brexit := brexit } where
  settled :=
    { staffed := Or.inl idle.empty
      members := idle.settled.members
      named := idle.settled.named
      joined := idle.settled.joined }
  empty := idle.empty

/-! ## Stopping -/

theorem stopAndDestroyPool_empty {state : PoolState} (empty : state.pool = .empty) :
    state.stopAndDestroyPool = some { state with brexit := true } := by
  rcases state with ⟨pool, brexit, events⟩
  change pool = .empty at empty
  subst empty
  rfl

/-- Everybody is joined, then the array is freed. -/
theorem Settled.stop {state : PoolState} (settled : Settled state) :
    Exists fun stopped => state.stopAndDestroyPool = some stopped ∧ Idle stopped := by
  rcases settled.staffed with empty | ⟨storage, data, working, live, running⟩
  · have idle : Idle state := ⟨settled, empty⟩
    exact ⟨_, stopAndDestroyPool_empty empty, idle.withBrexit true⟩
  · have stops : state.stopAndDestroyPool = some
        { pool := .empty
          brexit := true
          events := .freed storage ::
            (((List.range state.pool.size).map (.joined storage)).reverse ++ state.events) } := by
      unfold stopAndDestroyPool
      rw [data]
      exact if_pos ⟨live, running⟩
    refine ⟨_, stops, ⟨Or.inl rfl, ?_, ?_, ?_⟩, rfl⟩
    · rintro other workerIndex ⟨started, notJoined⟩
      -- A thread that still ran would have been joined just now.
      exfalso
      have earlier : PoolEvent.started other workerIndex ∈ state.events := by
        rcases List.mem_cons.mp started with frees | later
        · cases frees
        · rcases List.mem_append.mp later with joins | earlier
          · rcases List.mem_map.mp (List.mem_reverse.mp joins) with ⟨_, _, different⟩
            cases different
          · exact earlier
      have pending : PoolEvent.joined other workerIndex ∉ state.events :=
        fun member => notJoined (List.mem_cons_of_mem _ (List.mem_append_right _ member))
      rcases settled.members other workerIndex ⟨earlier, pending⟩ with ⟨same, below⟩
      rw [data] at same
      cases same
      refine notJoined (List.mem_cons_of_mem _ (List.mem_append_left _ (List.mem_reverse.mpr ?_)))
      exact List.mem_map_of_mem (List.mem_range.mpr below)
    · have old : storage < state.events.length := settled.named _ live.1
      intro event member
      simp only [List.length_cons, List.length_append]
      rcases List.mem_cons.mp member with rfl | later
      · change storage < _
        omega
      · rcases List.mem_append.mp later with joins | earlier
        · rcases List.mem_map.mp (List.mem_reverse.mp joins) with ⟨_, _, rfl⟩
          change storage < _
          omega
        · have bound := settled.named event earlier
          omega
    · refine ⟨?_, settled.joined.append ?_⟩
      · intro frees same workerIndex started
        cases same
        rcases List.mem_append.mp started with joins | earlier
        · rcases List.mem_map.mp (List.mem_reverse.mp joins) with ⟨_, _, different⟩
          cases different
        · by_cases done : PoolEvent.joined storage workerIndex ∈ state.events
          · exact List.mem_append_right _ done
          · have below := (settled.members storage workerIndex ⟨earlier, done⟩).2
            exact List.mem_append_left _
              (List.mem_reverse.mpr (List.mem_map_of_mem (List.mem_range.mpr below)))
      · intro event joins frees same
        rcases List.mem_map.mp (List.mem_reverse.mp joins) with ⟨_, _, rfl⟩
        cases same

/-! ## Starting -/

/-- The loop stops at the first thread that cannot be created. -/
theorem startWorkers_eq (creates : Nat -> Bool) (storage : Nat) (workers : List Nat) (state : PoolState) :
    startWorkers creates storage workers state =
      (if workers.all creates then .returned else .threw,
        state.recordEach (.started storage) (workers.takeWhile creates)) := by
  induction workers generalizing state with
  | nil => rfl
  | cons workerIndex others inductionHypothesis =>
      rw [startWorkers]
      cases created : creates workerIndex with
      | true =>
          rw [if_pos rfl, inductionHypothesis, List.all_cons, created, Bool.true_and,
            List.takeWhile_cons_of_pos created]
          simp only [recordEach, record, List.map_cons, List.reverse_cons, List.append_assoc,
            List.singleton_append]
      | false =>
          rw [if_neg Bool.false_ne_true, List.all_cons, created, Bool.false_and,
            List.takeWhile_cons_of_neg (by rw [created]; exact Bool.false_ne_true)]
          rfl

/-- A new array, some of whose workers have been started. -/
def publish (state : PoolState) (size : Nat) (workers : List Nat) : PoolState :=
  { pool := ⟨some state.events.length, size⟩
    brexit := false
    events := (workers.map (.started state.events.length)).reverse ++
      .allocated state.events.length :: state.events }

theorem createPool_idle {state : PoolState} (empty : state.pool = .empty) (attempt : Attempt) (size : Nat)
    (some : size ≠ 0) (memory : attempt.memory = true) :
    state.createPool attempt size = if (List.range size).all attempt.creates
      then Option.some (.returned, state.publish size (List.range size))
      else Option.some (.threw, (state.publish size ((List.range size).takeWhile attempt.creates)).record
        (.freed state.events.length)) := by
  have resized : ¬ size = state.pool.size := by
    rw [empty]
    exact some
  unfold createPool
  rw [if_neg resized, stopAndDestroyPool_empty empty]
  change (if attempt.memory = true then _ else _) = _
  rw [if_pos memory, startWorkers_eq]
  by_cases all : (List.range size).all attempt.creates = true
  · rw [if_pos all, if_pos all]
    have whole : (List.range size).takeWhile attempt.creates = List.range size :=
      List.takeWhile_eq_self_iff.mpr (List.all_eq_true.mp all)
    rw [whole]
    rfl
  · rw [if_neg all, if_neg all]
    rfl

theorem createPool_zero {state : PoolState} (empty : state.pool = .empty) (attempt : Attempt) :
    state.createPool attempt 0 = some (.returned, state) := by
  unfold createPool
  rw [empty]
  exact if_pos rfl

theorem createPool_without_memory {state : PoolState} (empty : state.pool = .empty) (attempt : Attempt)
    {size : Nat} (some : size ≠ 0) (memory : attempt.memory = false) :
    state.createPool attempt size = Option.some (.threw, { state with brexit := false }) := by
  have resized : ¬ size = state.pool.size := by
    rw [empty]
    exact some
  unfold createPool
  rw [if_neg resized, stopAndDestroyPool_empty empty]
  change (if attempt.memory = true then _ else _) = _
  rw [memory]
  rfl

/-! ## A new array -/

/-- Nothing has happened yet to an array that is about to be allocated. -/
theorem Settled.fresh {state : PoolState} (settled : Settled state) {event : PoolEvent}
    (about : event.storage = state.events.length) : event ∉ state.events := by
  intro member
  have old := settled.named event member
  rw [about] at old
  exact Nat.lt_irrefl _ old

theorem mem_publish_events {state : PoolState} {size : Nat} {workers : List Nat} {event : PoolEvent} :
    event ∈ (state.publish size workers).events ↔
      (Exists fun workerIndex => workerIndex ∈ workers ∧
        PoolEvent.started state.events.length workerIndex = event) ∨
      event = .allocated state.events.length ∨ event ∈ state.events := by
  rw [publish, List.mem_append, List.mem_reverse, List.mem_map, List.mem_cons]

/-- The threads that run are those that have been started. -/
theorem Settled.running_publish {state : PoolState} (settled : Settled state) {size : Nat} {workers : List Nat}
    {workerIndex : Nat} (started : workerIndex ∈ workers) :
    Running (state.publish size workers).events state.events.length workerIndex := by
  refine ⟨mem_publish_events.mpr (Or.inl ⟨workerIndex, started, rfl⟩), ?_⟩
  intro member
  rcases mem_publish_events.mp member with ⟨_, _, different⟩ | different | earlier
  · cases different
  · cases different
  · exact settled.fresh rfl earlier

theorem Idle.of_running_publish {state : PoolState} (idle : Idle state) {size : Nat} {workers : List Nat}
    {storage workerIndex : Nat} (running : Running (state.publish size workers).events storage workerIndex) :
    storage = state.events.length ∧ workerIndex ∈ workers := by
  rcases mem_publish_events.mp running.1 with ⟨_, member, same⟩ | different | earlier
  · cases same
    exact ⟨rfl, member⟩
  · cases different
  · refine absurd ⟨earlier, ?_⟩ (idle.not_running storage workerIndex)
    exact fun joined => running.2 (mem_publish_events.mpr (Or.inr (Or.inr joined)))

theorem Settled.named_publish {state : PoolState} (settled : Settled state) {size : Nat} {workers : List Nat}
    {event : PoolEvent} (member : event ∈ (state.publish size workers).events) :
    event.storage < (state.publish size workers).events.length := by
  simp only [publish, List.length_append, List.length_cons]
  rcases mem_publish_events.mp member with ⟨_, _, rfl⟩ | rfl | earlier
  · change state.events.length < _
    omega
  · change state.events.length < _
    omega
  · have old := settled.named event earlier
    omega

theorem Settled.joined_publish {state : PoolState} (settled : Settled state) {size : Nat} {workers : List Nat} :
    JoinedBeforeFreed (state.publish size workers).events := by
  have opened : JoinedBeforeFreed (.allocated state.events.length :: state.events) := ⟨nofun, settled.joined⟩
  apply opened.append
  intro event started storage frees
  rcases List.mem_map.mp (List.mem_reverse.mp started) with ⟨_, _, rfl⟩
  cases frees

/-- All threads have been created. -/
theorem Idle.publish_all {state : PoolState} (idle : Idle state) (size : Nat) :
    Settled (state.publish size (List.range size)) := by
  refine ⟨Or.inr ⟨state.events.length, rfl, rfl, ⟨?_, ?_⟩, ?_⟩, ?_, ?_, idle.settled.joined_publish⟩
  · exact mem_publish_events.mpr (Or.inr (Or.inl rfl))
  · intro member
    rcases mem_publish_events.mp member with ⟨_, _, different⟩ | different | earlier
    · cases different
    · cases different
    · exact idle.settled.fresh rfl earlier
  · intro workerIndex below
    exact idle.settled.running_publish (List.mem_range.mpr below)
  · intro storage workerIndex running
    rcases idle.of_running_publish running with ⟨same, member⟩
    exact ⟨congrArg some same.symm, List.mem_range.mp member⟩
  · intro event member
    exact idle.settled.named_publish member

/-- The creation of a thread has thrown: the span is left on a freed array. -/
theorem not_sound_of_freed (state : PoolState) {size : Nat} (some : size ≠ 0) (workers : List Nat) :
    ¬ Sound ((state.publish size workers).record (.freed state.events.length)) := by
  intro sound
  rcases sound.refers some with ⟨storage, data, live⟩
  cases data
  exact live.2 (List.mem_cons_self ..)

/-- A constructor that throws after it has started a thread leaves it behind. -/
theorem Settled.not_sound_of_abandoned {state : PoolState} (settled : Settled state) {size : Nat}
    {workers : List Nat} {workerIndex : Nat} (started : workerIndex ∈ workers) :
    ¬ Sound { (state.publish size workers).record (.freed state.events.length) with pool := .empty } := by
  intro sound
  have running := @running_publish state settled size workers workerIndex started
  have data := (sound.members state.events.length workerIndex
    ⟨List.mem_cons_of_mem _ running.1, fun member => by
      rcases List.mem_cons.mp member with different | earlier
      · cases different
      · exact running.2 earlier⟩).1
  cases data

/-- A constructor that throws at its first thread leaves nothing behind. -/
theorem Idle.publish_none {state : PoolState} (idle : Idle state) (size : Nat) :
    Settled { (state.publish size []).record (.freed state.events.length) with pool := .empty } := by
  refine ⟨Or.inl rfl, ?_, ?_, ?_⟩
  · rintro storage workerIndex ⟨started, notJoined⟩
    have earlier : Running (state.publish size []).events storage workerIndex := by
      refine ⟨?_, fun member => notJoined (List.mem_cons_of_mem _ member)⟩
      rcases List.mem_cons.mp started with different | earlier
      · cases different
      · exact earlier
    exact absurd (idle.of_running_publish earlier).2 List.not_mem_nil
  · intro event member
    rcases List.mem_cons.mp member with rfl | earlier
    · change state.events.length < (state.events.length + 1) + 1
      omega
    · exact Nat.lt_succ_of_lt (idle.settled.named_publish earlier)
  · refine ⟨?_, idle.settled.joined_publish⟩
    intro storage same workerIndex started
    cases same
    rcases mem_publish_events.mp started with ⟨_, member, _⟩ | different | earlier
    · cases member
    · cases different
    · exact absurd earlier (idle.settled.fresh rfl)

end PoolState

open PoolState

/-! ## One call -/

namespace Operation

variable {bits : Nat}

/-- The loop gets to its end if all threads can be created. -/
theorem all_creates_iff (creates : Nat -> Bool) (size : Nat) :
    (List.range size).all creates = true ↔ forall workerIndex, workerIndex < size -> creates workerIndex = true := by
  simp only [List.all_eq_true, List.mem_range]

/-- What a call is required to leave behind. -/
def Leaves (operation : Operation bits) (state : PoolState) : Prop :=
  Exists fun outcome => Exists fun after => operation.perform state = some (outcome, after) ∧
    after.phase ≠ .unborn ∧ (operation.Completes -> Settled after.state) ∧
    (¬ operation.Completes -> ¬ Sound after.state)

/-- What the constructor makes of the result of `create_pool`. -/
def constructed : Outcome -> PoolState -> ShopLife
  | .returned, state => ⟨.alive, state⟩
  | .threw, state => ⟨.gone, { state with pool := .empty }⟩

theorem perform_construct {size : BitVec bits} {attempt : Attempt} {state result : PoolState} {outcome : Outcome}
    (created : state.createPool attempt size.toNat = some (outcome, result)) :
    (construct size attempt).perform state = some (outcome, constructed outcome result) := by
  unfold perform
  dsimp only
  rw [created]
  cases outcome <;> rfl

theorem perform_setMaxAllowedThreads {maxThreads : BitVec bits} {attempt : Attempt}
    {state stopped result : PoolState} {outcome : Outcome} (stops : state.stopAndDestroyPool = some stopped)
    (created : stopped.createPool attempt (maxThreads - 1).toNat = some (outcome, result)) :
    (setMaxAllowedThreads maxThreads attempt).perform state = some (outcome, ⟨.alive, result⟩) := by
  unfold perform
  dsimp only
  rw [stops]
  change (stopped.createPool attempt (maxThreads - 1).toNat >>= _) = _
  rw [created]
  rfl

/-- The workers that are started before the loop stops. -/
theorem takeWhile_range_eq_nil {creates : Nat -> Bool} (size : Nat) (first : creates 0 = false) :
    (List.range size).takeWhile creates = [] := by
  cases size with
  | zero => rfl
  | succ rest =>
      rw [List.range_succ_eq_map]
      exact List.takeWhile_cons_of_neg (by rw [first]; exact Bool.false_ne_true)

theorem zero_mem_takeWhile_range {creates : Nat -> Bool} {size : Nat} (some : size ≠ 0) (first : creates 0 = true) :
    0 ∈ (List.range size).takeWhile creates := by
  cases size with
  | zero => exact absurd rfl some
  | succ rest =>
      rw [List.range_succ_eq_map, List.takeWhile_cons_of_pos first]
      exact List.mem_cons_self ..

theorem leaves_construct (size : BitVec bits) (attempt : Attempt) {state : PoolState} (idle : Idle state) :
    (construct size attempt).Leaves state := by
  by_cases zero : size.toNat = 0
  · have created := createPool_zero idle.empty attempt
    rw [← zero] at created
    refine ⟨_, _, perform_construct created, nofun, fun _ => idle.settled, fun fails => absurd ?_ fails⟩
    intro _
    right
    rw [zero]
    exact nofun
  · cases memory : attempt.memory with
    | false =>
        have created := createPool_without_memory idle.empty attempt zero memory
        refine ⟨_, _, perform_construct created, nofun, fun _ => ?_, fun fails => absurd ?_ fails⟩
        · have closed := (idle.withBrexit false).settled
          rw [idle.empty] at closed
          exact closed
        · intro present
          rw [memory] at present
          cases present
    | true =>
        have created := createPool_idle idle.empty attempt size.toNat zero memory
        by_cases all : (List.range size.toNat).all attempt.creates = true
        · rw [if_pos all] at created
          refine ⟨_, _, perform_construct created, nofun, fun _ => idle.publish_all size.toNat,
            fun fails => absurd ?_ fails⟩
          exact fun _ => Or.inr ((all_creates_iff _ _).mp all)
        · rw [if_neg all] at created
          refine ⟨_, _, perform_construct created, nofun, ?_, ?_⟩
          · intro completes
            have first := (completes memory).resolve_right (mt (all_creates_iff _ _).mpr all)
            rw [takeWhile_range_eq_nil size.toNat first]
            exact idle.publish_none size.toNat
          · intro fails
            have first : attempt.creates 0 = true := by
              by_contra refused
              exact fails (fun _ => Or.inl (Bool.eq_false_of_not_eq_true refused))
            exact idle.settled.not_sound_of_abandoned (zero_mem_takeWhile_range zero first)

theorem leaves_setMaxAllowedThreads (maxThreads : BitVec bits) (attempt : Attempt) {state : PoolState}
    (settled : Settled state) : (setMaxAllowedThreads maxThreads attempt).Leaves state := by
  rcases settled.stop with ⟨stopped, stops, idle⟩
  by_cases zero : (maxThreads - 1).toNat = 0
  · have created := createPool_zero idle.empty attempt
    rw [← zero] at created
    refine ⟨_, _, perform_setMaxAllowedThreads stops created, nofun, fun _ => idle.settled,
      fun fails => absurd ?_ fails⟩
    intro _
    rw [zero]
    exact nofun
  · cases memory : attempt.memory with
    | false =>
        have created := createPool_without_memory idle.empty attempt zero memory
        refine ⟨_, _, perform_setMaxAllowedThreads stops created, nofun,
          fun _ => (idle.withBrexit false).settled, fun fails => absurd ?_ fails⟩
        intro present
        rw [memory] at present
        cases present
    | true =>
        have created := createPool_idle idle.empty attempt _ zero memory
        by_cases all : (List.range (maxThreads - 1).toNat).all attempt.creates = true
        · rw [if_pos all] at created
          refine ⟨_, _, perform_setMaxAllowedThreads stops created, nofun, fun _ => idle.publish_all _,
            fun fails => absurd ?_ fails⟩
          exact fun _ => (all_creates_iff _ _).mp all
        · rw [if_neg all] at created
          refine ⟨_, _, perform_setMaxAllowedThreads stops created, nofun, ?_,
            fun _ => not_sound_of_freed stopped zero _⟩
          exact fun completes => absurd ((all_creates_iff _ _).mpr (completes memory)) all

theorem leaves_destroy {state : PoolState} (settled : Settled state) :
    (destroy : Operation bits).Leaves state := by
  rcases settled.stop with ⟨stopped, stops, idle⟩
  have performed : (destroy : Operation bits).perform state = some (.returned, ⟨.gone, stopped⟩) := by
    unfold perform
    dsimp only
    rw [stops]
    rfl
  exact ⟨_, _, performed, nofun, fun _ => idle.settled, fun fails => absurd trivial fails⟩

end Operation

/-! ## Whole lives -/

/-- A shop that has not been constructed has never had a thread. -/
def ShopLife.Settled (life : ShopLife) : Prop :=
  life.state.Settled ∧ (life.phase = .unborn -> life.state.Idle)

theorem ShopLife.Settled.leaves {bits : Nat} {life : ShopLife} (settled : life.Settled)
    (operation : Operation bits) (enabled : operation.phase = life.phase) : operation.Leaves life.state := by
  cases operation with
  | construct size attempt => exact Operation.leaves_construct size attempt (settled.2 enabled.symm)
  | setMaxAllowedThreads maxThreads attempt =>
      exact Operation.leaves_setMaxAllowedThreads maxThreads attempt settled.1
  | destroy => exact Operation.leaves_destroy settled.1

theorem settled_of_reachable {bits : Nat} {life : ShopLife}
    (reachable : (poolSystem (@Operation.Completes bits)).Reachable life) : life.Settled := by
  refine reachable.invariant ?_ ?_
  · rintro _ rfl
    exact ⟨settled_unstaffed, fun _ => ⟨settled_unstaffed, rfl⟩⟩
  · rintro before after _ settled ⟨operation, outcome, completes, enabled, performed⟩
    rcases settled.leaves operation enabled with ⟨_, _, same, born, good, _⟩
    rw [performed] at same
    cases same
    exact ⟨good completes, fun unborn => absurd unborn born⟩

/-- For every sequence of construction, changes of the number of threads and
destruction in which no thread is left behind, the shop is sound after each
call.  One more call always has a result, and leaves the shop sound if and only
if it leaves no thread behind in its turn. -/
theorem pool_reconfiguration_sound_iff {bits : Nat} (life : ShopLife)
    (reachable : (poolSystem (@Operation.Completes bits)).Reachable life) :
    life.state.Sound ∧
    forall operation : Operation bits, operation.phase = life.phase ->
      Exists fun outcome => Exists fun after =>
        operation.perform life.state = some (outcome, after) ∧
        (after.state.Sound ↔ operation.Completes) := by
  have settled := settled_of_reachable reachable
  refine ⟨settled.1.sound, ?_⟩
  intro operation enabled
  rcases settled.leaves operation enabled with ⟨outcome, after, performed, _, good, bad⟩
  refine ⟨outcome, after, performed, ?_, fun completes => (good completes).sound⟩
  intro sound
  by_contra fails
  exact bad fails sound

/-- Every request is granted. -/
def granted : Attempt := ⟨true, fun _ => true⟩

/-- The second thread cannot be created. -/
def secondFails : Attempt := ⟨true, fun workerIndex => decide (workerIndex ≠ 1)⟩

/-- A shop with two workers. -/
def twoWorkers : ShopLife where
  phase := .alive
  state := ⟨⟨some 0, 2⟩, false, [.started 0 1, .started 0 0, .allocated 0]⟩

theorem twoWorkers_reachable : (poolSystem (@Operation.Completes 16)).Reachable twoWorkers :=
  .step (.initial rfl) ⟨.construct 2 granted, .returned, fun _ => Or.inr (fun _ _ => rfl), rfl, rfl⟩

theorem pool_reconfiguration_sound_iff_twoWorkers :
    twoWorkers.state.Sound ∧
      Exists fun outcome => Exists fun after =>
        (Operation.setMaxAllowedThreads (4 : BitVec 16) granted).perform twoWorkers.state = some (outcome, after) ∧
        (after.state.Sound ↔ (Operation.setMaxAllowedThreads (4 : BitVec 16) granted).Completes) := by
  have sound := pool_reconfiguration_sound_iff twoWorkers twoWorkers_reachable
  exact ⟨sound.1, sound.2 (.setMaxAllowedThreads 4 granted) rfl⟩

/-- When the second of three threads cannot be created, the span is left on the
freed array, and the first thread runs on it. -/
theorem failed_thread_leaves_dangling_pool :
    Exists fun after =>
      (Operation.setMaxAllowedThreads (4 : BitVec 16) secondFails).perform twoWorkers.state =
        some (.threw, after) ∧
      after.state.pool = ⟨some 6, 3⟩ ∧ PoolEvent.freed 6 ∈ after.state.events ∧
      Running after.state.events 6 0 ∧ Not after.state.Sound := by
  refine ⟨⟨.alive, ⟨⟨some 6, 3⟩, false, .freed 6 :: .started 6 0 :: .allocated 6 :: .freed 0 ::
    .joined 0 1 :: .joined 0 0 :: twoWorkers.state.events⟩⟩, rfl, rfl, by decide, by decide, ?_⟩
  intro sound
  rcases sound.refers (by decide) with ⟨storage, data, live⟩
  cases data
  exact live.2 (by decide)

end Pool
end Sweater
