import Sweater.Shop.SmallRuns
import Sweater.Spread.ExactTiling

namespace Sweater
namespace Shop

open Machine
open Machine.Checked
open Threading
open Spread
open Interleaving
open Interleaving.Stacked

/-!
# Setting the priority of all workers

On Linux `thread_impl::set_priority` fails for every worker, and
`shop::set_priority` falls back to a spread of `hardware_concurrency_max`
iterations whose functor calls `::setpriority` for the thread that executes it,
unless that is the caller.  `success` only says whether the calls that were
made have succeeded: whether every worker makes one is left to the spread.

The functor is not a part of the program of the shops, and so an observer
keeps its variables.  `success &= ( result == 0 )` is a load and a store, with
anything in between.
-/

variable {Shop Thread : Type} {program : Program Shop}

/-! ## What `set_priority` returns -/

/-- `thread_impl::set_priority` on Linux, where the default policy may have a
single priority. -/
def threadSetPriority (defaultPolicyPriorityUnchangable setschedprioSucceeds : Bool) : Bool :=
  !defaultPolicyPriorityUnchangable && setschedprioSucceeds

/-- `shop::set_priority`: the loop over the threads of the pool, and otherwise
what the fallback leaves in `success`. -/
def setPriority (workers : Nat) (threadSetPriority : Nat -> Bool) (fallback : Bool) : Bool :=
  let success := (List.range workers).foldl (fun success worker => success && threadSetPriority worker) true
  if success then success else fallback

/-- The fallback decides as soon as there are workers. -/
theorem setPriority_eq {workers : Nat} (staffed : 0 < workers) {threadSetPriority : Nat -> Bool}
    (fails : forall worker, threadSetPriority worker = false) (fallback : Bool) :
    setPriority workers threadSetPriority fallback = fallback := by
  have stays : forall threads : List Nat,
      threads.foldl (fun success worker => success && threadSetPriority worker) false = false := by
    intro threads
    induction threads with
    | nil => rfl
    | cons thread rest inductionHypothesis => exact inductionHypothesis
  rcases Nat.exists_eq_succ_of_ne_zero (Nat.ne_of_gt staffed) with ⟨others, rfl⟩
  unfold setPriority
  rw [List.range_succ_eq_map, List.foldl_cons, fails, Bool.and_false, stays]
  rfl

/-! ## The functor of the fallback -/

/-- A call of `set_priority` that has come to the fallback. -/
structure PriorityCall (program : Program Shop) (Thread : Type) where
  /-- the number of its spread -/
  call : Nat
  /-- `caller_id` -/
  caller : Thread
  hardwareConcurrencyMax : BitVec program.bits
  /-- what `pthread_setschedprio` would report for each worker -/
  setschedprioSucceeds : Nat -> Bool
  /-- whether `::setpriority` succeeds on a thread, for each part that it executes -/
  setpriority : Thread -> Part -> Bool

/-- The variables of the functor, and what the threads have done. -/
structure PriorityNote (Thread : Type) where
  success : Bool
  /-- what has been computed for `success` and not been stored yet -/
  computed : Part -> Bool
  /-- the threads that have taken a part -/
  took : List Thread
  /-- the threads on which `::setpriority` has succeeded -/
  prioritized : List Thread

namespace PriorityNote

/-- `success = true` -/
def blank : PriorityNote Thread where
  success := true
  computed := fun _ => true
  took := []
  prioritized := []

def take (note : PriorityNote Thread) (thread : Thread) : PriorityNote Thread :=
  { note with took := thread :: note.took }

/-- `::setpriority`, and the load of `success` -/
def query (note : PriorityNote Thread) (thread : Thread) (part : Part) (result : Bool) : PriorityNote Thread :=
  { note with
    computed := Function.update note.computed part (note.success && result)
    prioritized := if result then thread :: note.prioritized else note.prioritized }

/-- The store to `success`. -/
def store (note : PriorityNote Thread) (part : Part) : PriorityNote Thread :=
  { note with success := note.computed part }

end PriorityNote

namespace PriorityCall

variable (setter : PriorityCall program Thread)

/-- The result of the whole call for a shop with so many workers; the default
policy has no priorities to choose from. -/
def result (workers : Nat) (note : PriorityNote Thread) : Bool :=
  setPriority workers (fun worker => threadSetPriority true (setter.setschedprioSucceeds worker)) note.success

theorem result_eq {workers : Nat} (staffed : 0 < workers) (note : PriorityNote Thread) :
    setter.result workers note = note.success :=
  setPriority_eq staffed (fun _ => rfl) note.success

/-- What the observer notes when a thread makes a step: it takes a part of the
call, or it begins or ends its functor. -/
def watch [DecidableEq Thread] (note : PriorityNote Thread) (thread : Thread) :
    List (Frame Shop program.bits) -> PriorityNote Thread
  | [.executing _ (.part part) .fetched] =>
      if part.call = setter.call then note.take thread else note
  | [.executing _ (.part part) .running] =>
      if part.call = setter.call ∧ thread ≠ setter.caller then
        note.query thread part (setter.setpriority thread part)
      else note
  | [.executing _ (.part part) .leaving] =>
      if part.call = setter.call ∧ thread ≠ setter.caller then note.store part else note
  | _ => note

/-- `spread_the_sweat( hardware_concurrency_max, ... )` -/
structure Asks (locals : SpreadLocals) : Prop where
  iterations : locals.iterations = setter.hardwareConcurrencyMax.setWidth 32
  parallelizable : locals.parallelizable = 1

/-- When the spread of the call begins, it is `set_priority` that makes it. -/
def Makes (thread : Thread) (frame : Frame Shop program.bits) (frames : List (Frame Shop program.bits)) : Prop :=
  forall home locals point, frames = [.spread home setter.call locals point, frame] ->
    thread = setter.caller ∧ setter.Asks locals

end PriorityCall

variable [DecidableEq Shop] [DecidableEq Thread]

/-- A slice of the call is in the queue, with the token of the worker. -/
def QueuedFor (call : Nat) (shared : Shared program) (home : Shop) (index : Nat) : Prop :=
  Exists fun entry => entry ∈ shared.queue ∧ entry.shop = home ∧ entry.token = some index ∧
    entry.work.ofCall call = true

/-- What a step of a run must not do. -/
structure Favourable (pool : Pool program Thread) (setter : PriorityCall program Thread) (thread : Thread)
    (watched : Shared program × PriorityNote Thread) (frame : Frame Shop program.bits) (shared' : Shared program)
    (frames : List (Frame Shop program.bits)) : Prop where
  /-- the call is made from outside the pool, which has fewer threads than the spread has iterations -/
  enough : forall home locals point, frames = [.spread home setter.call locals point, frame] ->
    ¬ pool.Serves thread home ∧ program.workers home < setter.hardwareConcurrencyMax.toNat
  /-- the call finds no items in the shop -/
  idle : forall home locals, frame = .spread home setter.call locals .loadItems -> watched.1.workItems home = 0
  /-- the queue accepts the slices of the call -/
  accepted : forall home locals worker first registered rest,
    frame = .spread home setter.call locals (.registerSlice worker first registered [] rest) ->
      shared'.lost = watched.1.lost
  /-- nobody takes the last slice that is queued for a worker which has not taken one itself -/
  spared : forall home worker index, pool.role worker = some (home, index) ->
    QueuedFor setter.call watched.1 home index ->
      QueuedFor setter.call shared' home index ∨ worker = thread ∨ worker ∈ watched.2.took
  /-- no functor stores a `true` that it has computed before another one has stored a `false` -/
  current : forall host part, frames = [.executing host (.part part) .leaving] -> part.call = setter.call ->
    thread ≠ setter.caller -> watched.2.computed part = true -> watched.2.success = true

/-- No functor stores a `true` that it has computed before another one has stored
a `false`. -/
def StoresCurrent (setter : PriorityCall program Thread) (thread : Thread) (note : PriorityNote Thread)
    (frames : List (Frame Shop program.bits)) : Prop :=
  forall host part, frames = [.executing host (.part part) .leaving] -> part.call = setter.call ->
    thread ≠ setter.caller -> note.computed part = true -> note.success = true

/-- The runs in which `success` is kept, and no barrier reaches the range of its
counter. -/
def currentSystem (pool : Pool program Thread) (setter : PriorityCall program Thread) :
    System (Stacked Thread (Frame Shop program.bits) (Shared program × PriorityNote Thread)) :=
  System.within
    { initial := fun state => state = ⟨(Shared.fresh, PriorityNote.blank), pool.initialStack⟩
      step := Stacked.Step (fun callStack thread watched frame watched' frames =>
        (Noted (ShopStep pool) (fun note thread _ _ => setter.watch note thread) callStack thread watched frame watched' frames ∧
          setter.Makes thread frame frames) ∧
        StoresCurrent setter thread watched.2 frames) }
    (fun state => state.shared.1.InRange)

/-- The runs in which nothing comes between the spread and the workers, and no
barrier reaches the range of its counter. -/
def favourableSystem (pool : Pool program Thread) (setter : PriorityCall program Thread) :
    System (Stacked Thread (Frame Shop program.bits) (Shared program × PriorityNote Thread)) :=
  System.within
    { initial := fun state => state = ⟨(Shared.fresh, PriorityNote.blank), pool.initialStack⟩
      step := Stacked.Step (fun callStack thread watched frame watched' frames =>
        (Noted (ShopStep pool) (fun note thread _ _ => setter.watch note thread) callStack thread watched frame watched' frames ∧
          setter.Makes thread frame frames) ∧
        Favourable pool setter thread watched frame watched'.1 frames) }
    (fun state => state.shared.1.InRange)

/-! ## The slices that are still to come -/

/-- One of the dispatches has slices for the worker. -/
def Staffs {bits : Nat} (dispatches : List (Dispatch bits)) (index : Nat) : Prop :=
  Exists fun dispatch => dispatch ∈ dispatches ∧ dispatch.workerIndex.toNat = index ∧ dispatch.slices ≠ []

/-- At this point the call has still to queue a slice for the worker. -/
def SpreadPoint.Promises (setter : PriorityCall program Thread) (home : Shop) (locals : SpreadLocals) (index : Nat) :
    SpreadPoint program.bits -> Prop
  | .loadItems => setter.Asks locals ∧ program.workers home < setter.hardwareConcurrencyMax.toNat
  | .loadDivision itemsInShop =>
      setter.Asks locals ∧ program.workers home < setter.hardwareConcurrencyMax.toNat ∧ itemsInShop = 0
  | .registerSlice worker _ registered slices rest | .countSlice worker _ registered slices rest =>
      (worker = index ∧ ((Exists fun part => part ∈ registered ∧ part.call = setter.call) ∨ slices ≠ [])) ∨
        Staffs rest index
  | .notifyRoot _ rest => Staffs rest index
  | _ => False

def Frame.Promises (setter : PriorityCall program Thread) (index : Nat) : Frame Shop program.bits -> Prop
  | .spread home _ locals point => point.Promises setter home locals index
  | _ => False

section Steps

variable {pool : Pool program Thread} {setter : PriorityCall program Thread}
  {callStack : Thread -> List (Frame Shop program.bits)} {thread : Thread} {shared shared' : Shared program}
  {frame : Frame Shop program.bits} {frames : List (Frame Shop program.bits)} {note : PriorityNote Thread}

omit [DecidableEq Shop] [DecidableEq Thread] in
theorem SpreadPoint.promises_nextDispatch {home : Shop} {locals : SpreadLocals} {first : Bool}
    {rest : List (Dispatch program.bits)} {index : Nat} (staffs : Staffs rest index) (locals' : SpreadLocals) :
    (nextDispatch locals first rest).Promises setter home locals' index := by
  rcases staffs with ⟨dispatch, member, same, some_⟩
  cases rest with
  | nil => cases member
  | cons next rest =>
      rcases List.mem_cons.mp member with rfl | later
      · exact Or.inl ⟨same, Or.inr some_⟩
      · exact Or.inr ⟨dispatch, later, same, some_⟩

omit [DecidableEq Shop] [DecidableEq Thread] in
theorem PriorityCall.Asks.toNat {locals : SpreadLocals} (asks : setter.Asks locals) :
    locals.iterations.toNat = setter.hardwareConcurrencyMax.toNat := by
  have narrow : program.bits ≤ 32 := by unfold Program.bits; cases program.concurrency <;> decide
  rw [asks.iterations]
  exact Machine.toNat_setWidth_of_le narrow _

omit [DecidableEq Shop] [DecidableEq Thread] in
/-- An idle shop with enough iterations plans slices for every worker. -/
theorem PriorityCall.Asks.staffs {home : Shop} {locals : SpreadLocals} (asks : setter.Asks locals)
    (enough : program.workers home < setter.hardwareConcurrencyMax.toNat) (divides : shared.Divides) {recursive : Bool}
    {plan : Plan program.bits} {exact_ : Bool}
    (planned : spreadWork ⟨program.workerThreads home, 0, shared.division, recursive, program.singleCorePlatform⟩
      locals.iterations locals.parallelizable = some (plan, exact_))
    {index : Nat} (inside : index < program.workers home) :
    Exists fun callerEnd => Exists fun sliceDiv => Exists fun dispatches =>
      plan = .toWorkers callerEnd sliceDiv dispatches ∧ Staffs dispatches index := by
  have wide : 8 ≤ program.bits := by unfold Program.bits; cases program.concurrency <;> decide
  have narrow : program.bits ≤ 16 := by unfold Program.bits; cases program.concurrency <;> decide
  rw [asks.parallelizable] at planned
  have limit := setter.hardwareConcurrencyMax.isLt
  rcases spreadWork_staffs wide narrow
    ⟨program.workerThreads home, 0, shared.division, recursive, program.singleCorePlatform⟩ locals.iterations rfl
    (by rw [asks.toNat]; exact enough) (Nat.lt_of_le_of_lt enough limit) divides.1 divides.2 with
      ⟨exactPlan, same, callerEnd, sliceDiv, dispatches, toWorkers, staffed⟩
  cases same.symm.trans planned
  exact ⟨callerEnd, sliceDiv, dispatches, toWorkers, staffed index inside⟩

omit [DecidableEq Thread] in
/-- What the call has promised to a worker it goes on promising, until it has
queued a slice for it. -/
theorem SpreadStep.promises {recursive : Bool} {home : Shop} {locals : SpreadLocals}
    {point : SpreadPoint program.bits}
    (move : SpreadStep program recursive shared (.spread home setter.call locals point) shared' frames)
    (favourable : Favourable pool setter thread (shared, note) (.spread home setter.call locals point) shared' frames)
    (divides : shared.Divides) {index : Nat} (inside : index < program.workers home)
    (promised : point.Promises setter home locals index) :
    forall next, next ∈ frames -> next.Promises setter index ∨ QueuedFor setter.call shared' home index := by
  have only : forall {next : Frame Shop program.bits},
      (next.Promises setter index ∨ QueuedFor setter.call shared' home index) ->
      forall other, other ∈ [next] -> other.Promises setter index ∨ QueuedFor setter.call shared' home index := by
    intro next holds other member
    rw [List.mem_singleton.mp member]
    exact holds
  cases move with
  | loadItems => exact only (Or.inl ⟨promised.1, promised.2, favourable.idle home locals rfl⟩)
  | plan _ _ _ itemsInShop plan exact_ planned =>
      rcases promised with ⟨asks, enough, rfl⟩
      rcases asks.staffs enough divides planned inside with ⟨callerEnd, sliceDiv, dispatches, rfl, staffs⟩
      exact only (Or.inl (SpreadPoint.promises_nextDispatch staffs _))
  | registerSlice _ _ _ worker first registered chunk slices rest =>
      apply only
      left
      rcases promised with ⟨same, _⟩ | later
      · exact Or.inl ⟨same, Or.inl ⟨_, List.mem_append_right _ (List.mem_singleton_self _), rfl⟩⟩
      · exact Or.inr later
  | countSlice => exact only (Or.inl promised)
  | enqueueSlices _ _ _ worker first registered rest =>
      rcases promised with ⟨rfl, ⟨part, member, own⟩ | impossible⟩ | later
      · refine only (Or.inr ⟨_, List.mem_append_right _ (List.mem_map_of_mem member), rfl, rfl, ?_⟩)
        exact beq_iff_eq.mpr own
      · exact absurd rfl impossible
      · apply only
        left
        cases first with
        | true => exact later
        | false => exact SpreadPoint.promises_nextDispatch later _
  | refuseSlices _ _ _ worker first registered rest =>
      have none : registered = [] := by
        have kept := favourable.accepted home locals worker first registered rest rfl
        exact List.map_eq_nil_iff.mp (List.append_right_eq_self.mp kept)
      subst none
      rcases promised with ⟨_, ⟨part, member, _⟩ | impossible⟩ | later
      · cases member
      · exact absurd rfl impossible
      · apply only
        left
        cases first with
        | true => exact later
        | false => exact SpreadPoint.promises_nextDispatch later _
  | notifyRoot => exact only (Or.inl (SpreadPoint.promises_nextDispatch promised _))
  | _ => cases promised

/-! ## The slices in the queue -/

omit [DecidableEq Thread] in
/-- What a step takes off the queue its thread goes on to execute. -/
theorem ShopStep.queuedFor (move : ShopStep pool callStack thread shared frame shared' frames) {call : Nat}
    {home : Shop} {index : Nat} (queued : QueuedFor call shared home index) : QueuedFor call shared' home index ∨
      Exists fun host => Exists fun part => frames = [.executing host (.part part) .fetched] ∧ part.call = call := by
  rcases queued with ⟨entry, member, atHome, token, own⟩
  have grown : (forall other, other ∈ shared.queue -> other ∈ shared'.queue) -> QueuedFor call shared' home index :=
    fun more => ⟨entry, more entry member, atHome, token, own⟩
  -- Either the entry stays, or it is the one that has been taken.
  have taken : forall host front first back, shared.queue = front ++ first :: back -> shared'.queue = front ++ back ->
      frames = [.executing host first.work .fetched] -> QueuedFor call shared' home index ∨
        Exists fun host => Exists fun part => frames = [.executing host (.part part) .fetched] ∧ part.call = call := by
    intro host front first back before after next
    rw [before] at member
    rcases List.mem_append.mp member with earlier | later
    · exact Or.inl ⟨entry, by rw [after]; exact List.mem_append_left _ earlier, atHome, token, own⟩
    rcases List.mem_cons.mp later with rfl | later
    · right
      cases workIs : entry.work with
      | item serial =>
          rw [workIs] at own
          cases own
      | part part =>
          rw [workIs] at own next
          exact ⟨host, part, next, beq_iff_eq.mp own⟩
    · exact Or.inl ⟨entry, by rw [after]; exact List.mem_append_right _ later, atHome, token, own⟩
  cases move with
  | worker move =>
      cases move with
      | takeOwn shop index front first back place | takeAny shop index front first back place =>
          exact taken _ front first back place rfl rfl
      | _ => exact Or.inl (grown (fun _ stays => stays))
  | execution move => cases move <;> exact Or.inl (grown (fun _ stays => stays))
  | fire move =>
      cases move with
      | enqueue => exact Or.inl (grown (fun _ stays => List.mem_append_left _ stays))
      | _ => exact Or.inl (grown (fun _ stays => stays))
  | spread move =>
      cases move with
      | enqueueSlices | enqueueParts => exact Or.inl (grown (fun _ stays => List.mem_append_left _ stays))
      | steal shop call' locals front first back place => exact taken _ front first back place rfl rfl
      | _ => exact Or.inl (grown (fun _ stays => stays))
  | stop move => cases move <;> exact Or.inl (grown (fun _ stays => stays))
  | call move => cases move <;> exact Or.inl (grown (fun _ stays => stays))

omit [DecidableEq Shop] in
theorem PriorityCall.took_watch (setter : PriorityCall program Thread) {worker : Thread} (member : worker ∈ note.took) :
    worker ∈ (setter.watch note thread frames).took := by
  unfold PriorityCall.watch
  split
  · split
    · exact List.mem_cons_of_mem _ member
    · exact member
  · split <;> exact member
  · split <;> exact member
  · exact member

omit [DecidableEq Shop] in
/-- Who has taken a part has taken it before, or takes it now. -/
theorem PriorityCall.took_cases {worker : Thread} (member : worker ∈ (setter.watch note thread frames).took) :
    worker ∈ note.took ∨ (worker = thread ∧ Exists fun host => Exists fun part =>
      frames = [.executing host (.part part) .fetched] ∧ part.call = setter.call) := by
  unfold PriorityCall.watch at member
  split at member
  · rename_i host part
    split at member
    · rename_i own
      rcases List.mem_cons.mp member with rfl | earlier
      · exact Or.inr ⟨rfl, host, part, rfl, own⟩
      · exact Or.inl earlier
    · exact Or.inl member
  · split at member <;> exact Or.inl member
  · split at member <;> exact Or.inl member
  · exact Or.inl member

/-- A slice is queued for the worker, or the worker has taken one. -/
def Provided (setter : PriorityCall program Thread) (watched : Shared program × PriorityNote Thread) (home : Shop)
    (worker : Thread) (index : Nat) : Prop :=
  QueuedFor setter.call watched.1 home index ∨ worker ∈ watched.2.took

theorem Provided.kept (move : ShopStep pool callStack thread shared frame shared' frames)
    (favourable : Favourable pool setter thread (shared, note) frame shared' frames) {home : Shop} {worker : Thread}
    {index : Nat} (role : pool.role worker = some (home, index))
    (provided : Provided setter (shared, note) home worker index) :
    Provided setter (shared', setter.watch note thread frames) home worker index := by
  rcases provided with queued | took
  · rcases favourable.spared home worker index role queued with still | rfl | took
    · exact Or.inl still
    · rcases move.queuedFor queued with still | ⟨host, part, rfl, own⟩
      · exact Or.inl still
      · right
        change worker ∈ PriorityNote.took (if part.call = setter.call then note.take worker else note)
        rw [if_pos own]
        exact List.mem_cons_self
    · exact Or.inr (setter.took_watch took)
  · exact Or.inr (setter.took_watch took)

/-! ## The frames of the call -/

/-- What holds while the call lasts: each worker has a slice to come, or is
provided for. -/
structure Frame.Attended (pool : Pool program Thread) (setter : PriorityCall program Thread)
    (watched : Shared program × PriorityNote Thread) (thread : Thread) (home : Shop) (frame : Frame Shop program.bits) :
    Prop where
  caller : thread = setter.caller
  outside : ¬ pool.Serves thread home
  coming : forall worker index, pool.role worker = some (home, index) ->
    frame.Promises setter index ∨ Provided setter watched home worker index

/-- A fact about the frames of the call, wherever they are. -/
def Frame.AttendedIfOwn (pool : Pool program Thread) (setter : PriorityCall program Thread)
    (watched : Shared program × PriorityNote Thread) (thread : Thread) (frame : Frame Shop program.bits) : Prop :=
  frame.call = some setter.call -> forall home, frame.shop = some home -> frame.Attended pool setter watched thread home

/-- A frame that makes no step of its own. -/
theorem Frame.AttendedIfOwn.kept (move : ShopStep pool callStack thread shared frame shared' frames)
    (favourable : Favourable pool setter thread (shared, note) frame shared' frames) {other : Thread}
    {below : Frame Shop program.bits} (attended : below.AttendedIfOwn pool setter (shared, note) other) :
    below.AttendedIfOwn pool setter (shared', setter.watch note thread frames) other := by
  intro own home atHome
  have now := attended own home atHome
  refine ⟨now.caller, now.outside, ?_⟩
  intro worker index role
  rcases now.coming worker index role with promised | provided
  · exact Or.inl promised
  · exact Or.inr (provided.kept move favourable role)

theorem ShopStep.attended (move : ShopStep pool callStack thread shared frame shared' frames)
    (makes : setter.Makes thread frame frames)
    (favourable : Favourable pool setter thread (shared, note) frame shared' frames) (divides : shared.Divides)
    (now : frame.AttendedIfOwn pool setter (shared, note) thread) :
    forall next, next ∈ frames ->
      next.AttendedIfOwn pool setter (shared', setter.watch note thread frames) thread := by
  rcases move.frames_cases with rfl | ⟨next, rfl, same⟩ | ⟨called, rfl, _, fresh⟩
  · exact nofun
  · intro other member own home atHome
    cases List.mem_singleton.mp member
    have ownBefore := same.symm.trans own
    rcases move.call_persists ownBefore with ⟨again, present, _, sameShop⟩ | ⟨shop, locals, rfl⟩
    · cases List.mem_singleton.mp present
      have before := now ownBefore home (sameShop.symm.trans atHome)
      refine ⟨before.caller, before.outside, ?_⟩
      intro worker index role
      rcases before.coming worker index role with promised | provided
      · -- only the frame of the call itself promises anything
        cases frame with
        | spread shop call locals point =>
            cases ownBefore
            cases sameShop.symm.trans atHome
            cases move with
            | worker move | execution move | fire move | stop move => cases move
            | spread move =>
                rcases move.promises favourable divides (pool.inside worker home index role) promised _
                  (List.mem_singleton_self _) with later | queued
                · exact Or.inl later
                · exact Or.inr (Or.inl queued)
            | call move => cases move
        | _ => cases promised
      · exact Or.inr (provided.kept move favourable role)
    · cases move with
      | worker move | execution move | fire move | spread move | stop move => cases move
      | call move => cases move
  · intro other member
    rcases List.mem_cons.mp member with rfl | below
    · intro own home atHome
      cases move with
      | worker move | execution move | fire move | spread move | stop move => cases move
      | call move =>
          cases move with
          | fire | stop => cases own
          | spread _ shop iterations parallelizable =>
              cases atHome
              have number : shared.nextCall = setter.call := Option.some.inj own
              rcases makes home _ _ (by rw [← number]) with ⟨caller, asks⟩
              rcases favourable.enough home _ _ (by rw [← number]) with ⟨outside, enough⟩
              refine ⟨caller, outside, ?_⟩
              intro worker index role
              have some_ : iterations ≠ 0 := by
                rintro rfl
                rw [← asks.toNat] at enough
                exact Nat.not_lt_zero _ enough
              left
              change SpreadPoint.Promises _ _ _ _ (if iterations = 0 then .finished else .loadItems)
              rw [if_neg some_]
              exact ⟨asks, enough⟩
    · rw [List.mem_singleton.mp below]
      exact now.kept move favourable

/-! ## What the functors answer -/

/-- A functor that is going to answer, or whose failure has not been stored yet. -/
def Frame.Answers (setter : PriorityCall program Thread) (note : PriorityNote Thread) : Frame Shop program.bits -> Prop
  | .executing _ (.part part) .fetched => part.call = setter.call
  | .executing _ (.part part) .running => part.call = setter.call ∧ note.computed part = false
  | _ => False

/-- `::setpriority` has succeeded on the thread, or its failure is known or is
going to be. -/
def Answered (setter : PriorityCall program Thread) (note : PriorityNote Thread) (stack : List (Frame Shop program.bits))
    (worker : Thread) : Prop :=
  worker ∈ note.prioritized ∨ note.success = false ∨ Exists fun frame => frame ∈ stack ∧ frame.Answers setter note

omit [DecidableEq Shop] in
theorem PriorityCall.prioritized_watch (setter : PriorityCall program Thread) {worker : Thread}
    (member : worker ∈ note.prioritized) : worker ∈ (setter.watch note thread frames).prioritized := by
  unfold PriorityCall.watch
  split
  · split <;> exact member
  · rename_i host part
    split
    · unfold PriorityNote.query
      dsimp only
      split
      · exact List.mem_cons_of_mem _ member
      · exact member
    · exact member
  · split <;> exact member
  · exact member

omit [DecidableEq Shop] in
/-- A call from user code is nothing to the observer. -/
theorem PriorityCall.watch_call (setter : PriorityCall program Thread) (called : Frame Shop program.bits) :
    setter.watch note thread [called, frame] = note := by
  unfold PriorityCall.watch
  split
  · rename_i impossible
    cases impossible
  · rename_i impossible
    cases impossible
  · rename_i impossible
    cases impossible
  · rfl

omit [DecidableEq Shop] in
/-- A failure that has been stored remains. -/
theorem PriorityCall.success_watch (current : StoresCurrent setter thread note frames)
    (failed : note.success = false) : (setter.watch note thread frames).success = false := by
  unfold PriorityCall.watch
  split
  · split <;> exact failed
  · split <;> exact failed
  · rename_i host part
    split
    · rename_i own
      apply Bool.eq_false_of_not_eq_true
      intro stored
      cases failed.symm.trans (current host part rfl own.1 own.2 stored)
    · exact failed
  · exact failed

omit [DecidableEq Shop] in
theorem PriorityCall.computed_watch (setter : PriorityCall program Thread) {part : Part}
    (other : forall host, frames ≠ [.executing host (.part part) .running]) :
    (setter.watch note thread frames).computed part = note.computed part := by
  unfold PriorityCall.watch
  split
  · split <;> rfl
  · rename_i host another
    split
    · apply Function.update_of_ne
      rintro rfl
      exact other host rfl
    · rfl
  · split <;> rfl
  · rfl

omit [DecidableEq Thread] in
theorem ShopStep.fetched_of_running (move : ShopStep pool callStack thread shared frame shared' frames) {host : Host Shop}
    {work : Work} (next : frames = [.executing host work .running]) : frame = .executing host work .fetched := by
  cases move with
  | worker move => cases move <;> cases next
  | execution move =>
      cases move with
      | invoke => cases next; rfl
      | finish => cases next
      | arrive host | discount host => cases host <;> cases next
  | fire move => cases move <;> cases next
  | spread move => cases move <;> cases next
  | stop move => cases move <;> cases next
  | call move => cases move <;> cases next

/-- A frame that makes no step of its own goes on to answer. -/
theorem Frame.Answers.kept (move : ShopStep pool callStack thread shared frame shared' frames)
    {below : Frame Shop program.bits} (answers : below.Answers setter note)
    (apart : forall host host' part phase, frame = .executing host (.part part) .fetched ->
      below ≠ .executing host' (.part part) phase) :
    below.Answers setter (setter.watch note thread frames) := by
  cases below with
  | executing host work phase =>
      cases work with
      | item serial => cases answers
      | part part =>
          cases phase with
          | fetched => exact answers
          | running =>
              refine ⟨answers.1, ?_⟩
              rw [setter.computed_watch]
              · exact answers.2
              · intro another next
                exact apart another host part .running (move.fetched_of_running next) rfl
          | leaving => cases answers
  | _ => cases answers

/-- The functor of a thread other than the caller answers. -/
theorem ShopStep.answers (move : ShopStep pool callStack thread shared frame shared' frames)
    (different : thread ≠ setter.caller) (answers : frame.Answers setter note) :
    Answered setter (setter.watch note thread frames) frames thread := by
  have calls : forall called : Frame Shop program.bits, frames = [called, frame] ->
      Answered setter (setter.watch note thread frames) frames thread := by
    rintro called rfl
    rw [setter.watch_call]
    exact Or.inr (Or.inr ⟨frame, List.mem_cons_of_mem _ (List.mem_singleton_self _), answers⟩)
  cases frame with
  | executing host work phase =>
      cases work with
      | item serial => cases answers
      | part part =>
          cases move with
          | worker move | fire move | stop move => cases move
          | execution move =>
              cases move with
              | invoke =>
                  have own : part.call = setter.call ∧ thread ≠ setter.caller := ⟨answers, different⟩
                  rw [PriorityCall.watch, if_pos own]
                  cases result : setter.setpriority thread part with
                  | true => exact Or.inl List.mem_cons_self
                  | false =>
                      refine Or.inr (Or.inr ⟨_, List.mem_singleton_self _, answers, ?_⟩)
                      exact (Function.update_self _ _ _).trans (Bool.and_false _)
              | finish =>
                  rw [PriorityCall.watch, if_pos ⟨answers.1, different⟩]
                  exact Or.inr (Or.inl answers.2)
              | arrive => cases answers
          | call move =>
              cases move with
              | fire | spread | stop => exact calls _ rfl
  | _ => cases answers

/-! ## Who has taken a part -/

/-- A thread that is about to run a part of the call has taken it. -/
def Frame.TakenIfOwn (setter : PriorityCall program Thread) (note : PriorityNote Thread) (thread : Thread)
    (frame : Frame Shop program.bits) : Prop :=
  forall host part, frame = .executing host (.part part) .fetched -> part.call = setter.call -> thread ∈ note.took

theorem ShopStep.taken (move : ShopStep pool callStack thread shared frame shared' frames)
    (now : frame.TakenIfOwn setter note thread) :
    forall next, next ∈ frames -> next.TakenIfOwn setter (setter.watch note thread frames) thread := by
  rcases move.frames_cases with rfl | ⟨next, rfl, _⟩ | ⟨called, rfl, _, _⟩
  · exact nofun
  · rintro other member host part rfl own
    cases List.mem_singleton.mp member
    change thread ∈ PriorityNote.took (if part.call = setter.call then note.take thread else note)
    rw [if_pos own]
    exact List.mem_cons_self
  · rintro other member host part rfl own
    rcases List.mem_cons.mp member with executing | below
    · generalize two : [called, frame] = frames at move
      cases move with
      | worker move | execution move | fire move | spread move | stop move =>
          cases move <;> exact absurd (congrArg List.length two) (by simp)
      | call move =>
          cases move with
          | fire | spread | stop => cases executing.trans (List.cons.inj two).1
          | fired | spreadReturn | stopped => cases two
    · exact setter.took_watch (now host part (List.mem_singleton.mp below).symm own)

end Steps

/-! ## Whole runs -/

section Runs

variable [Fintype Thread] {pool : Pool program Thread} {setter : PriorityCall program Thread}
  {state before after : Stacked Thread (Frame Shop program.bits) (Shared program × PriorityNote Thread)}

omit [Fintype Thread] in
theorem currentSystem_of_favourable (reachable : (favourableSystem pool setter).Reachable state) :
    (currentSystem pool setter).Reachable state := by
  induction reachable with
  | initial start => exact .initial start
  | step _ move inductionHypothesis =>
      refine .step inductionHypothesis ⟨?_, move.2⟩
      cases move.1 with
      | top thread frame rest watched frames place localStep =>
          exact .top thread frame rest watched frames place ⟨localStep.1, localStep.2.current⟩

omit [Fintype Thread] in
theorem boundedShopSystem_of_current (reachable : (currentSystem pool setter).Reachable state) :
    (boundedShopSystem pool).Reachable state.unwatched := by
  apply reachable.simulates
  · rintro state ⟨rfl, range⟩
    exact ⟨rfl, range⟩
  · intro before after _ move
    refine ⟨?_, move.2⟩
    cases move.1 with
    | top thread frame rest watched frames place localStep =>
        exact .top thread frame rest watched.1 frames place localStep.1.1.1

/-- A part is executed by one frame only. -/
theorem part_apart {state : Stacked Thread (Frame Shop program.bits) (Shared program)}
    (reachable : (shopSystem pool).Reachable state) {thread other : Thread} {top frame : Frame Shop program.bits}
    {rest : List (Frame Shop program.bits)} (place : state.callStack thread = top :: rest)
    (elsewhere : (other = thread ∧ frame ∈ rest) ∨ (other ≠ thread ∧ frame ∈ state.callStack other))
    (host host' : Host Shop) (part : Part) (phase phase' : Phase) (same : top = .executing host (.part part) phase) :
    frame ≠ .executing host' (.part part) phase' := by
  rintro rfl
  subst same
  have both := total_two (Frame.carries (fun work => work == .part part)) state place elsewhere
  have carried := (accounted (fun work => work == .part part) reachable).carried
  have once := List.nodup_iff_count_le_one.mp (created_nodup reachable) (.part part)
  have one : forall host phase, (Frame.executing host (.part part) phase : Frame Shop program.bits).carries
      (fun work => work == .part part) = 1 := by
    intro host phase
    cases phase <;> simp [Frame.carries]
  rw [one, one] at both
  unfold List.count at once
  omega

/-- Whoever has taken a part answers, apart from the caller. -/
def AllAnswer (setter : PriorityCall program Thread)
    (state : Stacked Thread (Frame Shop program.bits) (Shared program × PriorityNote Thread)) : Prop :=
  forall worker, worker ∈ state.shared.2.took -> worker ≠ setter.caller ->
    Answered setter state.shared.2 (state.callStack worker) worker

theorem allAnswer_step (reachable : (currentSystem pool setter).Reachable before) (answer : AllAnswer setter before)
    (move : (currentSystem pool setter).step before after) : AllAnswer setter after := by
  intro worker took different
  have earlier := (boundedShopSystem_of_current reachable).of_within
  cases move.1 with
  | top thread top rest watched frames place localStep =>
      obtain ⟨shared', note'⟩ := watched
      obtain ⟨⟨⟨localStep, rfl⟩, _⟩, current⟩ := localStep
      rcases setter.took_cases took with before_ | ⟨rfl, host, part, rfl, own⟩
      · rcases answer worker before_ different with prioritized | failed | ⟨frame, member, answers⟩
        · exact Or.inl (setter.prioritized_watch prioritized)
        · exact Or.inr (Or.inl (PriorityCall.success_watch current failed))
        · by_cases same : worker = thread
          · subst same
            rw [place] at member
            rw [callStack_replaceTop]
            rcases List.mem_cons.mp member with rfl | below
            · rcases localStep.answers different answers with prioritized | failed | ⟨next, present, later⟩
              · exact Or.inl prioritized
              · exact Or.inr (Or.inl failed)
              · exact Or.inr (Or.inr ⟨next, List.mem_append_left _ present, later⟩)
            · refine Or.inr (Or.inr ⟨frame, List.mem_append_right _ below, answers.kept localStep ?_⟩)
              intro host host' part phase
              exact part_apart earlier place (Or.inl ⟨rfl, below⟩) host host' part _ phase
          · rw [callStack_replaceTop_of_ne before same]
            refine Or.inr (Or.inr ⟨frame, member, answers.kept localStep ?_⟩)
            intro host host' part phase
            exact part_apart earlier place (Or.inr ⟨same, member⟩) host host' part _ phase
      · rw [callStack_replaceTop]
        exact Or.inr (Or.inr ⟨_, List.mem_cons_self, own⟩)

theorem allAnswer (reachable : (currentSystem pool setter).Reachable state) : AllAnswer setter state := by
  apply reachable.invariant
  · rintro state ⟨rfl, _⟩ worker impossible
    cases impossible
  · intro before after reachable answer move
    exact allAnswer_step reachable answer move

/-- Where a call of `set_priority` reports success, whoever has taken a part of it
is prioritized, apart from the caller. -/
theorem prioritized_of_took (reachable : (currentSystem pool setter).Reachable state) {thread : Thread} {home : Shop}
    {locals : SpreadLocals} (finished : .spread home setter.call locals .finished ∈ state.callStack thread)
    (success : state.shared.2.success = true) {worker : Thread} (took : worker ∈ state.shared.2.took)
    (different : worker ≠ setter.caller) : worker ∈ state.shared.2.prioritized := by
  have bounded := boundedShopSystem_of_current reachable
  rcases settled_of_outstanding bounded.of_within (outstanding_of_finished bounded finished) with ⟨noFrame, _, _⟩
  rcases allAnswer reachable worker took different with prioritized | failed | ⟨frame, present, answers⟩
  · exact prioritized
  · cases failed.symm.trans success
  · -- a functor that has still to answer belongs to a part that is outstanding
    have nothing := (total_eq_zero_iff _ _).mp noFrame worker frame present
    cases frame with
    | executing host work phase =>
        cases work with
        | item serial => cases answers
        | part part =>
            cases phase with
            | fetched => simp [Frame.carries, Work.ofCall, show part.call = setter.call from answers] at nothing
            | running => simp [Frame.carries, Work.ofCall, answers.1] at nothing
            | leaving => cases answers
    | _ => cases answers

omit [Fintype Thread] in
/-- Every frame of the call is attended. -/
theorem attendedIfOwn (reachable : (favourableSystem pool setter).Reachable state) :
    forall thread frame, frame ∈ state.callStack thread -> frame.AttendedIfOwn pool setter state.shared thread := by
  apply reachable.invariant
  · rintro state ⟨rfl, _⟩ thread frame member own
    rcases mem_initialStack member with rfl | ⟨shop, index, _, rfl⟩ <;> cases own
  · intro before after reachable attended move
    have earlier := (boundedShopSystem_of_current (currentSystem_of_favourable reachable)).of_within
    apply frames_step move.1 (fun state thread frame => frame.AttendedIfOwn pool setter state.shared thread) attended
    · rintro thread top rest ⟨shared, note⟩ frames place ⟨⟨⟨localStep, rfl⟩, makes⟩, favourable⟩ rfl now
      exact localStep.attended makes favourable (divides earlier) now
    · rintro thread top rest ⟨shared, note⟩ frames place ⟨⟨⟨localStep, rfl⟩, makes⟩, favourable⟩ rfl other frame _ now
      exact now.kept localStep favourable

/-- When nothing comes between the spread and the workers, and `set_priority`
returns true, `::setpriority` has succeeded on every worker of the pool. -/
theorem set_priority_reaches_every_worker (pool : Pool program Thread) (setter : PriorityCall program Thread)
    (state : Stacked Thread (Frame Shop program.bits) (Shared program × PriorityNote Thread))
    (reachable : (favourableSystem pool setter).Reachable state) (thread : Thread) (home : Shop)
    (locals : SpreadLocals) (rest : List (Frame Shop program.bits))
    (returning : state.callStack thread = .spread home setter.call locals .finished :: rest)
    (succeeded : setter.result (program.workers home) state.shared.2 = true) :
    forall worker index, pool.role worker = some (home, index) -> worker ∈ state.shared.2.prioritized := by
  intro worker index role
  have member : .spread home setter.call locals .finished ∈ state.callStack thread := by
    rw [returning]
    exact List.mem_cons_self
  have current := currentSystem_of_favourable reachable
  have bounded := boundedShopSystem_of_current current
  have notQueued := (settled_of_outstanding bounded.of_within (outstanding_of_finished bounded member)).2.1
  have covered := attendedIfOwn reachable thread _ member rfl home rfl
  rcases covered.coming worker index role with promised | ⟨entry, queued, _, _, own⟩ | took
  · cases promised
  · exact absurd own (List.countP_eq_zero.mp notQueued entry.work (List.mem_map_of_mem queued))
  · have different : worker ≠ setter.caller := by
      intro same
      exact covered.outside ⟨index, by rw [covered.caller, ← same]; exact role⟩
    rw [setter.result_eq (Nat.zero_lt_of_lt (pool.inside worker home index role))] at succeeded
    exact prioritized_of_took current member succeeded took different

end Runs

/-! ## Two runs in the smallest shop -/

/-- A call of `set_priority` on a platform with two cores; `::setpriority`
always succeeds. -/
def smallSetter : PriorityCall smallProgram (Option Unit) where
  call := 0
  caller := some ()
  hardwareConcurrencyMax := 2
  setschedprioSucceeds := fun _ => true
  setpriority := fun _ _ => true

private theorem plan_pair : spreadWork ⟨smallProgram.workerThreads (), 0, BitVec.ofNat 8 stealingDivisionMin, false,
    smallProgram.singleCorePlatform⟩ 2 1 = some (.toWorkers 1 1 [⟨0, [⟨1, 2⟩]⟩], true) :=
  @of_decide_eq_true _ (Machine.instDecidableEqChecked _ _) (by decide +kernel)

omit [DecidableEq Shop] [DecidableEq Thread] in
theorem PriorityCall.makes_single (setter : PriorityCall program Thread) (thread : Thread)
    (frame next : Frame Shop program.bits) : setter.Makes thread frame [next] := by
  intro home locals point impossible
  cases impossible

omit [DecidableEq Shop] [DecidableEq Thread] in
theorem Shared.inRange_of_few {shared : Shared program} (few : shared.created.length < 2 ^ program.bits) :
    shared.InRange := by
  intro call
  have counted := List.countP_le_length (p := Work.ofCall call) (l := shared.created)
  unfold Shared.outstanding Shared.made
  omega

/-- What a step in the smallest shop has to show, other than the call itself. -/
structure Unobtrusive (thread : Option Unit) (shared : Shared smallProgram) (frame : Frame Unit smallProgram.bits)
    (shared' : Shared smallProgram) : Prop where
  idle : forall locals, frame = .spread () 0 locals .loadItems -> shared.workItems () = 0
  accepted : shared'.lost = shared.lost
  spared : thread = none ∨ forall entry, entry ∈ shared.queue -> entry ∈ shared'.queue
  few : shared'.created.length < 2 ^ 16

theorem advance_favourable
    {state : Stacked (Option Unit) (Frame Unit smallProgram.bits) (Shared smallProgram × PriorityNote (Option Unit))}
    (reachable : (favourableSystem (smallPool Unit) smallSetter).Reachable state) (thread : Option Unit)
    {frame next : Frame Unit smallProgram.bits} {rest : List (Frame Unit smallProgram.bits)}
    {shared : Shared smallProgram} (place : state.callStack thread = frame :: rest)
    (move : ShopStep (smallPool Unit) state.callStack thread state.shared.1 frame shared [next])
    (unobtrusive : Unobtrusive thread state.shared.1 frame shared) (success : state.shared.2.success = true) :
    (favourableSystem (smallPool Unit) smallSetter).Reachable
      (state.replaceTop thread (shared, smallSetter.watch state.shared.2 thread [next]) ([next] ++ rest)) := by
  have favourable : Favourable (smallPool Unit) smallSetter thread state.shared frame shared [next] := by
    constructor
    · intro home locals point impossible
      cases impossible
    · intro home locals loads
      exact unobtrusive.idle locals loads
    · intro home locals worker first registered rest offers
      exact unobtrusive.accepted
    · intro home worker index role queued
      rcases unobtrusive.spared with rfl | more
      · cases worker with
        | none => exact Or.inr (Or.inl rfl)
        | some caller => cases role
      · rcases queued with ⟨entry, member, found⟩
        exact Or.inl ⟨entry, more entry member, found⟩
    · intro host part ends own different computed
      exact success
  exact .step reachable ⟨.top thread frame rest _ [next] place
    ⟨⟨⟨move, rfl⟩, smallSetter.makes_single thread frame next⟩, favourable⟩,
    Shared.inRange_of_few unobtrusive.few⟩

/-- The call is made by a thread that is not the worker, on a platform with a
core for each of them. -/
theorem begin_favourable
    {state : Stacked (Option Unit) (Frame Unit smallProgram.bits) (Shared smallProgram × PriorityNote (Option Unit))}
    (reachable : (favourableSystem (smallPool Unit) smallSetter).Reachable state)
    {point : SpreadPoint smallProgram.bits} {shared : Shared smallProgram}
    (place : state.callStack (some ()) = [.outside])
    (move : CallStep (smallPool Unit) state.callStack (some ()) state.shared.1 .outside shared
      [.spread () 0 ⟨2, 1, 0, false, false, true⟩ point, .outside])
    (range : shared.InRange) (queue : shared.queue = state.shared.1.queue) :
    (favourableSystem (smallPool Unit) smallSetter).Reachable
      (state.replaceTop (some ()) (shared, smallSetter.watch state.shared.2 (some ())
        [.spread () 0 ⟨2, 1, 0, false, false, true⟩ point, .outside])
        ([.spread () 0 ⟨2, 1, 0, false, false, true⟩ point, .outside] ++ [])) := by
  have makes : smallSetter.Makes (some ()) .outside
      [.spread () 0 ⟨2, 1, 0, false, false, true⟩ point, .outside] := by
    intro home locals point' same
    cases same
    exact ⟨rfl, rfl, rfl⟩
  have favourable : Favourable (smallPool Unit) smallSetter (some ()) state.shared .outside shared
      [.spread () 0 ⟨2, 1, 0, false, false, true⟩ point, .outside] := by
    constructor
    · intro home locals point' same
      constructor
      · rintro ⟨index, served⟩
        cases served
      · exact Nat.lt_succ_self 1
    · intro home locals impossible
      cases impossible
    · intro home locals worker first registered rest impossible
      cases impossible
    · intro home worker index role queued
      left
      rw [QueuedFor, queue]
      exact queued
    · intro host part impossible
      cases impossible
  exact .step reachable ⟨.top (some ()) .outside [] _ _ place ⟨⟨⟨.call move, rfl⟩, makes⟩, favourable⟩, range⟩

/-- In the smallest shop the worker takes its own slice. -/
theorem served_run : Exists fun state => (favourableSystem (smallPool Unit) smallSetter).Reachable state ∧
    (Exists fun locals => state.callStack (some ()) = [.spread () 0 locals .finished, .outside]) ∧
      smallSetter.result (smallProgram.workers ()) state.shared.2 = true ∧ none ∈ state.shared.2.took := by
  have start : (favourableSystem (smallPool Unit) smallSetter).Reachable
      ⟨(Shared.fresh, PriorityNote.blank), (smallPool Unit).initialStack⟩ :=
    .initial ⟨rfl, Shared.inRange_of_few (by decide)⟩
  have called := begin_favourable start rfl (.spread .outside () 2 1 rfl (Or.inl rfl))
    (Shared.inRange_of_few (by decide)) rfl
  have loaded := advance_favourable called (some ()) rfl (.spread (.loadItems () 0 _))
    ⟨fun _ _ => rfl, rfl, Or.inr (fun _ stays => stays), by decide⟩ rfl
  have planned := advance_favourable loaded (some ()) rfl (.spread (.plan () 0 _ _ _ _ plan_pair))
    ⟨nofun, rfl, Or.inr (fun _ stays => stays), by decide⟩ rfl
  have registered := advance_favourable planned (some ()) rfl (.spread (.registerSlice () 0 _ _ _ _ _ _ _))
    ⟨nofun, rfl, Or.inr (fun _ stays => stays), by decide⟩ rfl
  have counted := advance_favourable registered (some ()) rfl (.spread (.countSlice () 0 _ _ _ _ _ _))
    ⟨nofun, rfl, Or.inr (fun _ stays => stays), by decide⟩ rfl
  have queued := advance_favourable counted (some ()) rfl (.spread (.enqueueSlices () 0 _ _ _ _ _))
    ⟨nofun, rfl, Or.inr (fun _ stays => List.mem_append_left _ stays), by decide⟩ rfl
  have notified := advance_favourable queued (some ()) rfl (.spread (.notifyRoot () 0 _ _ _))
    ⟨nofun, rfl, Or.inr (fun _ stays => stays), by decide⟩ rfl
  have taken := advance_favourable notified none rfl
    (.worker (.takeOwn () 0 [] ⟨(), some 0, .part ⟨0, 0, ⟨1, 2⟩⟩⟩ [] rfl rfl rfl)) ⟨nofun, rfl, Or.inl rfl, by decide⟩ rfl
  have invoked := advance_favourable taken none rfl (.execution (.invoke _ _))
    ⟨nofun, rfl, Or.inl rfl, by decide⟩ rfl
  have finished := advance_favourable invoked none rfl (.execution (.finish _ _))
    ⟨nofun, rfl, Or.inl rfl, by decide⟩ rfl
  have arrived := advance_favourable finished none rfl (.execution (.arrive _ _))
    ⟨nofun, rfl, Or.inl rfl, by decide⟩ rfl
  have own := advance_favourable arrived (some ()) rfl (.spread (.callerRegister () 0 _))
    ⟨nofun, rfl, Or.inr (fun _ stays => stays), by decide⟩ rfl
  have fetched := advance_favourable own (some ()) rfl (.spread (.callerCount () 0 _ _))
    ⟨nofun, rfl, Or.inr (fun _ stays => stays), by decide⟩ rfl
  have invoked' := advance_favourable fetched (some ()) rfl (.execution (.invoke _ _))
    ⟨nofun, rfl, Or.inr (fun _ stays => stays), by decide⟩ rfl
  have finished' := advance_favourable invoked' (some ()) rfl (.execution (.finish _ _))
    ⟨nofun, rfl, Or.inr (fun _ stays => stays), by decide⟩ rfl
  have arrived' := advance_favourable finished' (some ()) rfl (.execution (.arrive _ _))
    ⟨nofun, rfl, Or.inr (fun _ stays => stays), by decide⟩ rfl
  have completed := advance_favourable arrived' (some ()) rfl (.spread (.callerComplete () 0 _))
    ⟨nofun, rfl, Or.inr (fun _ stays => stays), by decide⟩ rfl
  have skipped := advance_favourable completed (some ()) rfl (.spread (.stealSkip () 0 _))
    ⟨nofun, rfl, Or.inr (fun _ stays => stays), by decide⟩ rfl
  have joined := advance_favourable skipped (some ()) rfl (.spread (.joined () 0 _ rfl))
    ⟨nofun, rfl, Or.inr (fun _ stays => stays), by decide⟩ rfl
  exact ⟨_, joined, ⟨_, rfl⟩, rfl, List.mem_cons_of_mem _ List.mem_cons_self⟩

theorem set_priority_reaches_every_worker_single : Exists fun state =>
    (favourableSystem (smallPool Unit) smallSetter).Reachable state ∧ none ∈ state.shared.2.prioritized := by
  obtain ⟨state, reachable, ⟨locals, returning⟩, succeeded, _⟩ := served_run
  exact ⟨state, reachable, set_priority_reaches_every_worker (smallPool Unit) smallSetter state reachable (some ()) ()
    locals _ returning succeeded none 0 rfl⟩

end Shop
end Sweater
