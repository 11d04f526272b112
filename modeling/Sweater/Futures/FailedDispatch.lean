import Sweater.Futures.SlotLife

namespace Sweater
namespace Futures

open Interleaving
open Threading

/-!
# A dispatch whose work item is refused

`dispatch_lite` and `dispatch_outcome` construct a wrapper, which makes a slot
and keeps its promise beside the work, and hand it to the queue inside a
trivially destructible `self_destructed_work`.  When the queue refuses the item
the future is replaced by one that reports `std::bad_alloc`.

Other threads of the shop change any slot that they can reach, as they like.
They reach the promise of a work item when the queue has accepted it.
-/

variable {T E : Type}

/-- `work_t::requires_allocation<Functor>` -/
inductive Storage
  | inline
  | heap
  deriving DecidableEq, Repr

/-- `lite_wrapper` or `outcome_wrapper`: what running the work yields, and
`p_state_` of the promise. -/
structure Wrapper (T E : Type) where
  work : Completion T E
  promise : Option Nat

/-- `self_destructed_work`.  The functor is owned through `p_functor`, or lives
in the bytes of the item; it is absent after a move. -/
inductive Item (T E : Type)
  | heap (functor : Option (Wrapper T E))
  | inline (functor : Option (Wrapper T E))

namespace Item

/-- `self_destructed_work( Args && ... )` -/
def construct (storage : Storage) (wrapper : Wrapper T E) : Item T E :=
  match storage with
  | .heap => heap (some wrapper)
  | .inline => inline (some wrapper)

/-- The move constructor: the new item, and what is left of the old one. -/
def move : Item T E -> Item T E × Item T E
  | heap functor => (heap functor, heap none)
  | inline functor => (inline functor, inline none)

/-- The slot of the promise in the item. -/
def promise : Item T E -> Option Nat
  | heap functor => functor.bind Wrapper.promise
  | inline functor => functor.bind Wrapper.promise

/-- The destructor, which is trivial for both kinds of storage. -/
def destroy {flavour : Flavour T E} {width bits : Nat} (_ : Item T E)
    (slots : Nat -> Slot flavour width bits) : Nat -> Slot flavour width bits :=
  slots

end Item

/-- Where the call is.  A local future is named by the slot in its `p_state_`. -/
inductive DispatchPoint (T E : Type)
  | construct
  /-- before `enqueue` -/
  | enqueue (future : Nat) (item : Item T E)
  /-- before the second `make_promise_future()` -/
  | makeFailed (future : Nat)
  /-- before the writes of `set_exception` -/
  | storeFailed (future failed : Nat)
  /-- inside `completion_.signal()` -/
  | signalFailed (future failed : Nat)
  /-- `future = std::move( pair.second )`, before the test of `waited_` -/
  | testWaited (future failed : Nat)
  /-- inside `completion_.wait()` -/
  | wait (future failed : Nat)
  /-- before `waited_ = true` -/
  | storeWaited (future failed : Nat)
  | releaseFuture (future failed : Nat)
  | deleteFuture (future failed : Nat)
  /-- `~promise()` of `pair.first`, which is completed, before `owners_.fetch_sub( 1 )` -/
  | releaseFailed (failed : Nat)
  | deleteFailed (failed : Nat)
  | returned (future : Nat)

namespace DispatchPoint

/-- The slot whose semaphore the call waits for. -/
def waitsFor : DispatchPoint T E -> Option Nat
  | wait future _ => some future
  | _ => none

/-- The slot whose semaphore the call is inside of. -/
def inside : DispatchPoint T E -> Option Nat
  | signalFailed _ failed => some failed
  | wait future _ => some future
  | _ => none

/-- The slot of a promise among the locals of the call. -/
def promise : DispatchPoint T E -> Option Nat
  | enqueue _ item => item.promise
  | storeFailed _ failed => some failed
  | signalFailed _ failed => some failed
  | testWaited _ failed => some failed
  | wait _ failed => some failed
  | storeWaited _ failed => some failed
  | releaseFuture _ failed => some failed
  | deleteFuture _ failed => some failed
  | releaseFailed failed => some failed
  | _ => none

end DispatchPoint

/-- The slots on the heap, and which of them the other threads can reach. -/
structure Shared (flavour : Flavour T E) (width bits : Nat) where
  slots : Nat -> Slot flavour width bits
  made : Nat
  foreign : Nat -> Prop
  foreign_made : forall slot, foreign slot -> slot < made

structure DispatchState (flavour : Flavour T E) (width bits : Nat) where
  slots : Nat -> Slot flavour width bits
  made : Nat
  foreign : Nat -> Prop
  point : DispatchPoint T E

namespace DispatchState

variable {flavour : Flavour T E} {width bits : Nat}

/-- The call begins. -/
def start (shared : Shared flavour width bits) : DispatchState flavour width bits where
  slots := shared.slots
  made := shared.made
  foreign := shared.foreign
  point := .construct

/-- The call changes a slot and goes on. -/
def touch (state : DispatchState flavour width bits) (slot : Nat) (next : Slot flavour width bits)
    (point : DispatchPoint T E) : DispatchState flavour width bits :=
  { state with
    slots := Function.update state.slots slot next
    point := point }

/-- `make_promise_future()` -/
def make (state : DispatchState flavour width bits) (point : DispatchPoint T E) :
    DispatchState flavour width bits :=
  { state.touch state.made (.fresh flavour width bits) point with made := state.made + 1 }

/-- A promise of the slot is in reach of some thread. -/
def signallable (state : DispatchState flavour width bits) (slot : Nat) : Prop :=
  state.foreign slot ∨ state.point.promise = some slot

end DispatchState

/-- The call, for a queue that accepts or refuses the item. -/
inductive DispatchStep {flavour : Flavour T E} {width bits : Nat} (storage : Storage) (work : Completion T E)
    (accepted : Bool) : DispatchState flavour width bits -> DispatchState flavour width bits -> Prop
  | construct {state} :
      state.point = .construct ->
      DispatchStep storage work accepted state
        (state.make (.enqueue state.made (.construct storage ⟨work, some state.made⟩)))
  | enqueueAccepted {state} (future item) :
      state.point = .enqueue future item -> accepted = true ->
      DispatchStep storage work accepted state
        { state with
          foreign := fun slot => state.foreign slot ∨ item.move.1.promise = some slot
          point := .returned future }
  | enqueueRefused {state} (future item) :
      state.point = .enqueue future item -> accepted = false ->
      DispatchStep storage work accepted state
        { state with
          slots := item.move.2.destroy (item.move.1.destroy state.slots)
          point := .makeFailed future }
  | makeFailed {state} (future) :
      state.point = .makeFailed future ->
      DispatchStep storage work accepted state (state.make (.storeFailed future state.made))
  | storeFailed {state} (future failed) :
      state.point = .storeFailed future failed ->
      DispatchStep storage work accepted state
        (state.touch failed ((state.slots failed).complete (.exception .badAlloc)) (.signalFailed future failed))
  | signalled {state} (future failed) :
      state.point = .signalFailed future failed -> (state.slots failed).semaphore.points .promise = .idle ->
      DispatchStep storage work accepted state { state with point := .testWaited future failed }
  | testWaited {state} (future failed) :
      state.point = .testWaited future failed -> (state.slots future).waited = true ->
      DispatchStep storage work accepted state { state with point := .releaseFuture future failed }
  | callWait {state} (future failed) :
      state.point = .testWaited future failed -> (state.slots future).waited = false ->
      DispatchStep storage work accepted state
        (state.touch future (state.slots future).callWait (.wait future failed))
  | waited {state} (future failed) :
      state.point = .wait future failed -> (state.slots future).semaphore.points .future = .idle ->
      DispatchStep storage work accepted state { state with point := .storeWaited future failed }
  | storeWaited {state} (future failed) :
      state.point = .storeWaited future failed ->
      DispatchStep storage work accepted state
        (state.touch future { state.slots future with waited := true } (.releaseFuture future failed))
  | releaseFutureFirst {state} (future failed) :
      state.point = .releaseFuture future failed -> (state.slots future).owners ≠ 1 ->
      DispatchStep storage work accepted state
        (state.touch future ((state.slots future).release .future) (.releaseFailed failed))
  | releaseFutureLast {state} (future failed) :
      state.point = .releaseFuture future failed -> (state.slots future).owners = 1 ->
      DispatchStep storage work accepted state
        (state.touch future ((state.slots future).release .future) (.deleteFuture future failed))
  | deleteFuture {state} (future failed) :
      state.point = .deleteFuture future failed ->
      DispatchStep storage work accepted state
        (state.touch future (state.slots future).delete (.releaseFailed failed))
  | releaseFailedFirst {state} (failed) :
      state.point = .releaseFailed failed -> (state.slots failed).owners ≠ 1 ->
      DispatchStep storage work accepted state
        (state.touch failed ((state.slots failed).release .promise) (.returned failed))
  | releaseFailedLast {state} (failed) :
      state.point = .releaseFailed failed -> (state.slots failed).owners = 1 ->
      DispatchStep storage work accepted state
        (state.touch failed ((state.slots failed).release .promise) (.deleteFailed failed))
  | deleteFailed {state} (failed) :
      state.point = .deleteFailed failed ->
      DispatchStep storage work accepted state
        (state.touch failed (state.slots failed).delete (.returned failed))
  /-- a step of the call inside `signal()` or `wait()` -/
  | semaphore {state} (slot semaphore) :
      state.point.inside = some slot -> SemaphoreStep (state.slots slot).semaphore semaphore ->
      Inside (state.slots slot).semaphore semaphore ->
      DispatchStep storage work accepted state
        (state.touch slot { state.slots slot with semaphore := semaphore } state.point)
  /-- the other threads -/
  | others {state} (slots made) (foreign : Nat -> Prop) :
      state.made ≤ made -> (forall slot, foreign slot -> slot < made) ->
      (forall slot, slot < state.made -> ¬ state.foreign slot -> slots slot = state.slots slot ∧ ¬ foreign slot) ->
      DispatchStep storage work accepted state { state with slots := slots, made := made, foreign := foreign }

/-- The runs of a call. -/
def dispatchSystem {flavour : Flavour T E} {width bits : Nat} (storage : Storage) (work : Completion T E)
    (accepted : Bool) (shared : Shared flavour width bits) : System (DispatchState flavour width bits) where
  initial := fun state => state = .start shared
  step := DispatchStep storage work accepted

/-- A refused dispatch fails the future instead of blocking. -/
structure FailsTheFuture {flavour : Flavour T E} {width bits : Nat} (storage : Storage) (work : Completion T E)
    (shared : Shared flavour width bits) : Prop where
  /-- it waits only for slots that some promise can signal -/
  signallable : forall state slot, (dispatchSystem storage work false shared).Reachable state ->
    state.point.waitsFor = some slot -> state.signallable slot
  returns : Exists fun state => (dispatchSystem storage work false shared).Reachable state ∧
    Exists fun future => state.point = .returned future
  reports : forall state future, (dispatchSystem storage work false shared).Reachable state ->
    state.point = .returned future ->
    (flavour.get (state.slots future).data).1 = some (.exception .badAlloc)

section Runs

variable {flavour : Flavour T E} {backend : FutexBackend} {concurrency : HardwareConcurrency} {storage : Storage}
  {work : Completion T E}

/-- The call holds the future of a slot whose promise is out of reach. -/
structure Abandoned (state : DispatchState flavour (backend.valueBits concurrency) concurrency.bits) (future : Nat)
    (phase : FuturePhase) : Prop where
  made : future < state.made
  unreached : ¬ state.foreign future
  pending : (state.slots future).completed = false
  sound : SlotSound (state.slots future) .away phase

/-- How far a refused call gets. -/
def Blocked (state : DispatchState flavour (backend.valueBits concurrency) concurrency.bits) : Prop :=
  match state.point with
  | .construct => True
  | .enqueue future _ => Abandoned state future .away
  | .makeFailed future => Abandoned state future .away
  | .storeFailed future failed => Abandoned state future .away ∧ failed ≠ future
  | .signalFailed future failed => Abandoned state future .away ∧ failed ≠ future
  | .testWaited future failed => Abandoned state future .away ∧ failed ≠ future
  | .wait future failed => Abandoned state future .wait ∧ failed ≠ future
  | _ => False

variable {state after : DispatchState flavour (backend.valueBits concurrency) concurrency.bits} {future slot : Nat}
  {phase : FuturePhase}

/-- A step that leaves the slot as it is, and out of reach. -/
theorem Abandoned.of_same (abandoned : Abandoned state future phase) (grown : state.made ≤ after.made)
    (unreached : ¬ after.foreign future) (same : after.slots future = state.slots future) :
    Abandoned after future phase where
  made := Nat.lt_of_lt_of_le abandoned.made grown
  unreached := unreached
  pending := by
    rw [same]
    exact abandoned.pending
  sound := by
    rw [same]
    exact abandoned.sound

/-- A change of another slot. -/
theorem Abandoned.touch (abandoned : Abandoned state future phase) (other : slot ≠ future)
    (next : Slot flavour (backend.valueBits concurrency) concurrency.bits) (point : DispatchPoint T E) :
    Abandoned (state.touch slot next point) future phase :=
  abandoned.of_same (Nat.le_refl _) abandoned.unreached (Function.update_of_ne other.symm _ _)

theorem Abandoned.goto (abandoned : Abandoned state future phase) (point : DispatchPoint T E) :
    Abandoned { state with point := point } future phase :=
  abandoned.of_same (Nat.le_refl _) abandoned.unreached rfl

/-- A change of the slot itself, by its future. -/
theorem Abandoned.change (abandoned : Abandoned state future phase)
    {next : Slot flavour (backend.valueBits concurrency) concurrency.bits} {nextPhase : FuturePhase}
    (sound : SlotSound next .away nextPhase) (pending : next.completed = false) (point : DispatchPoint T E) :
    Abandoned (state.touch future next point) future nextPhase := by
  have same : (state.touch future next point).slots future = next := Function.update_self _ _ _
  exact ⟨abandoned.made, abandoned.unreached, same.symm ▸ pending, same.symm ▸ sound⟩

/-- A new slot. -/
theorem Abandoned.make (abandoned : Abandoned state future phase) (point : DispatchPoint T E) :
    Abandoned (state.make point) future phase :=
  abandoned.of_same (Nat.le_succ _) abandoned.unreached (Function.update_of_ne (Nat.ne_of_lt abandoned.made) _ _)

/-- The other threads do not reach the slot. -/
theorem Abandoned.others (abandoned : Abandoned state future phase)
    {slots : Nat -> Slot flavour (backend.valueBits concurrency) concurrency.bits} {made : Nat} {foreign : Nat -> Prop}
    (grown : state.made ≤ made)
    (kept : forall slot, slot < state.made -> ¬ state.foreign slot ->
      slots slot = state.slots slot ∧ ¬ foreign slot) (point : DispatchPoint T E) :
    Abandoned { slots := slots, made := made, foreign := foreign, point := point } future phase := by
  rcases kept future abandoned.made abandoned.unreached with ⟨same, unreached⟩
  exact abandoned.of_same grown unreached same

/-- A slot that has not been completed has not been waited for. -/
theorem Abandoned.unwaited (abandoned : Abandoned state future phase) : (state.slots future).waited = false := by
  by_contra waited
  have served := abandoned.sound.contents.served (Bool.not_eq_false _ ▸ waited)
  rw [abandoned.pending] at served
  cases served

/-- The wait for an abandoned slot does not return. -/
theorem Abandoned.not_returned (abandoned : Abandoned state future .wait) :
    (state.slots future).semaphore.points .future ≠ .idle := by
  intro returned
  have recorded : SlotSound (state.slots future) .away .store :=
    abandoned.sound.futureTo rfl rfl ⟨returned, abandoned.sound.future⟩
  have served := recorded.completed_of_waited
  rw [abandoned.pending] at served
  cases served

/-- Every step of a refused call keeps it on the way to the wait. -/
theorem Blocked.step (fresh : forall slot, state.foreign slot -> slot < state.made) (blocked : Blocked state)
    (move : DispatchStep storage work false state after) : Blocked after := by
  have place := blocked
  cases move with
  | construct point =>
      have slot : (state.make (.enqueue state.made (.construct storage ⟨work, some state.made⟩))).slots state.made =
          .fresh flavour _ _ := Function.update_self _ _ _
      exact ⟨Nat.lt_succ_self _, fun reached => Nat.lt_irrefl _ (fresh _ reached), slot ▸ rfl, slot ▸ slotSound_fresh⟩
  | enqueueAccepted future item point accepted => cases accepted
  | enqueueRefused future item point refused =>
      rw [Blocked, point] at place
      exact place.goto _
  | makeFailed future point =>
      rw [Blocked, point] at place
      exact ⟨place.make _, Nat.ne_of_gt place.made⟩
  | storeFailed future failed point =>
      rw [Blocked, point] at place
      exact ⟨place.1.touch place.2 _ _, place.2⟩
  | signalled future failed point returned =>
      rw [Blocked, point] at place
      exact ⟨place.1.goto _, place.2⟩
  | testWaited future failed point waited =>
      rw [Blocked, point] at place
      cases place.1.unwaited.symm.trans waited
  | callWait future failed point unwaited =>
      rw [Blocked, point] at place
      have sound : SlotSound (state.slots future).callWait .away .wait := by
        apply SlotSound.callWait _ unwaited
        refine place.1.sound.futureTo rfl rfl ⟨place.1.sound.future.1, ?_⟩
        by_contra released
        have waited := place.1.sound.future.2 (Bool.not_eq_false _ ▸ released)
        cases unwaited.symm.trans waited
      exact ⟨place.1.change sound place.1.pending _, place.2⟩
  | waited future failed point returned =>
      rw [Blocked, point] at place
      exact absurd returned place.1.not_returned
  | semaphore slot semaphore point step inside =>
      cases position : state.point with
      | signalFailed future failed =>
          rw [position] at point
          cases point
          rw [Blocked, position] at place
          rw [Blocked, DispatchState.touch]
          exact ⟨place.1.touch place.2 _ _, place.2⟩
      | wait future failed =>
          rw [position] at point
          cases point
          rw [Blocked, position] at place
          exact ⟨place.1.change (place.1.sound.semaphore step inside) place.1.pending _, place.2⟩
      | _ =>
          rw [position] at point
          cases point
  | others slots made foreign grown bounded kept =>
      cases position : state.point with
      | construct => trivial
      | enqueue future item | makeFailed future =>
          rw [Blocked, position] at place
          exact place.others grown kept _
      | storeFailed future failed | signalFailed future failed | testWaited future failed | wait future failed =>
          rw [Blocked, position] at place
          exact ⟨place.1.others grown kept _, place.2⟩
      | _ =>
          rw [Blocked, position] at place
          exact place.elim
  | storeWaited future failed point | releaseFutureFirst future failed point | releaseFutureLast future failed point
  | deleteFuture future failed point | releaseFailedFirst failed point | releaseFailedLast failed point
  | deleteFailed failed point =>
      rw [Blocked, point] at place
      exact place.elim

/-- A refused call never gets past the wait. -/
theorem blocked_of_reachable {shared : Shared flavour (backend.valueBits concurrency) concurrency.bits}
    (reachable : (dispatchSystem storage work false shared).Reachable state) :
    (forall slot, state.foreign slot -> slot < state.made) ∧ Blocked state := by
  apply @System.Reachable.invariant _ _
    (fun state => (forall slot, state.foreign slot -> slot < state.made) ∧ Blocked state) _ _ _ reachable
  · intro first same
    cases same
    exact ⟨shared.foreign_made, trivial⟩
  · intro before after _ earlier move
    refine ⟨?_, earlier.2.step earlier.1 move⟩
    intro slot reached
    cases move with
    | construct | makeFailed => exact Nat.lt_succ_of_lt (earlier.1 slot reached)
    | enqueueAccepted future item point accepted => cases accepted
    | others slots made foreign grown bounded kept => exact bounded slot reached
    | _ => exact earlier.1 slot reached

/-- The slot that the call waits for has no promise in reach. -/
theorem Blocked.orphan (blocked : Blocked state) {future failed : Nat} (place : state.point = .wait future failed) :
    ¬ state.signallable future := by
  rw [Blocked, place] at blocked
  rintro (reached | held)
  · exact blocked.1.unreached reached
  · rw [place] at held
    exact blocked.2 (Option.some.inj held)

/-- The replacement slot is completed without delay. -/
theorem signal_returns {shared : Shared flavour (backend.valueBits concurrency) concurrency.bits} {future failed : Nat}
    (reachable : (dispatchSystem storage work false shared).Reachable state)
    (place : state.point = .storeFailed future failed) (fresh : state.slots failed = .fresh flavour _ _) :
    Exists fun next => (dispatchSystem storage work false shared).Reachable next ∧
      next.point = .testWaited future failed := by
  have self : forall (state : DispatchState flavour (backend.valueBits concurrency) concurrency.bits) next point,
      (state.touch failed next point).slots failed = next := fun _ _ _ => Function.update_self _ _ _
  have stored := reachable.step (.storeFailed future failed place)
  rw [fresh] at stored
  have calling : (((Slot.fresh flavour (backend.valueBits concurrency) concurrency.bits).complete
      (.exception .badAlloc)).semaphore).points .promise = .signalAdd 1 :=
    (points_goto _ _ _ _).trans (if_pos rfl)
  have sent := stored.step (.semaphore failed _ rfl (.addUncontended Side.promise 1 ?place ?solvent) ?inside)
  case place =>
    rw [self]
    exact calling
  case solvent =>
    rw [self]
    exact Int.le_of_eq BitVec.toInt_zero.symm
  case inside =>
    intro side idle
    change Function.update _ Side.promise _ side = _
    cases side with
    | promise => exact Function.update_self _ _ _
    | future => exact (Function.update_of_ne (by decide) _ _).trans idle
  refine ⟨_, sent.step (.signalled future failed rfl ?_), rfl⟩
  simp only [self, SemaphoreState.goto, Function.update_self]

/-- Nothing on the way keeps a refused call from reaching the wait. -/
theorem wait_reachable (storage : Storage) (work : Completion T E)
    (shared : Shared flavour (backend.valueBits concurrency) concurrency.bits) :
    Exists fun state => (dispatchSystem storage work false shared).Reachable state ∧
      Exists fun future => Exists fun failed => state.point = .wait future failed := by
  have start : (dispatchSystem storage work false shared).Reachable (.start shared) := .initial rfl
  have constructed := start.step (.construct rfl)
  have refused := constructed.step (.enqueueRefused shared.made _ rfl rfl)
  have remade := refused.step (.makeFailed shared.made rfl)
  rcases signal_returns remade rfl (Function.update_self _ _ _) with ⟨state, tested, place⟩
  have blocked := (blocked_of_reachable tested).2
  rw [Blocked, place] at blocked
  exact ⟨_, tested.step (.callWait _ _ place blocked.1.unwaited), _, _, rfl⟩

/-- For every work functor, in either kind of storage, with every result type
and in every state of the shop, a refused dispatch waits for a slot that no
promise can signal, and never returns. -/
theorem refused_dispatch_blocks (storage : Storage) (work : Completion T E)
    (shared : Shared flavour (backend.valueBits concurrency) concurrency.bits) :
    ¬ FailsTheFuture storage work shared ∧
      (Exists fun state => (dispatchSystem storage work false shared).Reachable state ∧
        Exists fun slot => state.point.waitsFor = some slot ∧ ¬ state.signallable slot) ∧
      forall state future, (dispatchSystem storage work false shared).Reachable state ->
        state.point ≠ .returned future := by
  rcases wait_reachable storage work shared with ⟨state, reachable, future, failed, place⟩
  have orphan := (blocked_of_reachable reachable).2.orphan place
  have waits : state.point.waitsFor = some future := by
    rw [place]
    rfl
  refine ⟨?_, ⟨state, reachable, future, waits, orphan⟩, ?_⟩
  · intro fails
    exact orphan (fails.signallable state future reachable waits)
  · intro later other reached returned
    have blocked := (blocked_of_reachable reached).2
    rw [Blocked, returned] at blocked
    exact blocked

end Runs

/-- No slot has been made. -/
def nothingShared : Shared (futureState (E := Empty) (fun _ : Nat => 0)) (FutexBackend.linux.valueBits .uint16)
    HardwareConcurrency.uint16.bits where
  slots := fun _ => .fresh _ _ _
  made := 0
  foreign := fun _ => False
  foreign_made := fun _ reached => reached.elim

/-- A large functor that returns a number, refused by the queue of a new shop. -/
theorem refused_heap_functor_blocks : ¬ FailsTheFuture .heap (.value 7) nothingShared := by
  intro fails
  rcases wait_reachable .heap (.value 7) nothingShared with ⟨state, reachable, future, failed, place⟩
  apply (blocked_of_reachable reachable).2.orphan place
  apply fails.signallable state future reachable
  rw [place]
  rfl

end Futures
end Sweater
