import Sweater.Interleaving.Reachability
import Mathlib.Data.List.Count

namespace Sweater
namespace Shop
namespace Fire

open Interleaving

/-!
# The functor of a fired work item

`create_fire_and_destroy` wraps a functor in a `self_destructed_work`, which is
trivially destructible: the queue may move it about and drop what is left of it
without running any destructor.  A small functor lives in the bytes of the
wrapper and every move makes another one out of it; a large one lives on the
heap and the moves pass on its address.  Running the item destroys the functor.

The record of a call lists what happens to its functors, in the order in which
it happens.  Functors are numbered as they are constructed.
-/

inductive Event
  | construct (functor : Nat)
  | moveConstruct (source functor : Nat)
  | invoke (functor : Nat)
  | destroy (functor : Nat)
  | inFlightInc
  | inFlightDec
  deriving DecidableEq, Repr

namespace Event

/-- An invocation of any functor. -/
def invokes : Event -> Bool
  | invoke _ => true
  | _ => false

end Event

/-- `work_t::requires_allocation<Functor>` -/
inductive Storage
  | inline
  | heap
  deriving DecidableEq, Repr

/-- `self_destructed_work`: the functor in its bytes, or behind `p_functor`. -/
structure Item where
  storage : Storage
  functor : Option Nat
  deriving DecidableEq, Repr

namespace Item

/-- The move constructor: the new item, what is left of the old one, and what
happens on the way.  In the bytes of the new item a functor is constructed. -/
def move (item : Item) (fresh : Nat) : Item × Item × List Event :=
  match item.storage, item.functor with
  | .heap, pFunctor => (⟨.heap, pFunctor⟩, ⟨.heap, none⟩, [])
  | .inline, some source =>
      (⟨.inline, some fresh⟩, ⟨.inline, none⟩, [.moveConstruct source fresh, .destroy source])
  | .inline, none => (⟨.inline, none⟩, ⟨.inline, none⟩, [])

/-- The functors that a move constructs. -/
def moved (item : Item) : Nat :=
  match item.storage, item.functor with
  | .inline, some _ => 1
  | _, _ => 0

/-- The destructor, which is trivial. -/
def destroy (_ : Item) : List Event := []

end Item

/-- Where the thread is that fires. -/
inductive CallerPoint
  | construct
  | enqueue
  | workAdded (succeeded : Bool)
  | returned (succeeded : Bool)
  /-- `new Functor` has thrown -/
  | thrown
  deriving DecidableEq, Repr

/-- Where the item is. -/
inductive WorkPoint
  | absent
  /-- with the caller, on its way into the queue -/
  | offered (item : Item)
  | queued (item : Item)
  /-- in the `work` of a worker -/
  | taken (item : Item)
  /-- inside `operator()`, before the invocation -/
  | invoke (item : Item) (functor : Nat)
  /-- before `~destructor()` -/
  | destroy (item : Item) (functor : Nat)
  /-- before `~in_flight_guard()` -/
  | leave (item : Item)
  | executed (item : Item)
  /-- another item has been dequeued into the same `work` -/
  | overwritten
  /-- dropped by the caller -/
  | refused (item : Item)
  /-- dropped with the queue of a shop that has been destroyed -/
  | abandoned (item : Item)
  deriving DecidableEq, Repr

structure State where
  made : Nat
  record : List Event
  caller : CallerPoint
  work : WorkPoint
  deriving DecidableEq, Repr

/-- The call begins. -/
def State.start : State where
  made := 0
  record := []
  caller := .construct
  work := .absent

namespace State

/-- The item is moved, and what is left of it is dropped. -/
def move (state : State) (item : Item) (place : Item -> WorkPoint) : State :=
  { state with
    made := state.made + item.moved
    record := state.record ++ (item.move state.made).2.2 ++ (item.move state.made).2.1.destroy
    work := place (item.move state.made).1 }

/-- Something happens to the functor, and the execution goes on. -/
def go (state : State) (event : Event) (work : WorkPoint) : State :=
  { state with
    record := state.record ++ [event]
    work := work }

end State

/-- The steps of the caller, of the queue and of the worker that gets the item. -/
inductive Step (storage : Storage) : State -> State -> Prop
  | construct {state} :
      state.caller = .construct ->
      Step storage state
        { state with
          made := state.made + 1
          record := state.record ++ [.construct state.made]
          caller := .enqueue
          work := .offered ⟨storage, some state.made⟩ }
  | outOfMemory {state} :
      state.caller = .construct -> storage = .heap ->
      Step storage state { state with caller := .thrown }
  /-- a move into a `work_t`, or from one to another -/
  | moveOffered {state} (item) :
      state.work = .offered item -> Step storage state (state.move item .offered)
  | enqueued {state} (item) :
      state.caller = .enqueue -> state.work = .offered item ->
      Step storage state { state.move item .queued with caller := .workAdded true }
  | refused {state} (item) :
      state.caller = .enqueue -> state.work = .offered item ->
      Step storage state
        { state with
          record := state.record ++ item.destroy
          caller := .workAdded false
          work := .refused item }
  /-- `work_added( enqueue_succeeded )`, which counts only what has been enqueued -/
  | workAdded {state} (succeeded) :
      state.caller = .workAdded succeeded ->
      Step storage state
        { state with
          record := state.record ++ (if succeeded then [.inFlightInc] else [])
          caller := .returned succeeded }
  | moveQueued {state} (item) :
      state.work = .queued item -> Step storage state (state.move item .queued)
  | dequeued {state} (item) :
      state.work = .queued item -> Step storage state (state.move item .taken)
  | moveTaken {state} (item) :
      state.work = .taken item -> Step storage state (state.move item .taken)
  | call {state} (item functor) :
      state.work = .taken item -> item.functor = some functor ->
      Step storage state { state with work := .invoke item functor }
  | invoke {state} (item functor) :
      state.work = .invoke item functor ->
      Step storage state (state.go (.invoke functor) (.destroy item functor))
  | destroy {state} (item functor) :
      state.work = .destroy item functor ->
      Step storage state (state.go (.destroy functor) (.leave item))
  | leave {state} (item) :
      state.work = .leave item ->
      Step storage state (state.go .inFlightDec (.executed item))
  | overwritten {state} (item) :
      state.work = .executed item ->
      Step storage state
        { state with
          record := state.record ++ item.destroy
          work := .overwritten }
  | abandoned {state} (item) :
      state.work = .queued item ->
      Step storage state
        { state with
          record := state.record ++ item.destroy
          work := .abandoned item }

/-- The runs of one call. -/
def fireSystem (storage : Storage) : System State where
  initial := fun state => state = .start
  step := Step storage

namespace WorkPoint

/-- The functor that has been constructed and not been destroyed. -/
def living : WorkPoint -> Option Nat
  | offered item => item.functor
  | queued item => item.functor
  | taken item => item.functor
  | invoke _ functor => some functor
  | destroy _ functor => some functor
  | refused item => item.functor
  | abandoned item => item.functor
  | _ => none

/-- The item has been run. -/
def ran : WorkPoint -> Bool
  | executed _ => true
  | overwritten => true
  | _ => false

/-- The functor has been invoked. -/
def invoked : WorkPoint -> Bool
  | destroy _ _ => true
  | leave _ => true
  | work => work.ran

/-- Nobody does anything with the item any more. -/
def settled : WorkPoint -> Bool
  | absent => true
  | refused _ => true
  | abandoned _ => true
  | work => work.ran

end WorkPoint

/-- The call has returned or thrown, and its item has been run or dropped. -/
def State.finished (state : State) : Prop :=
  (state.caller = .thrown ∨ Exists fun succeeded => state.caller = .returned succeeded) ∧ state.work.settled = true

section Lifetimes

variable {storage : Storage} {state after : State}

/-- The caller and the item agree about whether there is one. -/
def Agrees : CallerPoint -> WorkPoint -> Prop
  | .construct, work => work = .absent
  | .enqueue, work => Exists fun item => work = .offered item
  | .workAdded succeeded, work => work ≠ .absent ∧ (succeeded = false ↔ Exists fun item => work = .refused item)
  | .returned succeeded, work => work ≠ .absent ∧ (succeeded = false ↔ Exists fun item => work = .refused item)
  | .thrown, work => work = .absent

/-- What the record says about the functors, for each place of the item. -/
structure Lifetimes (state : State) : Prop where
  /-- all functors but the living one have been destroyed once -/
  destroyed : forall functor, state.record.count (.destroy functor) =
    if functor < state.made ∧ state.work.living ≠ some functor then 1 else 0
  latest : forall functor, state.work.living = some functor -> functor + 1 = state.made
  absent : state.work = .absent ↔ state.made = 0
  gone : state.work.living = none -> state.work = .absent ∨ state.work.invoked = true
  invoked : state.record.countP Event.invokes = state.work.invoked.toNat
  left : state.record.count .inFlightDec = state.work.ran.toNat

/-- Nothing happens to the functors. -/
theorem Lifetimes.kept (lifetimes : Lifetimes state) (caller : CallerPoint) {events : List Event}
    (quiet : forall event, event ∈ events -> event = .inFlightInc) {work : WorkPoint}
    (living : work.living = state.work.living) (invoked : work.invoked = state.work.invoked)
    (ran : work.ran = state.work.ran) (absent : work = .absent ↔ state.work = .absent) :
    Lifetimes ⟨state.made, state.record ++ events, caller, work⟩ where
  destroyed := by
    intro functor
    have none : events.count (.destroy functor) = 0 :=
      List.count_eq_zero.mpr fun member => nomatch quiet _ member
    change (state.record ++ events).count _ = if functor < state.made ∧ work.living ≠ _ then 1 else 0
    rw [List.count_append, none, living, lifetimes.destroyed functor, Nat.add_zero]
  latest := by
    intro functor alive
    exact lifetimes.latest functor (living ▸ alive)
  absent := absent.trans lifetimes.absent
  gone := by
    intro dead
    rcases lifetimes.gone (living ▸ dead) with unmade | done
    · exact Or.inl (absent.mpr unmade)
    · exact Or.inr (invoked ▸ done)
  invoked := by
    have none : events.countP Event.invokes = 0 := by
      apply List.countP_eq_zero.mpr
      intro event member
      rw [quiet event member]
      exact Bool.false_ne_true
    change (state.record ++ events).countP _ = work.invoked.toNat
    rw [List.countP_append, none, invoked, lifetimes.invoked, Nat.add_zero]
  left := by
    have none : events.count .inFlightDec = 0 :=
      List.count_eq_zero.mpr fun member => nomatch quiet _ member
    change (state.record ++ events).count _ = work.ran.toNat
    rw [List.count_append, none, ran, lifetimes.left, Nat.add_zero]

theorem WorkPoint.ran_eq_false {work : WorkPoint} (waiting : work.invoked = false) : work.ran = false := by
  cases work with
  | executed item => exact waiting
  | overwritten => exact waiting
  | _ => rfl

theorem WorkPoint.living_of_ran {work : WorkPoint} (ran : work.ran = true) : work.living = none := by
  cases work with
  | executed item => rfl
  | overwritten => rfl
  | _ => cases ran

/-- What has been invoked and is not under way has been run. -/
theorem WorkPoint.ran_of_settled {work : WorkPoint} (settled : work.settled = true) (done : work.invoked = true) :
    work.ran = true := by
  cases work with
  | destroy item functor => cases settled
  | leave item => cases settled
  | _ => exact done

/-- Another functor is made of the living one, which is destroyed. -/
theorem Lifetimes.renewed (lifetimes : Lifetimes state) (caller : CallerPoint) {functor : Nat}
    (alive : state.work.living = some functor) (waiting : state.work.invoked = false) {work : WorkPoint}
    (living : work.living = some state.made) (invoked : work.invoked = false) (present : work ≠ .absent) :
    Lifetimes ⟨state.made + 1, state.record ++ [Event.moveConstruct functor state.made, .destroy functor],
      caller, work⟩ where
  destroyed := by
    intro other
    have latest := lifetimes.latest functor alive
    change (state.record ++ [Event.moveConstruct functor state.made, .destroy functor]).count _ =
      if other < state.made + 1 ∧ work.living ≠ _ then 1 else 0
    rw [List.count_append, lifetimes.destroyed other, alive, living]
    by_cases same : other = functor
    · subst same
      have earlier : other ≠ state.made := by omega
      have inside : other < state.made + 1 := by omega
      simp [earlier.symm, inside]
    · by_cases fresh : other = state.made
      · subst fresh
        simp [Ne.symm same]
      · have order : other < state.made ↔ other < state.made + 1 := by omega
        simp [Ne.symm same, Ne.symm fresh, order]
  latest := by
    intro other alive
    change work.living = _ at alive
    rw [living] at alive
    cases alive
    rfl
  absent := iff_of_false present (Nat.succ_ne_zero _)
  gone := by
    intro dead
    change work.living = none at dead
    rw [living] at dead
    cases dead
  invoked := by
    change (state.record ++ [Event.moveConstruct functor state.made, .destroy functor]).countP _ = work.invoked.toNat
    rw [List.countP_append, lifetimes.invoked, waiting, invoked]
    rfl
  left := by
    change (state.record ++ [Event.moveConstruct functor state.made, .destroy functor]).count _ = work.ran.toNat
    rw [List.count_append, lifetimes.left, WorkPoint.ran_eq_false waiting, WorkPoint.ran_eq_false invoked]
    rfl

/-- The places from which an item is moved on. -/
structure Place (place : Item -> WorkPoint) : Prop where
  living : forall item, (place item).living = item.functor
  waiting : forall item, (place item).invoked = false
  present : forall item, place item ≠ .absent

theorem place_offered : Place .offered := ⟨fun _ => rfl, fun _ => rfl, nofun⟩

theorem place_queued : Place .queued := ⟨fun _ => rfl, fun _ => rfl, nofun⟩

theorem place_taken : Place .taken := ⟨fun _ => rfl, fun _ => rfl, nofun⟩

/-- A move destroys the functor that it has made another one of. -/
theorem Lifetimes.move (lifetimes : Lifetimes state) (caller : CallerPoint) {item : Item}
    {place next : Item -> WorkPoint} (leaves : Place place) (enters : Place next) (here : state.work = place item) :
    Lifetimes { state.move item next with caller := caller } := by
  have living : state.work.living = item.functor := by rw [here, leaves.living]
  have waiting : state.work.invoked = false := by rw [here, leaves.waiting]
  have present : state.work ≠ .absent := by
    rw [here]
    exact leaves.present item
  rcases item with ⟨storage, functor⟩
  cases functor with
  | none =>
      rcases lifetimes.gone living with absent | done
      · exact absurd absent present
      · rw [waiting] at done
        cases done
  | some functor =>
      cases storage with
      | heap =>
          have kept := lifetimes.kept caller (nofun : forall event, event ∈ ([] : List Event) -> event = .inFlightInc)
            ((enters.living ⟨.heap, some functor⟩).trans living.symm) ((enters.waiting _).trans waiting.symm)
            ((WorkPoint.ran_eq_false (enters.waiting _)).trans (WorkPoint.ran_eq_false waiting).symm)
            (iff_of_false (enters.present _) present)
          rw [← List.append_nil (state.record ++ [])] at kept
          exact kept
      | inline =>
          have renewed := lifetimes.renewed caller living waiting (enters.living ⟨.inline, some state.made⟩)
            (enters.waiting _) (enters.present _)
          rw [← List.append_nil (state.record ++ _)] at renewed
          exact renewed

theorem lifetimes_step (lifetimes : Lifetimes state) (agrees : Agrees state.caller state.work)
    (step : Step storage state after) : Lifetimes after := by
  have nothing : forall event, event ∈ ([] : List Event) -> event = .inFlightInc := nofun
  cases step with
  | construct starting =>
      rw [starting] at agrees
      have absent : state.work = .absent := agrees
      have unmade := lifetimes.absent.mp absent
      have counts := lifetimes.destroyed
      rw [unmade] at counts
      constructor
      · intro functor
        change (state.record ++ [_]).count _ = if functor < state.made + 1 ∧ some state.made ≠ some functor then 1 else 0
        rw [List.count_append, counts functor, unmade]
        have first : Not (functor < 1 ∧ some 0 ≠ some functor) := by
          rintro ⟨below, other⟩
          have zero : functor = 0 := by omega
          exact other (congrArg some zero.symm)
        rw [if_neg first]
        simp
      · intro functor alive
        change some state.made = some functor at alive
        cases alive
        rfl
      · exact iff_of_false nofun (Nat.succ_ne_zero _)
      · nofun
      · change (state.record ++ [_]).countP _ = 0
        rw [List.countP_append, lifetimes.invoked, absent]
        rfl
      · change (state.record ++ [_]).count _ = 0
        rw [List.count_append, lifetimes.left, absent]
        rfl
  | outOfMemory starting large =>
      have kept := lifetimes.kept .thrown nothing rfl rfl rfl Iff.rfl
      rwa [List.append_nil] at kept
  | moveOffered item here => exact lifetimes.move state.caller place_offered place_offered here
  | enqueued item calling here => exact lifetimes.move (.workAdded true) place_offered place_queued here
  | refused item calling here =>
      exact lifetimes.kept (.workAdded false) nothing (congrArg WorkPoint.living here).symm
        (congrArg WorkPoint.invoked here).symm (congrArg WorkPoint.ran here).symm (by simp [here])
  | workAdded succeeded calling =>
      apply lifetimes.kept (.returned succeeded) _ rfl rfl rfl Iff.rfl
      intro event member
      cases succeeded with
      | false => cases member
      | true => exact List.mem_singleton.mp member
  | moveQueued item here => exact lifetimes.move state.caller place_queued place_queued here
  | dequeued item here => exact lifetimes.move state.caller place_queued place_taken here
  | moveTaken item here => exact lifetimes.move state.caller place_taken place_taken here
  | call item functor here holds =>
      have living : state.work.living = some functor := by
        rw [here]
        exact holds
      have kept := @Lifetimes.kept state lifetimes state.caller [] nothing (.invoke item functor) living.symm
        (congrArg WorkPoint.invoked here).symm (congrArg WorkPoint.ran here).symm (by simp [here])
      rwa [List.append_nil] at kept
  | invoke item functor here =>
      have living : state.work.living = some functor := congrArg WorkPoint.living here
      constructor
      · intro other
        change (state.record ++ [Event.invoke functor]).count _ = if other < state.made ∧ some functor ≠ _ then 1 else 0
        rw [List.count_append, lifetimes.destroyed other, living]
        simp
      · intro other alive
        exact lifetimes.latest other (living.trans alive)
      · have made := lifetimes.absent
        rw [here] at made
        exact iff_of_false nofun (made.not.mp nofun)
      · nofun
      · change (state.record ++ [Event.invoke functor]).countP _ = 1
        rw [List.countP_append, lifetimes.invoked, here]
        rfl
      · change (state.record ++ [Event.invoke functor]).count _ = 0
        rw [List.count_append, lifetimes.left, here]
        rfl
  | destroy item functor here =>
      have living : state.work.living = some functor := congrArg WorkPoint.living here
      have latest := lifetimes.latest functor living
      constructor
      · intro other
        change (state.record ++ [Event.destroy functor]).count _ = if other < state.made ∧ none ≠ some other then 1 else 0
        rw [List.count_append, lifetimes.destroyed other, living]
        by_cases same : other = functor
        · subst same
          have made : other < state.made := by omega
          simp [made]
        · simp [Ne.symm same]
      · nofun
      · have made := lifetimes.absent
        rw [here] at made
        exact iff_of_false nofun (made.not.mp nofun)
      · exact fun _ => Or.inr rfl
      · change (state.record ++ [Event.destroy functor]).countP _ = 1
        rw [List.countP_append, lifetimes.invoked, here]
        rfl
      · change (state.record ++ [Event.destroy functor]).count _ = 0
        rw [List.count_append, lifetimes.left, here]
        rfl
  | leave item here =>
      have living : state.work.living = none := congrArg WorkPoint.living here
      constructor
      · intro other
        change (state.record ++ [Event.inFlightDec]).count _ = if other < state.made ∧ none ≠ some other then 1 else 0
        rw [List.count_append, lifetimes.destroyed other, living]
        simp
      · nofun
      · have made := lifetimes.absent
        rw [here] at made
        exact iff_of_false nofun (made.not.mp nofun)
      · exact fun _ => Or.inr rfl
      · change (state.record ++ [Event.inFlightDec]).countP _ = 1
        rw [List.countP_append, lifetimes.invoked, here]
        rfl
      · change (state.record ++ [Event.inFlightDec]).count _ = 1
        rw [List.count_append, lifetimes.left, here]
        rfl
  | overwritten item here =>
      exact lifetimes.kept state.caller nothing (congrArg WorkPoint.living here).symm
        (congrArg WorkPoint.invoked here).symm (congrArg WorkPoint.ran here).symm (by simp [here])
  | abandoned item here =>
      exact lifetimes.kept state.caller nothing (congrArg WorkPoint.living here).symm
        (congrArg WorkPoint.invoked here).symm (congrArg WorkPoint.ran here).symm (by simp [here])

/-- The item goes on, without the caller. -/
theorem Agrees.moved {caller : CallerPoint} {work next : WorkPoint} (agrees : Agrees caller work)
    (present : work ≠ .absent) (nextPresent : next ≠ .absent)
    (offered : (Exists fun item => work = .offered item) -> Exists fun item => next = .offered item)
    (dropped : (Exists fun item => next = .refused item) ↔ Exists fun item => work = .refused item) :
    Agrees caller next := by
  cases caller with
  | construct => exact absurd agrees present
  | enqueue => exact offered agrees
  | workAdded succeeded => exact ⟨nextPresent, agrees.2.trans dropped.symm⟩
  | returned succeeded => exact ⟨nextPresent, agrees.2.trans dropped.symm⟩
  | thrown => exact absurd agrees present

theorem agrees_step (agrees : Agrees state.caller state.work) (step : Step storage state after) :
    Agrees after.caller after.work := by
  cases step with
  | construct starting => exact ⟨_, rfl⟩
  | outOfMemory starting large =>
      rw [starting] at agrees
      exact agrees
  | enqueued item calling here => exact ⟨nofun, nofun, nofun⟩
  | refused item calling here => exact ⟨nofun, fun _ => ⟨item, rfl⟩, fun _ => rfl⟩
  | workAdded succeeded calling =>
      rw [calling] at agrees
      exact agrees
  | moveOffered item here =>
      exact agrees.moved (by simp [here]) nofun (fun _ => ⟨_, rfl⟩) (by simp [here, State.move])
  | moveQueued item here => exact agrees.moved (by simp [here]) nofun (by simp [here]) (by simp [here, State.move])
  | dequeued item here => exact agrees.moved (by simp [here]) nofun (by simp [here]) (by simp [here, State.move])
  | moveTaken item here => exact agrees.moved (by simp [here]) nofun (by simp [here]) (by simp [here, State.move])
  | call item functor here holds => exact agrees.moved (by simp [here]) nofun (by simp [here]) (by simp [here])
  | invoke item functor here => exact agrees.moved (by simp [here]) nofun (by simp [here]) (by simp [here, State.go])
  | destroy item functor here => exact agrees.moved (by simp [here]) nofun (by simp [here]) (by simp [here, State.go])
  | leave item here => exact agrees.moved (by simp [here]) nofun (by simp [here]) (by simp [here, State.go])
  | overwritten item here => exact agrees.moved (by simp [here]) nofun (by simp [here]) (by simp [here])
  | abandoned item here => exact agrees.moved (by simp [here]) nofun (by simp [here]) (by simp [here])

theorem lifetimes_of_reachable (reachable : (fireSystem storage).Reachable state) :
    Agrees state.caller state.work ∧ Lifetimes state := by
  apply @System.Reachable.invariant _ _ (fun state => Agrees state.caller state.work ∧ Lifetimes state) _ _ _ reachable
  · intro state start
    rw [start]
    refine ⟨rfl, ?_⟩
    constructor
    · intro functor
      rfl
    · nofun
    · exact iff_of_true rfl rfl
    · exact fun _ => Or.inl rfl
    · rfl
    · rfl
  · intro before after _ ⟨agrees, lifetimes⟩ step
    exact ⟨agrees_step agrees step, lifetimes_step lifetimes agrees step⟩

/-! ## The order of events -/

/-- The events of an execution follow each other, for each point inside `operator()`. -/
def InOrder (state : State) : Prop :=
  match state.work with
  | .destroy _ functor => [Event.invoke functor].Sublist state.record
  | .leave _ => Exists fun functor => [Event.invoke functor, .destroy functor].Sublist state.record
  | work => work.ran = true ->
      (Exists fun functor => [Event.invoke functor, .destroy functor, .inFlightDec].Sublist state.record) ∧
      forall functor, functor < state.made -> [Event.destroy functor, .inFlightDec].Sublist state.record

/-- Later events do not disturb the order. -/
theorem InOrder.grown (ordered : InOrder state) (caller : CallerPoint) (more : List Event) :
    InOrder ⟨state.made, state.record ++ more, caller, state.work⟩ := by
  have longer : forall {events : List Event}, events.Sublist state.record -> events.Sublist (state.record ++ more) :=
    fun earlier => earlier.trans (List.sublist_append_left _ _)
  have finished : (state.work.ran = true ->
      (Exists fun functor => [Event.invoke functor, .destroy functor, .inFlightDec].Sublist state.record) ∧
      forall functor, functor < state.made -> [Event.destroy functor, .inFlightDec].Sublist state.record) ->
      state.work.ran = true ->
      (Exists fun functor => [Event.invoke functor, .destroy functor, .inFlightDec].Sublist (state.record ++ more)) ∧
      forall functor, functor < state.made -> [Event.destroy functor, .inFlightDec].Sublist (state.record ++ more) := by
    intro earlier ran
    rcases earlier ran with ⟨⟨functor, order⟩, all⟩
    exact ⟨⟨functor, longer order⟩, fun functor made => longer (all functor made)⟩
  rcases state with ⟨made, record, _, work⟩
  cases work with
  | destroy item functor => exact longer ordered
  | leave item =>
      rcases ordered with ⟨functor, order⟩
      exact ⟨functor, longer order⟩
  | _ => exact finished ordered

theorem inOrder_step (ordered : InOrder state) (lifetimes : Lifetimes state) (step : Step storage state after) :
    InOrder after := by
  cases step with
  | outOfMemory starting large =>
      have grown := ordered.grown .thrown []
      rwa [List.append_nil] at grown
  | workAdded succeeded calling => exact ordered.grown (.returned succeeded) _
  | invoke item functor here => exact List.sublist_append_right _ _
  | destroy item functor here =>
      rw [InOrder, here] at ordered
      exact ⟨functor, List.Sublist.append ordered (.refl [Event.destroy functor])⟩
  | leave item here =>
      rw [InOrder, here] at ordered
      rcases ordered with ⟨functor, order⟩
      intro _
      refine ⟨⟨functor, List.Sublist.append order (.refl [Event.inFlightDec])⟩, ?_⟩
      intro other made
      have counted := lifetimes.destroyed other
      rw [here, if_pos ⟨made, nofun⟩] at counted
      have member : Event.destroy other ∈ state.record := List.count_pos_iff.mp (counted ▸ Nat.one_pos)
      exact List.Sublist.append (List.singleton_sublist.mpr member) (.refl [Event.inFlightDec])
  | overwritten item here =>
      have grown := ordered.grown state.caller []
      rw [InOrder, here] at grown
      exact grown
  | _ => exact fun ran => nomatch ran

theorem inOrder_of_reachable (reachable : (fireSystem storage).Reachable state) : InOrder state := by
  apply reachable.invariant
  · intro state start
    rw [start]
    exact fun ran => nomatch ran
  · intro before after earlier ordered step
    exact inOrder_step ordered (lifetimes_of_reachable earlier).2 step

end Lifetimes

/-- At any time, no functor of a call has been destroyed twice.  When the item
has been run, one of its functors has been invoked, once, and then destroyed, and
all of them had been destroyed when `in_flight_dec` was called.  When the call is
over, each of its functors has been destroyed exactly once if and only if there
never was one, because `new` has thrown, or the item has been run. -/
theorem functor_destroyed_once_iff (storage : Storage) (state : State) (reachable : (fireSystem storage).Reachable state) :
    (forall functor, state.record.count (.destroy functor) ≤ 1) ∧
    (state.work.ran = true ->
      state.record.countP Event.invokes = 1 ∧ state.record.count .inFlightDec = 1 ∧
      (Exists fun functor => [Event.invoke functor, .destroy functor, .inFlightDec].Sublist state.record) ∧
      forall functor, functor < state.made -> [Event.destroy functor, .inFlightDec].Sublist state.record) ∧
    (state.finished ->
      ((forall functor, functor < state.made -> state.record.count (.destroy functor) = 1) ↔
        state.caller = .thrown ∨ state.work.ran = true)) := by
  have ⟨agrees, lifetimes⟩ := lifetimes_of_reachable reachable
  refine ⟨?_, ?_, ?_⟩
  · intro functor
    rw [lifetimes.destroyed functor]
    split <;> decide
  · intro ran
    have ordered := inOrder_of_reachable reachable
    have invoked := lifetimes.invoked
    have left := lifetimes.left
    cases work : state.work with
    | executed item =>
        rw [InOrder, work] at ordered
        rw [work] at invoked left
        exact ⟨invoked, left, ordered rfl⟩
    | overwritten =>
        rw [InOrder, work] at ordered
        rw [work] at invoked left
        exact ⟨invoked, left, ordered rfl⟩
    | _ =>
        rw [work] at ran
        cases ran
  · rintro ⟨ended, settled⟩
    constructor
    · intro all
      by_contra neither
      have returned : state.work ≠ .absent := by
        intro absent
        rcases ended with thrown | ⟨succeeded, returned⟩
        · exact neither (Or.inl thrown)
        · rw [returned] at agrees
          exact agrees.1 absent
      cases living : state.work.living with
      | none =>
          rcases lifetimes.gone living with absent | done
          · exact returned absent
          · exact neither (Or.inr (WorkPoint.ran_of_settled settled done))
      | some functor =>
          have latest := lifetimes.latest functor living
          have counted := lifetimes.destroyed functor
          rw [all functor (by omega), if_neg (fun dead => dead.2 living)] at counted
          cases counted
    · intro gone functor made
      rw [lifetimes.destroyed functor]
      apply if_pos
      refine ⟨made, ?_⟩
      rcases gone with thrown | ran
      · rw [thrown] at agrees
        have absent : state.work = .absent := agrees
        rw [absent]
        exact nofun
      · rw [WorkPoint.living_of_ran ran]
        exact nofun

/-- A small functor, which is moved into the queue and out of it. -/
theorem functor_destroyed_once_iff_small : Exists fun state =>
    (fireSystem .inline).Reachable state ∧ state.made = 3 ∧ state.finished ∧
      (forall functor, functor < 3 -> state.record.count (.destroy functor) = 1) ∧
      [Event.invoke 2, .destroy 2, .inFlightDec].Sublist state.record := by
  have started : (fireSystem .inline).Reachable .start := .initial rfl
  have offered := started.step (.construct rfl)
  have queued := offered.step (.enqueued _ rfl rfl)
  have counted := queued.step (.workAdded true rfl)
  have taken := counted.step (.dequeued _ rfl)
  have called := taken.step (.call _ 2 rfl rfl)
  have invoked := called.step (.invoke _ _ rfl)
  have destroyed := invoked.step (.destroy _ _ rfl)
  have run := destroyed.step (.leave _ rfl)
  have once := functor_destroyed_once_iff .inline _ run
  refine ⟨_, run, rfl, ⟨Or.inr ⟨true, rfl⟩, rfl⟩, ?_, by decide⟩
  exact (once.2.2 ⟨Or.inr ⟨true, rfl⟩, rfl⟩).mpr (Or.inr rfl)

/-- When the queue refuses the item, its functor is never destroyed. -/
theorem refused_functor_leaks : Exists fun state =>
    (fireSystem .heap).Reachable state ∧ state.finished ∧ state.caller = .returned false ∧
      state.made = 1 ∧ state.record.count (.destroy 0) = 0 := by
  have started : (fireSystem .heap).Reachable .start := .initial rfl
  have offered := started.step (.construct rfl)
  have refused := offered.step (.refused _ rfl rfl)
  have returned := refused.step (.workAdded false rfl)
  exact ⟨_, returned, ⟨Or.inr ⟨false, rfl⟩, rfl⟩, rfl, rfl, by decide⟩

end Fire
end Shop
end Sweater
