import Sweater.Interleaving.Reachability
import Mathlib.Logic.Function.Basic

namespace Sweater
namespace Interleaving

/-!
# Objects and the programs that use them

Threads use a shared object by calling its operations.  A program sees when they
are called, when they return and with which result, and nothing of what is done
in between.

An atomic object performs an operation in one step, at some moment between the
call and the return.  If each step of an implementation amounts to such a step,
or to none, then no program can tell the implementation from the atomic object:
whatever state the program comes to with the one, it also comes to with the
other.
-/

variable {Label User State Thread Operation Result Value : Type}

/-! ## Two parties -/

/-- A party of a program: it makes its steps alone, or together with the other
party when they carry a label. -/
structure Party (Label State : Type) where
  initial : State -> Prop
  step : Option Label -> State -> State -> Prop

/-- The steps of a program that uses an object. -/
inductive UseStep (user : Party Label User) (object : Party Label State) : User × State -> User × State -> Prop
  | user {before after state} : user.step none before after -> UseStep user object (before, state) (after, state)
  | object {using_ before after} : object.step none before after -> UseStep user object (using_, before) (using_, after)
  | both {using_ using' before after} (label : Label) :
      user.step (some label) using_ using' -> object.step (some label) before after ->
      UseStep user object (using_, before) (using', after)

def uses (user : Party Label User) (object : Party Label State) : System (User × State) where
  initial := fun state => user.initial state.1 ∧ object.initial state.2
  step := UseStep user object

/-- A party that goes along with everything. -/
def Party.free (Label : Type) : Party Label Unit where
  initial := fun _ => True
  step := fun _ _ _ => True

/-- The silent steps of an object, in a program that uses it. -/
theorem run_object {user : Party Label User} {object : Party Label State} {before after : State}
    (run : Relation.ReflTransGen (object.step none) before after) (using_ : User) :
    Relation.ReflTransGen (UseStep user object) (using_, before) (using_, after) := by
  induction run with
  | refl => exact .refl
  | tail _ step inductionHypothesis => exact inductionHypothesis.tail (.object step)

/-! ## Atomic objects -/

/-- What the threads and an object do together. -/
inductive Event (Thread Operation Result : Type)
  | calls (thread : Thread) (operation : Operation)
  | returns (thread : Thread) (result : Result)

/-- Where a thread is, as far as an object is concerned. -/
inductive Session (Operation Result : Type)
  | outside
  | pending (operation : Operation)
  | answered (result : Result)
  deriving DecidableEq

/-- What the operations of an object do. -/
structure ObjectSpec (Thread Operation Result Value : Type) where
  start : Value
  effect : Thread -> Operation -> Value -> Result -> Value -> Prop

@[ext]
structure AtomicObject (Thread Operation Result Value : Type) where
  value : Value
  sessions : Thread -> Session Operation Result

section Atomic

variable [DecidableEq Thread] (spec : ObjectSpec Thread Operation Result Value)

inductive AtomicStep : Option (Event Thread Operation Result) -> AtomicObject Thread Operation Result Value ->
    AtomicObject Thread Operation Result Value -> Prop
  | calls {value sessions} (thread : Thread) (operation : Operation) :
      sessions thread = .outside ->
      AtomicStep (some (.calls thread operation)) ⟨value, sessions⟩
        ⟨value, Function.update sessions thread (.pending operation)⟩
  | effect {value value' sessions} (thread : Thread) (operation : Operation) (result : Result) :
      sessions thread = .pending operation -> spec.effect thread operation value result value' ->
      AtomicStep none ⟨value, sessions⟩ ⟨value', Function.update sessions thread (.answered result)⟩
  | returns {value sessions} (thread : Thread) (result : Result) :
      sessions thread = .answered result ->
      AtomicStep (some (.returns thread result)) ⟨value, sessions⟩
        ⟨value, Function.update sessions thread .outside⟩

/-- The object, not used yet. -/
def ObjectSpec.atomic : Party (Event Thread Operation Result) (AtomicObject Thread Operation Result Value) where
  initial := fun object => object = ⟨spec.start, fun _ => .outside⟩
  step := AtomicStep spec

end Atomic

/-! ## Implementations -/

/-- How the threads use an implementation. -/
structure Interface (State Thread Operation Result : Type) where
  session : State -> Thread -> Session Operation Result
  /-- the result that a thread gets which returns in a step -/
  result : State -> State -> Thread -> Result

namespace Interface

variable (interface : Interface State Thread Operation Result) (value : State -> Value)

/-- What the threads notice of a step. -/
inductive Shows (before after : State) : Option (Event Thread Operation Result) -> Prop
  | calls (thread : Thread) (operation : Operation) :
      interface.session before thread = .outside -> interface.session after thread = .pending operation ->
      Shows before after (some (.calls thread operation))
  | returns (thread : Thread) :
      interface.session before thread ≠ .outside -> interface.session after thread = .outside ->
      Shows before after (some (.returns thread (interface.result before after thread)))
  | nothing :
      (forall thread, interface.session before thread = .outside ↔ interface.session after thread = .outside) ->
      Shows before after none

/-- The implementation as a program sees it. -/
def party (system : System State) : Party (Event Thread Operation Result) State where
  initial := system.initial
  step := fun event before after => system.step before after ∧ interface.Shows before after event

/-- What a step of a thread amounts to. -/
inductive Performs (spec : ObjectSpec Thread Operation Result Value) (before after : State) (thread : Thread) : Prop
  | pause :
      interface.session after thread = interface.session before thread -> value after = value before ->
      Performs spec before after thread
  | enter (operation : Operation) :
      interface.session before thread = .outside -> interface.session after thread = .pending operation ->
      value after = value before -> Performs spec before after thread
  | effect (operation : Operation) (result : Result) :
      interface.session before thread = .pending operation ->
      spec.effect thread operation (value before) result (value after) ->
      interface.session after thread = .answered result -> Performs spec before after thread
  | leave (result : Result) :
      interface.session before thread = .answered result -> interface.result before after thread = result ->
      interface.session after thread = .outside -> value after = value before -> Performs spec before after thread
  | effectAndLeave (operation : Operation) :
      interface.session before thread = .pending operation ->
      spec.effect thread operation (value before) (interface.result before after thread) (value after) ->
      interface.session after thread = .outside -> Performs spec before after thread

/-- The step is one of a single thread. -/
def Single (spec : ObjectSpec Thread Operation Result Value) (before after : State) : Prop :=
  Exists fun thread => interface.Performs value spec before after thread ∧
    forall other, other ≠ thread -> interface.session after other = interface.session before other

def view (state : State) : AtomicObject Thread Operation Result Value := ⟨value state, interface.session state⟩

variable {interface value} {spec : ObjectSpec Thread Operation Result Value} {before after : State} {thread : Thread}

/-- No step is hidden from the programs. -/
theorem Single.shows (single : interface.Single value spec before after) :
    Exists fun event => interface.Shows before after event := by
  obtain ⟨thread, performs, others⟩ := single
  have same : (interface.session before thread = .outside ↔ interface.session after thread = .outside) ->
      Exists fun event => interface.Shows before after event := by
    intro own
    refine ⟨none, .nothing ?_⟩
    intro other
    by_cases here : other = thread
    · rw [here]
      exact own
    · rw [others other here]
  cases performs with
  | pause own => exact same (by rw [own])
  | enter operation outside pending => exact ⟨_, .calls thread operation outside pending⟩
  | effect operation result pending _ answered =>
      apply same
      rw [pending, answered]
      exact ⟨nofun, nofun⟩
  | leave result answered _ outside => exact ⟨_, .returns thread (by rw [answered]; exact nofun) outside⟩
  | effectAndLeave operation pending _ outside => exact ⟨_, .returns thread (by rw [pending]; exact nofun) outside⟩

section Shown

variable (others : forall other, other ≠ thread -> interface.session after other = interface.session before other)
  {event : Option (Event Thread Operation Result)} (shown : interface.Shows before after event)

include others shown

theorem shown_calls {operation : Operation} (outside : interface.session before thread = .outside)
    (pending : interface.session after thread = .pending operation) : event = some (.calls thread operation) := by
  cases shown with
  | calls other asked outside' pending' =>
      by_cases same : other = thread
      · subst same
        cases pending.symm.trans pending'
        rfl
      · rw [others other same, outside'] at pending'
        cases pending'
  | returns other inside outside' =>
      by_cases same : other = thread
      · rw [same] at inside
        exact absurd outside inside
      · rw [others other same] at outside'
        exact absurd outside' inside
  | nothing same => cases pending.symm.trans ((same thread).mp outside)

theorem shown_returns (inside : interface.session before thread ≠ .outside)
    (outside : interface.session after thread = .outside) :
    event = some (.returns thread (interface.result before after thread)) := by
  cases shown with
  | calls other asked outside' pending' =>
      by_cases same : other = thread
      · rw [same] at outside'
        exact absurd outside' inside
      · rw [others other same, outside'] at pending'
        cases pending'
  | returns other inside' outside' =>
      by_cases same : other = thread
      · rw [same]
      · rw [others other same] at outside'
        exact absurd outside' inside'
  | nothing same => exact absurd ((same thread).mpr outside) inside

theorem shown_nothing
    (own : interface.session before thread = .outside ↔ interface.session after thread = .outside) : event = none := by
  cases shown with
  | calls other asked outside' pending' =>
      by_cases same : other = thread
      · rw [same] at outside' pending'
        cases pending'.symm.trans (own.mp outside')
      · rw [others other same, outside'] at pending'
        cases pending'
  | returns other inside' outside' =>
      by_cases same : other = thread
      · rw [same] at inside' outside'
        exact absurd (own.mpr outside') inside'
      · rw [others other same] at outside'
        exact absurd outside' inside'
  | nothing => rfl

end Shown

/-! ## Threads at program points -/

section Points

variable {Point : Type} {points : State -> Thread -> Point} {session : Point -> Session Operation Result}
  {result : State -> State -> Thread -> Result} {here next : Point}

/-- The point that a thread is at tells where it is. -/
def atPoints (points : State -> Thread -> Point) (session : Point -> Session Operation Result)
    (result : State -> State -> Thread -> Result) : Interface State Thread Operation Result where
  session := fun state thread => session (points state thread)
  result := result

/-- A thread goes on, and the others stay where they are, or get on without
having their effect. -/
theorem Single.of_points (place : points before thread = here) (own : points after thread = next)
    (others : forall other, other ≠ thread -> session (points after other) = session (points before other))
    (performs : (atPoints points session result).session before thread = session here ->
      (atPoints points session result).session after thread = session next ->
      (atPoints points session result).Performs value spec before after thread) :
    (atPoints points session result).Single value spec before after :=
  ⟨thread, performs (congrArg session place) (congrArg session own), others⟩

theorem Single.of_update [DecidableEq Thread] (place : points before thread = here)
    (moved : points after = Function.update (points before) thread next)
    (performs : (atPoints points session result).session before thread = session here ->
      (atPoints points session result).session after thread = session next ->
      (atPoints points session result).Performs value spec before after thread) :
    (atPoints points session result).Single value spec before after := by
  refine Single.of_points place ?_ ?_ performs
  · rw [moved, Function.update_self]
  · intro other different
    rw [moved, Function.update_of_ne different]

end Points

variable [DecidableEq Thread]

theorem session_update (others : forall other, other ≠ thread -> interface.session after other = interface.session before other)
    {session : Session Operation Result} (own : interface.session after thread = session) :
    interface.session after = Function.update (interface.session before) thread session := by
  funext other
  by_cases same : other = thread
  · rw [same, own, Function.update_self]
  · rw [others other same, Function.update_of_ne same]

/-- A step is a run of the atomic object that shows the same. -/
theorem Single.run (single : interface.Single value spec before after) {event : Option (Event Thread Operation Result)}
    (shown : interface.Shows before after event) :
    Exists fun middle => Relation.ReflTransGen (spec.atomic.step none) (interface.view value before) middle ∧
      ((event = none ∧ middle = interface.view value after) ∨
        Exists fun label => event = some label ∧ spec.atomic.step (some label) middle (interface.view value after)) := by
  obtain ⟨thread, performs, others⟩ := single
  have sessions {session : Session Operation Result} (own : interface.session after thread = session) :=
    session_update others own
  cases performs with
  | pause own same =>
      refine ⟨_, .refl, Or.inl ⟨shown_nothing others shown (by rw [own]), ?_⟩⟩
      rw [view, view, same, sessions own, Function.update_eq_self]
  | enter operation outside pending same =>
      refine ⟨_, .refl, Or.inr ⟨_, shown_calls others shown outside pending, ?_⟩⟩
      rw [view, view, same, sessions pending]
      exact .calls thread operation outside
  | effect operation result pending effect answered =>
      have silent : event = none := shown_nothing others shown (by rw [pending, answered]; exact ⟨nofun, nofun⟩)
      refine ⟨_, .single ?_, Or.inl ⟨silent, rfl⟩⟩
      rw [view, view, sessions answered]
      exact .effect thread operation result pending effect
  | leave result answered same outside kept =>
      have returned := shown_returns others shown (by rw [answered]; exact nofun) outside
      refine ⟨_, .refl, Or.inr ⟨_, returned, ?_⟩⟩
      rw [view, view, kept, sessions outside, same]
      exact .returns thread result answered
  | effectAndLeave operation pending effect outside =>
      have returned := shown_returns others shown (by rw [pending]; exact nofun) outside
      refine ⟨_, .single (.effect thread operation _ pending effect), Or.inr ⟨_, returned, ?_⟩⟩
      have again : Function.update (interface.session before) thread .outside =
          Function.update (Function.update (interface.session before) thread
            (.answered (interface.result before after thread))) thread .outside := (Function.update_idem _ _ _).symm
      rw [view, sessions outside, again]
      exact .returns thread _ (Function.update_self _ _ _)

/-! ## Programs do not notice -/

variable {system : System State} {inside : State -> Prop} {user : Party (Event Thread Operation Result) User}

omit [DecidableEq Thread] in
theorem reachable_of_uses {state : User × State}
    (reachable : ((uses user (interface.party system)).within fun state => inside state.2).Reachable state) :
    (system.within inside).Reachable state.2 := by
  induction reachable with
  | initial start => exact .initial ⟨start.1.2, start.2⟩
  | step _ move inductionHypothesis =>
      obtain ⟨use, within⟩ := move
      cases use with
      | user => exact inductionHypothesis
      | object step => exact .step inductionHypothesis ⟨step.1, within⟩
      | both _ _ step => exact .step inductionHypothesis ⟨step.1, within⟩

omit [DecidableEq Thread] in
/-- Every run is one that some program makes. -/
theorem uses_free (steps : forall before after, (system.within inside).Reachable before -> system.step before after ->
      inside after -> interface.Single value spec before after) {state : State}
    (reachable : (system.within inside).Reachable state) :
    ((uses (Party.free _) (interface.party system)).within fun state => inside state.2).Reachable ((), state) := by
  induction reachable with
  | initial start => exact .initial ⟨⟨trivial, start.1⟩, start.2⟩
  | step reached move inductionHypothesis =>
      obtain ⟨step, within⟩ := move
      obtain ⟨event, shown⟩ := (steps _ _ reached step within).shows
      refine .step inductionHypothesis ⟨?_, within⟩
      cases event with
      | none => exact .object ⟨step, shown⟩
      | some label => exact .both label trivial ⟨step, shown⟩

/-- The atomic object may take the place of an implementation whose steps amount
to its steps. -/
theorem uses_atomic (start : forall state, system.initial state -> interface.view value state = ⟨spec.start, fun _ => .outside⟩)
    (steps : forall before after, (system.within inside).Reachable before -> system.step before after -> inside after ->
      interface.Single value spec before after)
    {state : User × State}
    (reachable : ((uses user (interface.party system)).within fun state => inside state.2).Reachable state) :
    (uses user spec.atomic).Reachable (state.1, interface.view value state.2) := by
  apply reachable.simulates_by_runs fun state => (state.1, interface.view value state.2)
  · intro state first
    exact ⟨first.1.1, start state.2 first.1.2⟩
  · rintro before after reached ⟨use, within⟩
    have earlier := reachable_of_uses reached
    cases use with
    | user step => exact .single (.user step)
    | object step =>
        obtain ⟨middle, run, (⟨_, rfl⟩ | ⟨label, never, _⟩)⟩ := (steps _ _ earlier step.1 within).run step.2
        · exact run_object run _
        · cases never
    | both label users step =>
        obtain ⟨middle, run, (⟨never, _⟩ | ⟨_, same, loud⟩)⟩ := (steps _ _ earlier step.1 within).run step.2
        · cases never
        · cases same
          exact (run_object run _).tail (.both label users loud)

end Interface

end Interleaving
end Sweater
