import Sweater.Interleaving.Reachability

namespace Sweater
namespace Threading

open Interleaving

/-!
# The hand-over of a functor to a new thread

`thread::operator=` gives a functor that does not fit into a pointer to the new
thread through a `synchronized_invocation` on its own stack.  The destructor of
that object waits for `functor_copied_`, with the mutex that its constructor has
locked.  The child never locks this mutex: it sets the flag and notifies at any
time.  Neither does the destructor know whether there is a child at all.
-/

/-- Where the parent is inside `operator=`. -/
inductive ParentPoint
  /-- before the constructor of `synchronized_invocation` -/
  | construct
  /-- before `thread_impl::create` -/
  | create
  /-- the child is there, and `thread_impl::create` has not returned yet -/
  | created
  /-- at the head of the loop in the destructor -/
  | check
  /-- `functor_copied_` was seen unset, before `event_.wait( lock_ )` -/
  | wait
  /-- inside `event_.wait( lock_ )`, without the mutex -/
  | blocked
  /-- woken up, before the mutex is locked again -/
  | woken
  /-- after the loop, before the members are destroyed -/
  | tearDown
  /-- the object is destroyed, and `operator=` has not been left -/
  | leave
  /-- back in the caller, which has destroyed its functor -/
  | left
  deriving DecidableEq, Repr

/-- Where the child is inside its start routine. -/
inductive ChildPoint
  | absent
  /-- before its functor is constructed from the parent's -/
  | move
  /-- before `functor_copied_ = true` -/
  | store
  /-- before `event_.notify_one()` -/
  | notify
  /-- calling its own functor -/
  | run
  deriving DecidableEq, Repr

/-- The child uses the `synchronized_invocation` in its next step. -/
def ChildPoint.UsesContext : ChildPoint -> Prop
  | move | store | notify => True
  | absent | run => False

structure HandoverState where
  parent : ParentPoint
  child : ChildPoint
  functorCopied : Bool
  /-- the parent holds `mutex_` -/
  locked : Bool
  /-- the `synchronized_invocation` exists -/
  contextAlive : Bool
  /-- the parent's functor exists -/
  functorAlive : Bool
  /-- the parent's functor has been moved from -/
  functorMoved : Bool
  deriving DecidableEq, Repr

namespace HandoverState

/-- The call of `operator=`. -/
def calling : HandoverState where
  parent := .construct
  child := .absent
  functorCopied := false
  locked := false
  contextAlive := false
  functorAlive := true
  functorMoved := false

end HandoverState

open HandoverState

/-- One step of the parent or of the child. -/
inductive HandoverStep : HandoverState -> HandoverState -> Prop
  | construct {state} : state.parent = .construct ->
      HandoverStep state { state with parent := .create, functorCopied := false, locked := true, contextAlive := true }
  | spawn {state} : state.parent = .create ->
      HandoverStep state { state with parent := .created, child := .move }
  /-- `create` throws, and the destructor is run by the unwinding. -/
  | refuse {state} : state.parent = .create -> HandoverStep state { state with parent := .check }
  | createReturns {state} : state.parent = .created -> HandoverStep state { state with parent := .check }
  | checkCopied {state} : state.parent = .check -> state.functorCopied = true ->
      HandoverStep state { state with parent := .tearDown }
  | checkAgain {state} : state.parent = .check -> state.functorCopied = false ->
      HandoverStep state { state with parent := .wait }
  | block {state} : state.parent = .wait -> HandoverStep state { state with parent := .blocked, locked := false }
  | relock {state} : state.parent = .woken -> state.locked = false ->
      HandoverStep state { state with parent := .check, locked := true }
  | tearDown {state} : state.parent = .tearDown ->
      HandoverStep state { state with parent := .leave, locked := false, contextAlive := false }
  | leave {state} : state.parent = .leave -> HandoverStep state { state with parent := .left, functorAlive := false }
  | move {state} : state.child = .move -> HandoverStep state { state with child := .store, functorMoved := true }
  | store {state} : state.child = .store -> HandoverStep state { state with child := .notify, functorCopied := true }
  | notifyBlocked {state} : state.child = .notify -> state.parent = .blocked ->
      HandoverStep state { state with parent := .woken, child := .run }
  | notifyNobody {state} : state.child = .notify -> state.parent ≠ .blocked ->
      HandoverStep state { state with child := .run }

/-- The condition variable wakes the parent without a notification. -/
def SpuriousWake (before after : HandoverState) : Prop :=
  before.parent = .blocked ∧ after = { before with parent := .woken }

def startHandover : System HandoverState where
  initial := fun state => state = calling
  step := fun before after => HandoverStep before after ∨ SpuriousWake before after

/-- Without the spurious wake-ups, on which nobody can rely. -/
def unaided : System HandoverState where
  initial := fun state => state = calling
  step := HandoverStep

/-- Some remaining step can wake the parent. -/
def Wakeable (state : HandoverState) : Prop :=
  Exists fun later => unaided.Continues state later ∧ later.parent = .woken

/-- What the hand-over promises of a state. -/
structure Sound (state : HandoverState) : Prop where
  movedFirst : state.functorAlive = false -> state.functorMoved = true
  usable : state.child.UsesContext -> state.contextAlive = true
  wakeable : state.parent = .blocked -> Wakeable state

/-- The creation succeeds, the child does not notify between the parent's look
at `functor_copied_` and its wait, and the parent does not see the flag before
the child has notified. -/
structure InTime (before after : HandoverState) : Prop where
  created : before.parent = .create -> after.child ≠ .absent
  noticed : before.child = .notify -> after.child = .run -> before.parent ≠ .wait
  notified : before.parent = .check -> after.parent = .tearDown -> before.child ≠ .notify

/-! ## The wake-up -/

theorem wakeable_of_notify {state : HandoverState} (blocked : state.parent = .blocked) (notifies : state.child = .notify) :
    Wakeable state :=
  ⟨_, .single (.notifyBlocked notifies blocked), rfl⟩

theorem wakeable_of_step {state next : HandoverState} (move : HandoverStep state next) (wakeable : Wakeable next) :
    Wakeable state := by
  obtain ⟨later, continues, woken⟩ := wakeable
  exact ⟨later, .head move continues, woken⟩

/-- A child that has not notified yet wakes the parent. -/
theorem wakeable_of_usesContext {state : HandoverState} (blocked : state.parent = .blocked)
    (uses : state.child.UsesContext) : Wakeable state := by
  have ofStore : forall {state : HandoverState}, state.parent = .blocked -> state.child = .store -> Wakeable state :=
    fun blocked stores => wakeable_of_step (.store stores) (wakeable_of_notify blocked rfl)
  cases child : state.child with
  | move => exact wakeable_of_step (.move child) (ofStore blocked rfl)
  | store => exact ofStore blocked child
  | notify => exact wakeable_of_notify blocked child
  | absent | run =>
      rw [child] at uses
      exact absurd uses id

/-- Once the child has notified, or without a child, nothing moves any more. -/
theorem stuck {state next : HandoverState} (blocked : state.parent = .blocked) (silent : ¬state.child.UsesContext) :
    ¬HandoverStep state next := by
  intro move
  cases move with
  | construct place | spawn place | refuse place | createReturns place | checkCopied place | checkAgain place
  | block place | relock place | tearDown place | leave place =>
      rw [blocked] at place
      cases place
  | move place | store place | notifyBlocked place | notifyNobody place =>
      rw [place] at silent
      exact silent trivial

/-- Exactly a child that has still to notify can wake the parent. -/
theorem wakeable_iff {state : HandoverState} (blocked : state.parent = .blocked) :
    Wakeable state ↔ state.child.UsesContext := by
  constructor
  · rintro ⟨later, continues, woken⟩
    refine Classical.byContradiction ?_
    intro silent
    rcases continues.cases_head with same | ⟨next, move, _⟩
    · rw [← same, blocked] at woken
      cases woken
    · exact stuck blocked silent move
  · exact wakeable_of_usesContext blocked

/-! ## Runs in time -/

/-- The parent is between the creation and the end of its wait. -/
def ParentPoint.Awaits : ParentPoint -> Prop
  | created | check | wait | blocked | woken => True
  | _ => False

/-- The parent has seen the flag. -/
def ParentPoint.Satisfied : ParentPoint -> Prop
  | tearDown | leave | left => True
  | _ => False

structure Handed (state : HandoverState) : Prop where
  copied : state.functorCopied = true ↔ state.child = .notify ∨ state.child = .run
  told : state.child = .run -> state.parent ≠ .wait ∧ state.parent ≠ .blocked
  moved : state.child = .absent ∨ state.child = .move ∨ state.functorMoved = true
  awaited : state.parent.Awaits -> state.child ≠ .absent
  satisfied : state.parent.Satisfied -> state.child = .run
  alive : state.contextAlive = true ∨ state.parent = .construct ∨ state.parent.Satisfied
  unborn : state.parent = .construct ∨ state.parent = .create -> state.child = .absent
  functor : state.functorAlive = true ∨ state.parent = .left

theorem handed_calling : Handed calling := by
  constructor <;> simp [calling, ParentPoint.Awaits, ParentPoint.Satisfied]

theorem Handed.step {before after : HandoverState} (handed : Handed before) (move : HandoverStep before after)
    (inTime : InTime before after) : Handed after := by
  obtain ⟨copied, told, moved, awaited, satisfied, alive, unborn, functor⟩ := handed
  cases move with
  | construct place | spawn place | createReturns place | block place | relock place | tearDown place | leave place
  | move place | store place | checkAgain place unset | notifyBlocked place blocked =>
      constructor <;> grind [ParentPoint.Awaits, ParentPoint.Satisfied]
  | refuse place => exact absurd (unborn (Or.inr place)) (inTime.created place)
  | checkCopied place set =>
      have early := inTime.notified place rfl
      constructor <;> grind [ParentPoint.Awaits, ParentPoint.Satisfied]
  | notifyNobody place elsewhere =>
      have early := inTime.noticed place rfl
      constructor <;> grind [ParentPoint.Awaits, ParentPoint.Satisfied]

/-- A spurious wake-up changes nothing that matters. -/
theorem Handed.spurious {before after : HandoverState} (handed : Handed before) (wakes : SpuriousWake before after) :
    Handed after := by
  obtain ⟨blocked, rfl⟩ := wakes
  obtain ⟨copied, told, moved, awaited, satisfied, alive, unborn, functor⟩ := handed
  constructor <;> grind [ParentPoint.Awaits, ParentPoint.Satisfied]

theorem handed_of_reachable {state : HandoverState} (reachable : (startHandover.stepsWhere InTime).Reachable state) :
    Handed state := by
  refine reachable.invariant ?_ ?_
  · rintro state rfl
    exact handed_calling
  · rintro before after _ handed ⟨move | wakes, inTime⟩
    · exact handed.step move inTime
    · exact handed.spurious wakes

theorem Handed.sound {state : HandoverState} (handed : Handed state) : Sound state where
  movedFirst := by
    intro dropped
    rcases handed.functor with there | left
    · rw [dropped] at there
      cases there
    · have runs := handed.satisfied (by rw [left]; trivial)
      rcases handed.moved with absent | moves | moved
      · rw [runs] at absent
        cases absent
      · rw [runs] at moves
        cases moves
      · exact moved
  usable := by
    intro uses
    rcases handed.alive with alive | early | satisfied
    · exact alive
    · rw [handed.unborn (Or.inl early)] at uses
      exact absurd uses id
    · rw [handed.satisfied satisfied] at uses
      exact absurd uses id
  wakeable := by
    intro blocked
    refine wakeable_of_usesContext blocked ?_
    cases child : state.child with
    | absent => exact absurd child (handed.awaited (by rw [blocked]; trivial))
    | run => exact absurd blocked (handed.told child).2
    | move | store | notify => trivial

/-! ## Steps that are too late or too early -/

/-- Blocked without anybody left to notify. -/
theorem unsound_of_silent {state : HandoverState} (blocked : state.parent = .blocked)
    (silent : ¬state.child.UsesContext) : ¬Sound state := by
  intro sound
  exact silent ((wakeable_iff blocked).mp (sound.wakeable blocked))

theorem untimely {before after : HandoverState} (late : ¬InTime before after) :
    (before.parent = .create ∧ after.child = .absent) ∨
      (before.child = .notify ∧ after.child = .run ∧ before.parent = .wait) ∨
      (before.parent = .check ∧ after.parent = .tearDown ∧ before.child = .notify) := by
  by_cases refused : before.parent = .create ∧ after.child = .absent
  · exact Or.inl refused
  by_cases lost : before.child = .notify ∧ after.child = .run ∧ before.parent = .wait
  · exact Or.inr (Or.inl lost)
  refine Or.inr (Or.inr ?_)
  refine Classical.byContradiction ?_
  intro unused
  refine late ⟨?_, ?_, ?_⟩
  · exact fun creates absent => refused ⟨creates, absent⟩
  · exact fun notifies runs waits => lost ⟨notifies, runs, waits⟩
  · exact fun checks leaves notifies => unused ⟨checks, leaves, notifies⟩

/-- Every step that is not in time can end in an unsound state. -/
theorem unsound_of_untimely {before after : HandoverState} (handed : Handed before) (move : HandoverStep before after)
    (late : ¬InTime before after) : Exists fun later => startHandover.Continues after later ∧ ¬Sound later := by
  rcases untimely late with ⟨creates, absent⟩ | ⟨notifies, runs, waits⟩ | ⟨checks, leaves, notifies⟩
  · have unborn := handed.unborn (Or.inr creates)
    cases move with
    | refuse place =>
        have unset : before.functorCopied = false := by
          refine Bool.eq_false_iff.mpr ?_
          intro set
          rcases handed.copied.mp set with notifies | runs
          · rw [unborn] at notifies
            cases notifies
          · rw [unborn] at runs
            cases runs
        refine ⟨_, .head (Or.inl (.checkAgain rfl unset)) (.single (Or.inl (.block rfl))), ?_⟩
        refine unsound_of_silent rfl ?_
        change ¬before.child.UsesContext
        rw [unborn]
        exact id
    | spawn place => cases absent
    | construct place | createReturns place | checkCopied place | checkAgain place | block place | relock place
    | tearDown place | leave place =>
        rw [creates] at place
        cases place
    | move place | store place | notifyBlocked place | notifyNobody place =>
        rw [unborn] at place
        cases place
  · cases move with
    | notifyNobody place elsewhere =>
        exact ⟨_, .single (Or.inl (.block waits)), unsound_of_silent rfl id⟩
    | notifyBlocked place blocked =>
        rw [waits] at blocked
        cases blocked
    | spawn place | move place | store place => cases runs
    | construct place | refuse place | createReturns place | checkCopied place | checkAgain place | block place
    | relock place | tearDown place | leave place =>
        change before.child = .run at runs
        rw [notifies] at runs
        cases runs
  · cases move with
    | checkCopied place set =>
        refine ⟨_, .single (Or.inl (.tearDown rfl)), ?_⟩
        intro sound
        have usable := sound.usable
        change before.child.UsesContext -> false = true at usable
        rw [notifies] at usable
        exact Bool.false_ne_true (usable trivial)
    | construct place | spawn place | refuse place | createReturns place | checkAgain place | block place
    | relock place | tearDown place | leave place | notifyBlocked place => cases leaves
    | move place | store place | notifyNobody place =>
        change before.parent = .tearDown at leaves
        rw [checks] at leaves
        cases leaves

/-- The hand-over is sound as long as every step comes in time, and after the
first step that does not, it can become unsound. -/
theorem handover_sound_in_time (state : HandoverState) (reachable : (startHandover.stepsWhere InTime).Reachable state) :
    Sound state ∧ forall after, HandoverStep state after -> ¬InTime state after ->
      Exists fun later => startHandover.Continues after later ∧ ¬Sound later :=
  ⟨(handed_of_reachable reachable).sound, fun _ move late => unsound_of_untimely (handed_of_reachable reachable) move late⟩

/-- The parent waits for a child that has not moved the functor yet. -/
theorem handover_sound_in_time_blocked : Exists fun state =>
    (startHandover.stepsWhere InTime).Reachable state ∧ state.parent = .blocked ∧ Wakeable state := by
  have start : (startHandover.stepsWhere InTime).Reachable calling := .initial rfl
  have creates := start.step ⟨Or.inl (.construct rfl), ⟨nofun, nofun, nofun⟩⟩
  have spawns := creates.step ⟨Or.inl (.spawn rfl), ⟨fun _ => nofun, nofun, nofun⟩⟩
  have returns := spawns.step ⟨Or.inl (.createReturns rfl), ⟨nofun, nofun, nofun⟩⟩
  have looks := returns.step ⟨Or.inl (.checkAgain rfl rfl), ⟨nofun, nofun, fun _ => nofun⟩⟩
  have blocks := looks.step ⟨Or.inl (.block rfl), ⟨nofun, nofun, nofun⟩⟩
  exact ⟨_, blocks, rfl, (handover_sound_in_time _ blocks).1.wakeable rfl⟩

/-- The notification comes between the parent's look at the flag and its wait:
the parent stays blocked for ever beside a running child. -/
theorem handover_misses_notification :
    Exists fun state => startHandover.Reachable state ∧ state.parent = .blocked ∧ state.child = .run ∧
      state.functorCopied = true ∧ ¬Wakeable state := by
  have advance : forall {before after : HandoverState}, startHandover.Reachable before -> HandoverStep before after ->
      startHandover.Reachable after := fun reachable move => .step reachable (Or.inl move)
  have start : startHandover.Reachable calling := .initial rfl
  have spawns := advance (advance start (.construct rfl)) (.spawn rfl)
  have looks := advance (advance spawns (.createReturns rfl)) (.checkAgain rfl rfl)
  have stores := advance (advance looks (.move rfl)) (.store rfl)
  have notifies := advance stores (.notifyNobody rfl (by decide))
  have blocks := advance notifies (.block rfl)
  exact ⟨_, blocks, rfl, rfl, rfl, fun wakeable => (wakeable_iff rfl).mp wakeable⟩

end Threading
end Sweater
