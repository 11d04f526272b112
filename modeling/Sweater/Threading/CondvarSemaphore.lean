import Sweater.Interleaving.Reachability
import Sweater.Interleaving.Census
import Mathlib.Tactic.FinCases

namespace Sweater
namespace Threading

open Interleaving

/-!
# The condition variable semaphore

`generic_semaphore.cpp` keeps the tokens in the atomic `value_` and hands those
that indebted waiters need to `to_release_`, behind a mutex.  With exact worker
selection every signal that does not find a positive value hands over one
token; without it, a signal hands over no more than the debt that it finds.

What is done under the mutex is one step, except that the sections of a waiter
are cut where `waiters_` changes, since a signaler reads it after unlocking too.
The words are integers here.  A run of this semaphore is a run of the source as
long as `InRange` holds, that is while no word leaves the type that the source
gives it and no cast of the source loses anything.
-/

/-- Where a thread is inside `signal`, `wait()` or `wait( spin_count )`. -/
inductive CondvarPoint
  /-- outside every operation -/
  | idle
  /-- before `value_.fetch_add( count )` -/
  | signalAdd (count : Nat)
  /-- before the section that adds to `to_release_` -/
  | signalRelease (toRelease : Nat)
  /-- after the section, before `to_wake < waiters_` -/
  | signalCompare (toWake : Nat)
  /-- before `notify_one()`, with that many of them to go -/
  | notifyOne (remaining : Nat)
  /-- before `notify_all()` -/
  | notifyAll
  /-- before the first load of `value_` in `wait( spin_count )` -/
  | spinLoad (spinCount : Nat)
  /-- in the spin loop: before the exchange if `value > 0`, else before the reload -/
  | spin (spinCount spinTry : Nat) (value : Int)
  /-- before `value_.fetch_sub( 1 )` -/
  | waitSubtract
  /-- before the lock -/
  | waitLock
  /-- holding the mutex, before the guard `to_release_ == 0` -/
  | waitCheck
  /-- in `condition_.wait( lock )`, without the mutex -/
  | asleep
  /-- woken up, before the mutex is locked again -/
  | awake
  /-- holding the mutex and a token, before `--waiters_` -/
  | waitLeave
  deriving DecidableEq, Repr

namespace CondvarPoint

/-- The loop head of `wait( spin_count )`. -/
def spinHead (spinCount spinTry : Nat) (value : Int) : CondvarPoint :=
  if spinTry < spinCount then spin spinCount spinTry value else waitSubtract

/-- The loop head of the `notify_one` loop. -/
def notifyHead (remaining : Nat) : CondvarPoint :=
  if remaining = 0 then idle else notifyOne remaining

/-- The count that a signal is still to add. -/
def signalling : CondvarPoint -> Nat
  | signalAdd count => count
  | _ => 0

/-- Inside `wait()` or `wait( spin_count )`. -/
def waiting : CondvarPoint -> Nat
  | spinLoad _ | spin _ _ _ | waitSubtract | waitLock | waitCheck | asleep | awake | waitLeave => 1
  | _ => 0

end CondvarPoint

/-- The semaphore and the threads using it.  The last two fields are recorded
for the statements only. -/
structure CondvarState (Thread : Type) where
  value : Int
  waiters : Nat
  toRelease : Nat
  /-- the thread that holds `mutex_` -/
  mutex : Option Thread
  points : Thread -> CondvarPoint
  /-- the sum of the counts signalled so far -/
  signalled : Nat
  /-- the waits that have returned -/
  completed : Nat

namespace CondvarState

variable {Thread : Type}

/-- `value_` is a `std::int32_t`.  `waiters_`, `to_release_`, the count of a signal
and the debt that `signal` casts are `hardware_concurrency_t`, of `bits` bits. -/
structure InRange (bits : Nat) (state : CondvarState Thread) : Prop where
  valueSigned : -2 ^ 31 ≤ state.value ∧ state.value < 2 ^ 31
  debtCounted : -state.value < 2 ^ bits
  waitersCounted : state.waiters < 2 ^ bits
  releaseCounted : state.toRelease < 2 ^ bits
  signalsCounted : forall thread, (state.points thread).signalling < 2 ^ bits

def goto [DecidableEq Thread] (state : CondvarState Thread) (thread : Thread) (point : CondvarPoint) :
    CondvarState Thread :=
  { state with points := Function.update state.points thread point }

/-- What a signal hands over that has not found a positive value. -/
def handedOver (exactSelection : Bool) (oldValue : Int) (count : Nat) : Nat :=
  if exactSelection then 1 else min (-oldValue).toNat count

/-- Where a signal goes on after its section. -/
def afterRelease (exactSelection : Bool) (waiters toRelease : Nat) : CondvarPoint :=
  if waiters = 0 then .idle
  else if exactSelection then .notifyOne 1
  else .signalCompare toRelease

/-- The wake-up of all threads that sleep. -/
def wakeAll (state : CondvarState Thread) : CondvarState Thread :=
  { state with points := fun thread => if state.points thread = .asleep then .awake else state.points thread }

/-- A freshly constructed semaphore that no thread uses yet. -/
def fresh : CondvarState Thread where
  value := 0
  waiters := 0
  toRelease := 0
  mutex := none
  points := fun _ => .idle
  signalled := 0
  completed := 0

end CondvarState

open CondvarState CondvarPoint

section Steps

variable {Thread : Type} [DecidableEq Thread]

/-- One atomic step of some thread. -/
inductive CondvarStep (exactSelection : Bool) : CondvarState Thread -> CondvarState Thread -> Prop
  /-- With exact worker selection the count is assumed to be one. -/
  | callSignal {state} (thread : Thread) (count : Nat) :
      state.points thread = .idle -> (exactSelection = true -> count = 1) ->
      CondvarStep exactSelection state (state.goto thread (.signalAdd count))
  | callWait {state} (thread : Thread) :
      state.points thread = .idle -> CondvarStep exactSelection state (state.goto thread .waitSubtract)
  | callSpinWait {state} (thread : Thread) (spinCount : Nat) :
      state.points thread = .idle -> CondvarStep exactSelection state (state.goto thread (.spinLoad spinCount))
  | addPaid {state} (thread : Thread) (count : Nat) :
      state.points thread = .signalAdd count -> 0 < state.value ->
      CondvarStep exactSelection state
        { state.goto thread .idle with
          value := state.value + count
          signalled := state.signalled + count }
  | addShort {state} (thread : Thread) (count : Nat) :
      state.points thread = .signalAdd count -> state.value ≤ 0 ->
      CondvarStep exactSelection state
        { state.goto thread (.signalRelease (handedOver exactSelection state.value count)) with
          value := state.value + count
          signalled := state.signalled + count }
  | release {state} (thread : Thread) (toRelease : Nat) :
      state.points thread = .signalRelease toRelease -> state.mutex = none ->
      CondvarStep exactSelection state
        { state.goto thread (afterRelease exactSelection state.waiters toRelease) with
          toRelease := state.toRelease + toRelease }
  | compareFew {state} (thread : Thread) (toWake : Nat) :
      state.points thread = .signalCompare toWake -> toWake < state.waiters ->
      CondvarStep exactSelection state (state.goto thread (.notifyHead toWake))
  | compareAll {state} (thread : Thread) (toWake : Nat) :
      state.points thread = .signalCompare toWake -> state.waiters ≤ toWake ->
      CondvarStep exactSelection state (state.goto thread .notifyAll)
  | notifySleeper {state} (thread sleeper : Thread) (remaining : Nat) :
      state.points thread = .notifyOne remaining -> state.points sleeper = .asleep ->
      CondvarStep exactSelection state ((state.goto sleeper .awake).goto thread (.notifyHead (remaining - 1)))
  | notifyNobody {state} (thread : Thread) (remaining : Nat) :
      state.points thread = .notifyOne remaining -> (forall sleeper, state.points sleeper ≠ .asleep) ->
      CondvarStep exactSelection state (state.goto thread (.notifyHead (remaining - 1)))
  | notifyAll {state} (thread : Thread) :
      state.points thread = .notifyAll -> CondvarStep exactSelection state (state.wakeAll.goto thread .idle)
  | spinBegin {state} (thread : Thread) (spinCount : Nat) :
      state.points thread = .spinLoad spinCount ->
      CondvarStep exactSelection state (state.goto thread (.spinHead spinCount 0 state.value))
  | spinReload {state} (thread : Thread) (spinCount spinTry : Nat) (value : Int) :
      state.points thread = .spin spinCount spinTry value -> value ≤ 0 ->
      CondvarStep exactSelection state (state.goto thread (.spinHead spinCount (spinTry + 1) state.value))
  | spinTake {state} (thread : Thread) (spinCount spinTry : Nat) (value : Int) :
      state.points thread = .spin spinCount spinTry value -> 0 < value -> state.value = value ->
      CondvarStep exactSelection state
        { state.goto thread .idle with
          value := value - 1
          completed := state.completed + 1 }
  /-- The exchange fails, possibly spuriously, and refreshes `value`. -/
  | spinFail {state} (thread : Thread) (spinCount spinTry : Nat) (value : Int) :
      state.points thread = .spin spinCount spinTry value -> 0 < value ->
      CondvarStep exactSelection state (state.goto thread (.spinHead spinCount (spinTry + 1) state.value))
  | subtractToken {state} (thread : Thread) :
      state.points thread = .waitSubtract -> 0 < state.value ->
      CondvarStep exactSelection state
        { state.goto thread .idle with
          value := state.value - 1
          completed := state.completed + 1 }
  | subtractDebt {state} (thread : Thread) :
      state.points thread = .waitSubtract -> state.value ≤ 0 ->
      CondvarStep exactSelection state { state.goto thread .waitLock with value := state.value - 1 }
  | enter {state} (thread : Thread) :
      state.points thread = .waitLock -> state.mutex = none ->
      CondvarStep exactSelection state
        { state.goto thread .waitCheck with
          mutex := some thread
          waiters := state.waiters + 1 }
  /-- The loop ends, and `--to_release_`. -/
  | consume {state} (thread : Thread) :
      state.points thread = .waitCheck -> state.toRelease ≠ 0 ->
      CondvarStep exactSelection state
        { state.goto thread .waitLeave with toRelease := state.toRelease - 1 }
  | sleep {state} (thread : Thread) :
      state.points thread = .waitCheck -> state.toRelease = 0 ->
      CondvarStep exactSelection state { state.goto thread .asleep with mutex := none }
  | spuriousWake {state} (thread : Thread) :
      state.points thread = .asleep -> CondvarStep exactSelection state (state.goto thread .awake)
  | relock {state} (thread : Thread) :
      state.points thread = .awake -> state.mutex = none ->
      CondvarStep exactSelection state { state.goto thread .waitCheck with mutex := some thread }
  | leave {state} (thread : Thread) :
      state.points thread = .waitLeave ->
      CondvarStep exactSelection state
        { state.goto thread .idle with
          mutex := none
          waiters := state.waiters - 1
          completed := state.completed + 1 }

/-- A semaphore used by any number of threads. -/
def condvarSystem (Thread : Type) [DecidableEq Thread] (exactSelection : Bool) : System (CondvarState Thread) where
  initial := fun state => state = fresh
  step := CondvarStep exactSelection

/-- No signal of the exact build finds the value zero. -/
def SignalsDebt (exactSelection : Bool) (before after : CondvarState Thread) : Prop :=
  exactSelection = true -> forall thread count, before.points thread = .signalAdd count ->
    after.points thread ≠ before.points thread -> before.value ≠ 0

end Steps

/-! ## Totals -/

/-- What a thread contributes to the balances. -/
structure Totals where
  /-- in debt, without a token from `to_release_` -/
  indebted : Nat := 0
  /-- tokens to be added to `to_release_` -/
  granting : Nat := 0
  /-- waits that hold their token -/
  leaving : Nat := 0
  /-- counted in `waiters_` -/
  registered : Nat := 0
  sleeping : Nat := 0
  /-- about to look at `to_release_` -/
  looking : Nat := 0
  /-- single notifications to come -/
  owed : Nat := 0
  broadcasting : Nat := 0
  deriving DecidableEq

def CondvarPoint.weigh : CondvarPoint -> Totals
  | signalRelease toRelease => { granting := toRelease }
  | signalCompare toWake => { owed := toWake }
  | notifyOne remaining => { owed := remaining }
  | notifyAll => { broadcasting := 1 }
  | waitLock => { indebted := 1 }
  | waitCheck => { indebted := 1, registered := 1, looking := 1 }
  | asleep => { indebted := 1, registered := 1, sleeping := 1 }
  | awake => { indebted := 1, registered := 1, looking := 1 }
  | waitLeave => { leaving := 1, registered := 1 }
  | _ => {}

/-- A signal of the exact build is about one token. -/
def CondvarPoint.OneToken : CondvarPoint -> Prop
  | signalAdd count => count = 1
  | signalRelease toRelease => toRelease = 1
  | _ => True

/-- A notification is to come. -/
def CondvarPoint.Notifies : CondvarPoint -> Prop
  | signalCompare toWake => 0 < toWake
  | notifyOne remaining => 0 < remaining
  | notifyAll => True
  | _ => False

/-- Not blocked, and about to look at `to_release_`. -/
def CondvarPoint.Looks : CondvarPoint -> Prop
  | waitCheck | awake => True
  | _ => False

namespace Totals

def plus (first second : Totals) : Totals where
  indebted := first.indebted + second.indebted
  granting := first.granting + second.granting
  leaving := first.leaving + second.leaving
  registered := first.registered + second.registered
  sleeping := first.sleeping + second.sleeping
  looking := first.looking + second.looking
  owed := first.owed + second.owed
  broadcasting := first.broadcasting + second.broadcasting

end Totals

namespace CondvarState

section Counts

variable {Thread : Type}

/-! ## Counts of one -/

theorem oneToken_spinHead (spinCount spinTry : Nat) (value : Int) :
    (CondvarPoint.spinHead spinCount spinTry value).OneToken := by
  rw [CondvarPoint.spinHead]
  split <;> trivial

theorem oneToken_notifyHead (remaining : Nat) : (CondvarPoint.notifyHead remaining).OneToken := by
  rw [CondvarPoint.notifyHead]
  split <;> trivial

theorem oneToken_goto [DecidableEq Thread] {state : CondvarState Thread} (ones : forall thread, (state.points thread).OneToken) (actor : Thread) {next : CondvarPoint}
    (fine : next.OneToken) (thread : Thread) : ((state.goto actor next).points thread).OneToken := by
  change (Function.update state.points actor next thread).OneToken
  rw [Function.update_apply]
  split
  · exact fine
  · exact ones thread

/-- In the exact build a signal stays about one token. -/
theorem oneToken_step [DecidableEq Thread] {before after : CondvarState Thread} (ones : forall thread, (before.points thread).OneToken)
    (move : CondvarStep true before after) (thread : Thread) : (after.points thread).OneToken := by
  cases move with
  | callSignal actor count place one =>
      refine oneToken_goto ones actor ?_ thread
      exact one rfl
  | addShort actor count place short =>
      refine oneToken_goto ones actor ?_ thread
      exact rfl
  | release actor toRelease place free =>
      refine oneToken_goto ones actor ?_ thread
      rw [afterRelease]
      split <;> trivial
  | compareFew actor toWake place fewer => exact oneToken_goto ones actor (oneToken_notifyHead _) thread
  | notifySleeper actor sleeper remaining place sleeps =>
      refine oneToken_goto ?_ actor (oneToken_notifyHead _) thread
      refine oneToken_goto ones sleeper ?_
      trivial
  | notifyNobody actor remaining place nobody => exact oneToken_goto ones actor (oneToken_notifyHead _) thread
  | notifyAll actor place =>
      refine oneToken_goto ?_ actor ?_ thread
      · intro other
        change (if _ then _ else _ : CondvarPoint).OneToken
        split
        · trivial
        · exact ones other
      · trivial
  | spinBegin actor spinCount place => exact oneToken_goto ones actor (oneToken_spinHead _ _ _) thread
  | spinReload actor spinCount spinTry value place spent => exact oneToken_goto ones actor (oneToken_spinHead _ _ _) thread
  | spinFail actor spinCount spinTry value place positive => exact oneToken_goto ones actor (oneToken_spinHead _ _ _) thread
  | callWait actor | callSpinWait actor | addPaid actor | compareAll actor | spinTake actor | subtractToken actor
  | subtractDebt actor | enter actor | consume actor | sleep actor | spuriousWake actor | relock actor
  | leave actor =>
      refine oneToken_goto ones actor ?_ thread
      trivial

end Counts

variable {Thread : Type} [Fintype Thread]

def totals (state : CondvarState Thread) : Totals where
  indebted := census (fun point : CondvarPoint => point.weigh.indebted) state.points
  granting := census (fun point : CondvarPoint => point.weigh.granting) state.points
  leaving := census (fun point : CondvarPoint => point.weigh.leaving) state.points
  registered := census (fun point : CondvarPoint => point.weigh.registered) state.points
  sleeping := census (fun point : CondvarPoint => point.weigh.sleeping) state.points
  looking := census (fun point : CondvarPoint => point.weigh.looking) state.points
  owed := census (fun point : CondvarPoint => point.weigh.owed) state.points
  broadcasting := census (fun point : CondvarPoint => point.weigh.broadcasting) state.points

/-- The balances of the semaphore, over the totals of its threads. -/
structure Balanced (state : CondvarState Thread) (sums : Totals) : Prop where
  debts : sums.indebted = (-state.value).toNat + sums.granting + state.toRelease
  tokens : state.completed + sums.leaving + state.value.toNat + sums.granting + state.toRelease = state.signalled
  registrations : state.waiters = sums.registered
  /-- Whoever sleeps is attended to as long as there is a token. -/
  attended : sums.sleeping = 0 ∨ 0 < sums.broadcasting ∨ state.toRelease ≤ sums.looking + sums.owed
  /-- Whoever is registered sleeps, looks at `to_release_` or leaves. -/
  whereabouts : sums.registered = sums.sleeping + sums.looking + sums.leaving

/-- One weight of one thread against those of all others. -/
theorem census_split [DecidableEq Thread] (weight : CondvarPoint -> Nat) (state : CondvarState Thread) (thread : Thread)
    {here : CondvarPoint} (place : state.points thread = here) (next : CondvarPoint) :
    Exists fun others => census weight state.points = others + weight here ∧
      census weight (state.goto thread next).points = others + weight next := by
  have moved := census_update weight state.points thread next
  have own := weight_le_census weight state.points thread
  rw [place] at moved own
  refine ⟨census weight state.points - weight here, by omega, ?_⟩
  change census weight (Function.update state.points thread next) = _
  omega

theorem totals_goto [DecidableEq Thread] (state : CondvarState Thread) (thread : Thread) {here : CondvarPoint}
    (place : state.points thread = here) (next : CondvarPoint) :
    Exists fun others : Totals => state.totals = others.plus here.weigh ∧
      (state.goto thread next).totals = others.plus next.weigh := by
  have split := fun weight : Totals -> Nat => census_split (fun point => weight point.weigh) state thread place next
  obtain ⟨indebted, indebtedWas, indebtedIs⟩ := split Totals.indebted
  obtain ⟨granting, grantingWas, grantingIs⟩ := split Totals.granting
  obtain ⟨leaving, leavingWas, leavingIs⟩ := split Totals.leaving
  obtain ⟨registered, registeredWas, registeredIs⟩ := split Totals.registered
  obtain ⟨sleeping, sleepingWas, sleepingIs⟩ := split Totals.sleeping
  obtain ⟨looking, lookingWas, lookingIs⟩ := split Totals.looking
  obtain ⟨owed, owedWas, owedIs⟩ := split Totals.owed
  obtain ⟨broadcasting, broadcastingWas, broadcastingIs⟩ := split Totals.broadcasting
  refine ⟨⟨indebted, granting, leaving, registered, sleeping, looking, owed, broadcasting⟩, ?_, ?_⟩
  · rw [totals, indebtedWas, grantingWas, leavingWas, registeredWas, sleepingWas, lookingWas, owedWas, broadcastingWas]
    rfl
  · rw [totals, indebtedIs, grantingIs, leavingIs, registeredIs, sleepingIs, lookingIs, owedIs, broadcastingIs]
    rfl

/-- All sleepers are woken up at once. -/
theorem totals_wakeAll (state : CondvarState Thread) :
    state.wakeAll.totals =
      { state.totals with
        sleeping := 0
        looking := state.totals.looking + state.totals.sleeping } := by
  have kept : forall weight : Totals -> Nat, weight CondvarPoint.awake.weigh = weight CondvarPoint.asleep.weigh ->
      census (fun point : CondvarPoint => weight point.weigh) state.wakeAll.points =
        census (fun point : CondvarPoint => weight point.weigh) state.points := by
    intro weight same
    refine census_congr ?_
    intro thread
    change weight (if _ then _ else _ : CondvarPoint).weigh = _
    split
    · rename_i sleeps
      rw [sleeps, same]
    · rfl
  have nobody : census (fun point : CondvarPoint => point.weigh.sleeping) state.wakeAll.points = 0 := by
    refine (census_eq_zero_iff _ _).mpr ?_
    intro thread
    change (if _ then _ else _ : CondvarPoint).weigh.sleeping = 0
    split
    · rfl
    · rename_i elsewhere
      revert elsewhere
      cases state.points thread with
      | asleep => exact fun elsewhere => absurd rfl elsewhere
      | _ => exact fun _ => rfl
  have everybody : census (fun point : CondvarPoint => point.weigh.looking) state.wakeAll.points =
      census (fun point : CondvarPoint => point.weigh.looking) state.points +
        census (fun point : CondvarPoint => point.weigh.sleeping) state.points := by
    rw [← census_add]
    refine census_congr ?_
    intro thread
    change (if _ then _ else _ : CondvarPoint).weigh.looking = _
    cases state.points thread with
    | asleep => rfl
    | _ => rfl
  rw [totals, totals, nobody, everybody, kept Totals.indebted rfl, kept Totals.granting rfl, kept Totals.leaving rfl,
    kept Totals.registered rfl, kept Totals.owed rfl, kept Totals.broadcasting rfl]

theorem balanced_fresh : Balanced (fresh : CondvarState Thread) (fresh : CondvarState Thread).totals := by
  have empty : (fresh : CondvarState Thread).totals = {} := by
    have zero : forall weight : Totals -> Nat, weight {} = 0 ->
        census (fun point : CondvarPoint => weight point.weigh) (fresh : CondvarState Thread).points = 0 := by
      intro weight blank
      exact (census_eq_zero_iff _ _).mpr fun _ => blank
    rw [totals, zero Totals.indebted rfl, zero Totals.granting rfl, zero Totals.leaving rfl, zero Totals.registered rfl,
      zero Totals.sleeping rfl, zero Totals.looking rfl, zero Totals.owed rfl, zero Totals.broadcasting rfl]
  rw [empty]
  exact ⟨rfl, rfl, rfl, Or.inl rfl, rfl⟩

/-- A thread sleeps beside a token that nobody is going to take: no notification
is to come, and no thread is awake before its look at `to_release_`. -/
def Stranded (state : CondvarState Thread) : Prop :=
  (Exists fun thread => state.points thread = .asleep) ∧ 0 < state.toRelease ∧
    forall thread, ¬(state.points thread).Notifies ∧ ¬(state.points thread).Looks

/-- A balanced semaphore leaves nobody asleep beside a token. -/
theorem Balanced.not_stranded {state : CondvarState Thread} (balanced : Balanced state state.totals) : ¬state.Stranded := by
  rintro ⟨⟨sleeper, asleep⟩, available, unattended⟩
  have quiet : forall weight : Totals -> Nat,
      (forall point : CondvarPoint, 0 < weight point.weigh -> point.Notifies ∨ point.Looks) ->
      census (fun point : CondvarPoint => weight point.weigh) state.points = 0 := by
    intro weight told
    refine (census_eq_zero_iff _ _).mpr ?_
    intro thread
    by_contra positive
    rcases told _ (Nat.pos_of_ne_zero positive) with notifies | looks
    · exact (unattended thread).1 notifies
    · exact (unattended thread).2 looks
  have looking : state.totals.looking = 0 := by
    refine quiet Totals.looking ?_
    intro point positive
    cases point <;> first | exact absurd positive (Nat.lt_irrefl 0) | exact Or.inr trivial
  have owed : state.totals.owed = 0 := by
    refine quiet Totals.owed ?_
    intro point positive
    cases point <;> first | exact absurd positive (Nat.lt_irrefl 0) | exact Or.inl positive
  have broadcasting : state.totals.broadcasting = 0 := by
    refine quiet Totals.broadcasting ?_
    intro point positive
    cases point <;> first | exact absurd positive (Nat.lt_irrefl 0) | exact Or.inl trivial
  have sleeping : 0 < state.totals.sleeping := by
    refine (census_pos_iff _ _).mpr ⟨sleeper, ?_⟩
    rw [asleep]
    exact Nat.one_pos
  have attended := balanced.attended
  omega

variable [DecidableEq Thread] {state after : CondvarState Thread}

/-- The rule for a step of one thread. -/
theorem Balanced.move (balanced : Balanced state state.totals) (thread : Thread) {here next : CondvarPoint}
    (place : state.points thread = here) (points : after.points = (state.goto thread next).points)
    (kept : forall others : Totals, Balanced state (others.plus here.weigh) -> Balanced after (others.plus next.weigh)) :
    Balanced after after.totals := by
  obtain ⟨others, was, is_⟩ := totals_goto state thread place next
  have same : after.totals = (state.goto thread next).totals := by
    rw [totals, totals, points]
  rw [was] at balanced
  rw [same, is_]
  exact kept others balanced

/-- A step that changes no weight. -/
theorem Balanced.goto (balanced : Balanced state state.totals) (thread : Thread) {here next : CondvarPoint}
    (place : state.points thread = here) (same : next.weigh = here.weigh) :
    Balanced (state.goto thread next) (state.goto thread next).totals := by
  refine balanced.move thread place rfl ?_
  intro others before
  rw [same]
  exact ⟨before.debts, before.tokens, before.registrations, before.attended, before.whereabouts⟩

theorem weigh_spinHead (spinCount spinTry : Nat) (value : Int) : (CondvarPoint.spinHead spinCount spinTry value).weigh = {} := by
  rw [CondvarPoint.spinHead]
  split <;> rfl

theorem weigh_notifyHead (remaining : Nat) : (CondvarPoint.notifyHead remaining).weigh = { owed := remaining } := by
  rw [CondvarPoint.notifyHead]
  split
  · rename_i none_
    rw [none_]
    rfl
  · rfl

/-! ## Steps -/

/-- What a signal without a positive value to find hands over settles debts only. -/
theorem handedOver_settles {exactSelection : Bool} {value : Int} {count : Nat} (short : value ≤ 0)
    (one : exactSelection = true -> count = 1) (debt : exactSelection = true -> value ≠ 0) :
    (-(value + count)).toNat + handedOver exactSelection value count = (-value).toNat ∧
      (value + count).toNat + handedOver exactSelection value count = count := by
  rw [handedOver]
  split
  · rename_i isExact
    have single := one isExact
    have indebted := debt isExact
    omega
  · omega

/-- Whoever has handed over tokens notifies as many threads, or all, if there is anybody. -/
theorem weigh_afterRelease (exactSelection : Bool) (waiters toRelease : Nat) :
    (afterRelease exactSelection waiters toRelease).weigh =
      { owed := if waiters = 0 then 0 else if exactSelection then 1 else toRelease } := by
  rw [afterRelease]
  split
  · rfl
  · split <;> rfl

theorem Balanced.step {exactSelection : Bool} {before after : CondvarState Thread}
    (balanced : Balanced before before.totals) (move : CondvarStep exactSelection before after)
    (debt : SignalsDebt exactSelection before after)
    (ones : exactSelection = true -> forall thread, (before.points thread).OneToken) :
    Balanced after after.totals := by
  cases move with
  | callSignal thread count place one => exact balanced.goto thread place rfl
  | callWait thread place => exact balanced.goto thread place rfl
  | callSpinWait thread spinCount place => exact balanced.goto thread place rfl
  | addPaid thread count place paid =>
      refine balanced.move thread place rfl ?_
      rintro others ⟨debts, tokens, registrations, attended, whereabouts⟩
      dsimp only [Totals.plus, CondvarPoint.weigh, CondvarState.goto] at *
      constructor <;> dsimp only <;> omega
  | addShort thread count place short =>
      have one : exactSelection = true -> count = 1 := by
        intro isExact
        have single := ones isExact thread
        rw [place] at single
        exact single
      have finds : exactSelection = true -> before.value ≠ 0 := by
        intro isExact
        refine debt isExact thread count place ?_
        rw [place]
        change Function.update before.points thread _ thread ≠ _
        rw [Function.update_self]
        exact CondvarPoint.noConfusion
      obtain ⟨settled, paid⟩ := handedOver_settles short one finds
      refine balanced.move thread place rfl ?_
      rintro others ⟨debts, tokens, registrations, attended, whereabouts⟩
      dsimp only [Totals.plus, CondvarPoint.weigh, CondvarState.goto] at *
      constructor <;> dsimp only <;> omega
  | release thread toRelease place free =>
      have enough : exactSelection = true -> toRelease = 1 := by
        intro isExact
        have single := ones isExact thread
        rw [place] at single
        exact single
      refine balanced.move thread place rfl ?_
      rintro others ⟨debts, tokens, registrations, attended, whereabouts⟩
      rw [weigh_afterRelease]
      dsimp only [Totals.plus, CondvarPoint.weigh, CondvarState.goto] at *
      refine ⟨by dsimp only; omega, by dsimp only; omega, registrations, ?_, whereabouts⟩
      dsimp only
      by_cases nobody : before.waiters = 0
      · left
        omega
      · rw [if_neg nobody]
        split
        · have one := enough ‹_›
          omega
        · omega
  | compareFew thread toWake place fewer =>
      refine balanced.move thread place rfl ?_
      rintro others ⟨debts, tokens, registrations, attended, whereabouts⟩
      rw [weigh_notifyHead]
      exact ⟨debts, tokens, registrations, attended, whereabouts⟩
  | compareAll thread toWake place many =>
      refine balanced.move thread place rfl ?_
      rintro others ⟨debts, tokens, registrations, attended, whereabouts⟩
      exact ⟨debts, tokens, registrations, Or.inr (Or.inl (Nat.succ_pos _)), whereabouts⟩
  | notifySleeper thread sleeper remaining place sleeps =>
      obtain ⟨others, was, woken⟩ := totals_goto before sleeper sleeps .awake
      have same : (before.goto sleeper .awake).points thread = .notifyOne remaining := by
        change Function.update before.points sleeper _ thread = _
        rw [Function.update_of_ne, place]
        intro itself
        rw [itself, sleeps] at place
        exact CondvarPoint.noConfusion place
      obtain ⟨rest, between, is_⟩ := totals_goto (before.goto sleeper .awake) thread same (.notifyHead (remaining - 1))
      rw [woken] at between
      rw [was] at balanced
      rw [is_, weigh_notifyHead]
      obtain ⟨debts, tokens, registrations, attended, whereabouts⟩ := balanced
      dsimp only [Totals.plus, CondvarPoint.weigh, CondvarState.goto] at *
      rw [Totals.mk.injEq] at between
      constructor <;> dsimp only <;> omega
  | notifyNobody thread remaining place nobody =>
      have asleep : before.totals.sleeping = 0 := by
        refine (census_eq_zero_iff _ _).mpr ?_
        intro sleeper
        have elsewhere := nobody sleeper
        revert elsewhere
        cases before.points sleeper with
        | asleep => exact fun elsewhere => absurd rfl elsewhere
        | _ => exact fun _ => rfl
      obtain ⟨others, was, is_⟩ := totals_goto before thread place (.notifyHead (remaining - 1))
      rw [was] at balanced asleep
      rw [is_, weigh_notifyHead]
      exact ⟨balanced.debts, balanced.tokens, balanced.registrations, Or.inl asleep, balanced.whereabouts⟩
  | notifyAll thread place =>
      have same : before.wakeAll.points thread = .notifyAll := by
        change (if _ then _ else _) = _
        rw [place]
        rfl
      obtain ⟨others, was, is_⟩ := totals_goto before.wakeAll thread same .idle
      rw [totals_wakeAll] at was
      rw [is_]
      obtain ⟨debts, tokens, registrations, attended, whereabouts⟩ := balanced
      dsimp only [Totals.plus, CondvarPoint.weigh] at was
      rw [Totals.mk.injEq] at was
      dsimp only [Totals.plus, CondvarPoint.weigh, CondvarState.goto, wakeAll] at *
      constructor <;> dsimp only <;> omega
  | spinBegin thread spinCount place => exact balanced.goto thread place (weigh_spinHead _ _ _)
  | spinReload thread spinCount spinTry value place spent => exact balanced.goto thread place (weigh_spinHead _ _ _)
  | spinFail thread spinCount spinTry value place positive => exact balanced.goto thread place (weigh_spinHead _ _ _)
  | spinTake thread spinCount spinTry value place positive same =>
      subst same
      refine balanced.move thread place rfl ?_
      rintro others ⟨debts, tokens, registrations, attended, whereabouts⟩
      dsimp only [Totals.plus, CondvarPoint.weigh, CondvarState.goto] at *
      constructor <;> dsimp only <;> omega
  | subtractToken thread place positive =>
      refine balanced.move thread place rfl ?_
      rintro others ⟨debts, tokens, registrations, attended, whereabouts⟩
      dsimp only [Totals.plus, CondvarPoint.weigh, CondvarState.goto] at *
      constructor <;> dsimp only <;> omega
  | subtractDebt thread place spent =>
      refine balanced.move thread place rfl ?_
      rintro others ⟨debts, tokens, registrations, attended, whereabouts⟩
      dsimp only [Totals.plus, CondvarPoint.weigh, CondvarState.goto] at *
      constructor <;> dsimp only <;> omega
  | enter thread place free =>
      refine balanced.move thread place rfl ?_
      rintro others ⟨debts, tokens, registrations, attended, whereabouts⟩
      dsimp only [Totals.plus, CondvarPoint.weigh, CondvarState.goto] at *
      constructor <;> dsimp only <;> omega
  | consume thread place some_ =>
      refine balanced.move thread place rfl ?_
      rintro others ⟨debts, tokens, registrations, attended, whereabouts⟩
      dsimp only [Totals.plus, CondvarPoint.weigh, CondvarState.goto] at *
      constructor <;> dsimp only <;> omega
  | sleep thread place none_ =>
      refine balanced.move thread place rfl ?_
      rintro others ⟨debts, tokens, registrations, attended, whereabouts⟩
      dsimp only [Totals.plus, CondvarPoint.weigh, CondvarState.goto] at *
      constructor <;> dsimp only <;> omega
  | spuriousWake thread place =>
      refine balanced.move thread place rfl ?_
      rintro others ⟨debts, tokens, registrations, attended, whereabouts⟩
      dsimp only [Totals.plus, CondvarPoint.weigh, CondvarState.goto] at *
      constructor <;> dsimp only <;> omega
  | relock thread place free =>
      refine balanced.move thread place rfl ?_
      rintro others ⟨debts, tokens, registrations, attended, whereabouts⟩
      exact ⟨debts, tokens, registrations, attended, whereabouts⟩
  | leave thread place =>
      refine balanced.move thread place rfl ?_
      rintro others ⟨debts, tokens, registrations, attended, whereabouts⟩
      dsimp only [Totals.plus, CondvarPoint.weigh, CondvarState.goto] at *
      constructor <;> dsimp only <;> omega

end CondvarState

open CondvarState

/-! ## Runs -/

section Runs

variable {Thread : Type} [Fintype Thread] [DecidableEq Thread]

/-- With exact worker selection at most one thread is inside a wait. -/
def OneWaiter (exactSelection : Bool) (state : CondvarState Thread) : Prop :=
  exactSelection = true -> census CondvarPoint.waiting state.points ≤ 1

/-- The runs in which the semaphore is used as each build assumes. -/
def condvarRuns (Thread : Type) [Fintype Thread] [DecidableEq Thread] (exactSelection : Bool) :
    System (CondvarState Thread) :=
  (condvarSystem Thread exactSelection).within (OneWaiter exactSelection)

theorem balanced_of_reachable {exactSelection : Bool} {state : CondvarState Thread}
    (reachable : ((condvarRuns Thread exactSelection).stepsWhere (SignalsDebt exactSelection)).Reachable state) :
    Balanced state state.totals ∧ (exactSelection = true -> forall thread, (state.points thread).OneToken) := by
  induction reachable with
  | initial first =>
      rw [first.1]
      exact ⟨balanced_fresh, fun _ _ => trivial⟩
  | step _ move inductionHypothesis =>
      obtain ⟨balanced, ones⟩ := inductionHypothesis
      refine ⟨balanced.step move.1.1 move.2 ones, ?_⟩
      intro isExact
      subst isExact
      exact oneToken_step (ones rfl) move.1.1

/-- Tokens are conserved, and none of them lies beside a sleeper, as long as no
signal of the exact build finds the value zero. -/
theorem condvar_conserves {exactSelection : Bool} {state : CondvarState Thread}
    (reachable : ((condvarRuns Thread exactSelection).stepsWhere (SignalsDebt exactSelection)).Reachable state) :
    state.completed ≤ state.signalled ∧ ¬state.Stranded := by
  have balanced := (balanced_of_reachable reachable).1
  refine ⟨?_, balanced.not_stranded⟩
  have tokens := balanced.tokens
  omega

end Runs

/-- A signaler has handed over the token that the sleeper needs, and is about to notify it. -/
theorem condvar_conserves_debt :
    Exists fun state : CondvarState (Fin 2) => state.points 1 = .asleep ∧ state.toRelease = 1 ∧
      state.completed ≤ state.signalled ∧ ¬state.Stranded := by
  have advance : forall {before after : CondvarState (Fin 2)},
      ((condvarRuns (Fin 2) true).stepsWhere (SignalsDebt true)).Reachable before ->
      CondvarStep true before after -> OneWaiter true after -> SignalsDebt true before after ->
      ((condvarRuns (Fin 2) true).stepsWhere (SignalsDebt true)).Reachable after :=
    fun reachable move one debt => .step reachable ⟨⟨move, one⟩, debt⟩
  have start : ((condvarRuns (Fin 2) true).stepsWhere (SignalsDebt true)).Reachable fresh :=
    .initial ⟨rfl, fun _ => by decide⟩
  have calls := advance start (.callWait 1 rfl) (fun _ => by decide) (fun _ _ _ place => nomatch place)
  have subtracts := advance calls (.subtractDebt 1 rfl (by decide)) (fun _ => by decide)
    (fun _ thread _ place => by fin_cases thread <;> cases place)
  have enters := advance subtracts (.enter 1 rfl rfl) (fun _ => by decide) (fun _ _ _ _ _ => by decide)
  have sleeps := advance enters (.sleep 1 rfl rfl) (fun _ => by decide) (fun _ _ _ _ _ => by decide)
  have signals := advance sleeps (.callSignal 0 1 rfl (fun _ => rfl)) (fun _ => by decide) (fun _ _ _ _ _ => by decide)
  have adds := advance signals (.addShort 0 1 rfl (by decide)) (fun _ => by decide) (fun _ _ _ _ _ => by decide)
  have releases := advance adds (.release 0 1 rfl rfl) (fun _ => by decide)
    (fun _ thread _ place => by fin_cases thread <;> cases place)
  exact ⟨_, rfl, rfl, condvar_conserves releases⟩

/-- In the exact build a signal that finds the value zero leaves its token in
both places, and two waits complete. -/
theorem one_signal_two_waits :
    Exists fun state : CondvarState (Fin 2) => (condvarRuns (Fin 2) true).Reachable state ∧
      state.signalled = 1 ∧ state.completed = 2 := by
  have advance : forall {before after : CondvarState (Fin 2)}, (condvarRuns (Fin 2) true).Reachable before ->
      CondvarStep true before after -> OneWaiter true after -> (condvarRuns (Fin 2) true).Reachable after :=
    fun reachable move one => .step reachable ⟨move, one⟩
  have start : (condvarRuns (Fin 2) true).Reachable fresh := .initial ⟨rfl, fun _ => by decide⟩
  have signals := advance start (.callSignal 0 1 rfl (fun _ => rfl)) (fun _ => by decide)
  have adds := advance signals (.addShort 0 1 rfl (by decide)) (fun _ => by decide)
  have releases := advance adds (.release 0 1 rfl rfl) (fun _ => by decide)
  have calls := advance releases (.callWait 1 rfl) (fun _ => by decide)
  have takes := advance calls (.subtractToken 1 rfl (by decide)) (fun _ => by decide)
  have again := advance takes (.callWait 1 rfl) (fun _ => by decide)
  have owes := advance again (.subtractDebt 1 rfl (by decide)) (fun _ => by decide)
  have enters := advance owes (.enter 1 rfl rfl) (fun _ => by decide)
  have consumes := advance enters (.consume 1 rfl (by decide)) (fun _ => by decide)
  have leaves := advance consumes (.leave 1 rfl) (fun _ => by decide)
  exact ⟨_, leaves, rfl, rfl⟩

end Threading
end Sweater
