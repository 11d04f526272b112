import Sweater.Shop.NoStranding
import Sweater.Shop.ItemCounter

namespace Sweater
namespace Shop

open Threading
open Spread
open Interleaving
open Interleaving.Stacked

/-!
# Orderly runs

The assumptions under which calls of `spread_work` get on, and what the stacks
of the threads look like in such a run.

In an orderly run no shop is destroyed, the slices of `dispatch_workers` are
accepted by the queue, and `queue_.empty()` is exact for a caller that decides
not to steal.  In a detecting run a worker that calls `spread_work` sees at
least the work that it is executing in `number_of_items()`, and therefore
performs the whole call itself: it never waits for anybody.

A call is newer than everything below it on its stack.  This is what leads
from a blocked call to one that is not.
-/

variable {Shop Thread : Type} {program : Program Shop}

/-! ## The assumptions -/

section Assumptions

variable [DecidableEq Shop] [Fintype Thread]

/-- What a step of an orderly run respects. -/
structure Orderly (before after : Stacked Thread (Frame Shop program.bits) (Shared program)) : Prop where
  /-- no destructor is called -/
  running : after.shared.stopping = before.shared.stopping
  /-- no `enqueue_bulk` of `dispatch_workers` fails -/
  queued : after.shared.lost = before.shared.lost
  /-- `queue_.empty()` is exact for a caller that goes on to join -/
  emptiness : forall thread shop call locals rest,
    before.callStack thread = .spread shop call locals .testQueue :: rest ->
    after.callStack thread = .spread shop call locals .join :: rest ->
    forall entry, entry ∈ before.shared.queue -> entry.shop ≠ shop

/-- A worker that calls `spread_work` does not read a zero from
`number_of_items()`. -/
def Detects (pool : Pool program Thread)
    (before after : Stacked Thread (Frame Shop program.bits) (Shared program)) : Prop :=
  forall thread shop call locals rest, pool.Serves thread shop ->
    before.callStack thread = .spread shop call locals .loadItems :: rest ->
    after.callStack thread ≠ before.callStack thread -> before.shared.workItems shop ≠ 0

/-- The parts that the shared queue has refused; their announcement is never
taken back. -/
def Shared.refused (shared : Shared program) : Nat :=
  shared.dropped.countP (fun work => !work.isItem)

/-- No counter reaches the range of its type, and no call divides by zero. -/
structure Sized (state : Stacked Thread (Frame Shop program.bits) (Shared program)) : Prop where
  barriers : state.shared.InRange
  items : forall shop, outstandingWorks shop state + state.shared.refused < 2 ^ program.bits
  divisible : forall thread shop call locals point, .spread shop call locals point ∈ state.callStack thread ->
    locals.parallelizable ≠ 0

variable [DecidableEq Thread]

def orderlySystem (pool : Pool program Thread) :
    System (Stacked Thread (Frame Shop program.bits) (Shared program)) :=
  ((shopSystem pool).stepsWhere Orderly).within Sized

def detectingSystem (pool : Pool program Thread) :
    System (Stacked Thread (Frame Shop program.bits) (Shared program)) :=
  ((shopSystem pool).stepsWhere (fun before after => Orderly before after ∧ Detects pool before after)).within Sized

end Assumptions

/-! ## Stacks -/

/-- Only the top frame of a stack is not inside user code. -/
def Suspended {bits : Nat} (stack : List (Frame Shop bits)) : Prop :=
  forall frame, frame ∈ stack.tail -> frame.mayCall = true

/-- The calls that a frame belongs to, or whose part it executes. -/
def Frame.Mentions {bits : Nat} (frame : Frame Shop bits) (call : Nat) : Prop :=
  frame.call = some call ∨ 0 < frame.carries (Work.ofCall call)

/-- A call is newer than what it has been called from. -/
def Newer {bits : Nat} (upper lower : Frame Shop bits) : Prop :=
  forall call mentioned, upper.call = some call -> lower.Mentions mentioned -> mentioned < call

/-- Above the bottom of a stack there are only calls. -/
def Called {bits : Nat} (upper _lower : Frame Shop bits) : Prop :=
  upper ≠ .outside ∧ upper.home = none

section Steps

variable [DecidableEq Shop] {pool : Pool program Thread} {callStack : Thread -> List (Frame Shop program.bits)}
  {thread : Thread} {shared shared' : Shared program} {frame : Frame Shop program.bits}
  {frames : List (Frame Shop program.bits)}

/-- A step is a return, goes on in place of the frame, or calls from it. -/
theorem ShopStep.frames_cases (move : ShopStep pool callStack thread shared frame shared' frames) :
    frames = [] ∨ (Exists fun next => frames = [next] ∧ next.call = frame.call) ∨
      Exists fun called => frames = [called, frame] ∧ frame.mayCall = true ∧
        (called.call = none ∨ called.call = some shared.nextCall) := by
  cases move with
  | worker move => cases move <;> exact Or.inr (Or.inl ⟨_, rfl, rfl⟩)
  | execution move =>
      cases move with
      | invoke | finish => exact Or.inr (Or.inl ⟨_, rfl, rfl⟩)
      | arrive host | discount host => exact Or.inr (Or.inl ⟨_, rfl, call_resume host⟩)
  | fire move => cases move <;> exact Or.inr (Or.inl ⟨_, rfl, rfl⟩)
  | spread move => cases move <;> exact Or.inr (Or.inl ⟨_, rfl, rfl⟩)
  | stop move => cases move <;> exact Or.inr (Or.inl ⟨_, rfl, rfl⟩)
  | call move =>
      cases move with
      | fire _ _ mayCall | stop _ _ mayCall => exact Or.inr (Or.inr ⟨_, rfl, mayCall, Or.inl rfl⟩)
      | spread _ _ _ _ mayCall => exact Or.inr (Or.inr ⟨_, rfl, mayCall, Or.inr rfl⟩)
      | fired | spreadReturn | stopped => exact Or.inl rfl

/-- A frame that is called from user code is neither outside nor a worker's, and
stays so. -/
theorem ShopStep.called (move : ShopStep pool callStack thread shared frame shared' frames) :
    (Exists fun next => frames = [next] ∧ next ≠ .outside ∧ next.home = frame.home) ∨ frames = [] ∨
      Exists fun called => frames = [called, frame] ∧ called ≠ .outside ∧ called.home = none := by
  cases move with
  | worker move => cases move <;> exact Or.inl ⟨_, rfl, nofun, rfl⟩
  | execution move =>
      cases move with
      | invoke | finish => exact Or.inl ⟨_, rfl, nofun, rfl⟩
      | arrive host | discount host =>
          refine Or.inl ⟨_, rfl, ?_, Frame.home_resume host⟩
          cases host <;> exact nofun
  | fire move => cases move <;> exact Or.inl ⟨_, rfl, nofun, rfl⟩
  | spread move => cases move <;> exact Or.inl ⟨_, rfl, nofun, rfl⟩
  | stop move => cases move <;> exact Or.inl ⟨_, rfl, nofun, rfl⟩
  | call move =>
      cases move with
      | fire | stop | spread => exact Or.inr (Or.inr ⟨_, rfl, nofun, rfl⟩)
      | fired | spreadReturn | stopped => exact Or.inr (Or.inl rfl)

/-! ## What a call has decided -/

/-- The path that a call has taken so far. -/
def SpreadPoint.Decided {bits : Nat} (locals : SpreadLocals) : SpreadPoint bits -> Prop
  | .loadItems | .loadDivision _ => locals.queueAndWait = false ∧ locals.immediate = false ∧ locals.iterations ≠ 0
  | .registerSlice _ _ _ _ _ | .countSlice _ _ _ _ _ | .notifyRoot _ _ =>
      locals.queueAndWait = false ∧ locals.immediate = false
  | _ => True

def Frame.Decided {bits : Nat} : Frame Shop bits -> Prop
  | .spread _ _ locals point => point.Decided locals
  | _ => True

omit [DecidableEq Shop] in
theorem SpreadPoint.decided_toCaller (locals locals' : SpreadLocals) :
    (toCaller locals' : SpreadPoint program.bits).Decided locals := by
  unfold toCaller
  split <;> trivial

omit [DecidableEq Shop] in
theorem SpreadPoint.decided_nextDispatch {locals : SpreadLocals} (locals' : SpreadLocals)
    (stays : locals.queueAndWait = false ∧ locals.immediate = false) (first : Bool)
    (rest : List (Dispatch program.bits)) : (nextDispatch locals' first rest).Decided locals := by
  cases rest with
  | nil => exact decided_toCaller locals locals'
  | cons dispatch rest => exact stays

theorem SpreadStep.decided {recursive : Bool} (move : SpreadStep program recursive shared frame shared' frames)
    (decided : frame.Decided) : forall next, next ∈ frames -> next.Decided := by
  cases move <;> simp only [List.mem_singleton, forall_eq]
  case loadItems => exact decided
  case plan shop call locals itemsInShop plan exact planned =>
    cases plan with
    | nothing | inCaller iterations => trivial
    | toWorkers callerEnd sliceDiv dispatches =>
        exact SpreadPoint.decided_nextDispatch _ ⟨decided.1, decided.2.1⟩ true dispatches
    | toQueue queueAndWait callerEnd chunks =>
        simp only [startPlan]
        split <;> trivial
  case registerSlice | countSlice => exact decided
  case enqueueSlices first registered rest | refuseSlices first registered rest _ =>
    cases first with
    | true => exact decided
    | false => exact SpreadPoint.decided_nextDispatch _ decided false rest
  case notifyRoot => exact SpreadPoint.decided_nextDispatch _ decided false _
  case notifiedAll | initializeEmpty | resetBarrier => exact SpreadPoint.decided_toCaller _ _
  case callerComplete => split <;> trivial
  case stealSkip | stealEmpty =>
    unfold SpreadPoint.toJoin
    split <;> trivial
  case spinOver => split <;> trivial
  all_goals trivial

theorem ShopStep.decided (move : ShopStep pool callStack thread shared frame shared' frames)
    (decided : frame.Decided) : forall next, next ∈ frames -> next.Decided := by
  apply move.call_frames decided
  · intro other plain
    cases other with
    | spread => cases plain
    | _ => trivial
  · intro host work phase _
    exact ⟨fun _ => trivial, by cases host <;> trivial⟩
  · intro shop iterations parallelizable
    split
    · trivial
    · rename_i some
      exact ⟨rfl, rfl, some⟩
  · intro shop call locals point _ move
    exact move.decided decided

theorem ShopStep.brexit_of_left (move : ShopStep pool callStack thread shared frame shared' frames) {shop : Shop}
    {index : Nat} (left : .worker shop index .exited ∈ frames) : shared'.brexit shop = true := by
  cases move with
  | worker move =>
      cases move with
      | exit own index requested =>
          cases List.mem_singleton.mp left
          exact requested
      | complete own index drained => cases drained <;> cases List.mem_singleton.mp left
      | _ => cases List.mem_singleton.mp left
  | execution move =>
      cases move with
      | arrive host | discount host => cases host <;> cases List.mem_singleton.mp left
      | _ => cases List.mem_singleton.mp left
  | fire move => cases move <;> cases List.mem_singleton.mp left
  | spread move => cases move <;> cases List.mem_singleton.mp left
  | stop move => cases move <;> cases List.mem_singleton.mp left
  | call move =>
      cases move with
      | fire frame own calls | stop frame own calls | spread frame own _ _ calls =>
          rcases List.mem_cons.mp left with impossible | below
          · cases impossible
          · rw [← List.mem_singleton.mp below] at calls
            cases calls
      | fired | spreadReturn | stopped => cases left

/-- The division of the slices stays between its bounds. -/
def Shared.Divides (shared : Shared program) : Prop :=
  stealingDivisionMin ≤ shared.division.toNat ∧ shared.division.toNat ≤ stealingDivisionMax

theorem ShopStep.divides (move : ShopStep pool callStack thread shared frame shared' frames)
    (divides : shared.Divides) : shared'.Divides := by
  cases move with
  | worker move => cases move <;> exact divides
  | execution move => cases move <;> exact divides
  | fire move => cases move <;> exact divides
  | spread move =>
      cases move with
      | raiseDivision shop call locals current low same =>
          have raised : (current + 1).toNat = current.toNat + 1 :=
            Machine.toNat_add_one _ (Nat.lt_of_lt_of_le (Nat.succ_lt_succ low) (by decide))
          rw [Shared.Divides, same] at divides
          constructor
          · exact Nat.le_trans divides.1 (by rw [raised]; exact Nat.le_succ _)
          · change (current + 1).toNat ≤ _
            rw [raised]
            exact low
      | _ => exact divides
  | stop move => cases move <;> exact divides
  | call move => cases move <;> exact divides

end Steps

/-! ## Whole runs -/

section Runs

variable [DecidableEq Shop] [DecidableEq Thread] {pool : Pool program Thread}
  {state : Stacked Thread (Frame Shop program.bits) (Shared program)}

theorem suspended (reachable : (shopSystem pool).Reachable state) (thread : Thread) :
    Suspended (state.callStack thread) := by
  revert thread
  apply reachable.invariant
  · rintro state rfl thread frame member
    change frame ∈ (pool.initialStack thread).tail at member
    unfold Pool.initialStack at member
    split at member <;> cases member
  · intro before after _ earlier move thread
    cases move with
    | top mover frame rest shared frames place localStep =>
        by_cases same : thread = mover
        · subst same
          rw [callStack_replaceTop]
          have below := earlier thread
          rw [place] at below
          rcases localStep.frames_cases with rfl | ⟨next, rfl, _⟩ | ⟨called, rfl, calls, _⟩
          · exact fun other member => below other (List.mem_of_mem_tail member)
          · exact below
          · intro other member
            rcases List.mem_cons.mp member with rfl | deeper
            · exact calls
            · exact below other deeper
        · rw [callStack_replaceTop_of_ne before same]
          exact earlier thread

theorem called (reachable : (shopSystem pool).Reachable state) (thread : Thread) :
    (state.callStack thread).Pairwise Called := by
  revert thread
  apply reachable.invariant
  · rintro state rfl thread
    change (pool.initialStack thread).Pairwise Called
    unfold Pool.initialStack
    split <;> exact List.pairwise_singleton _ _
  · intro before after _ earlier move thread
    cases move with
    | top mover frame rest shared frames place localStep =>
        by_cases same : thread = mover
        · subst same
          rw [callStack_replaceTop]
          have order := earlier thread
          rw [place] at order
          rcases List.pairwise_cons.mp order with ⟨above, below⟩
          rcases localStep.called with ⟨next, rfl, inside, home⟩ | rfl | ⟨called, rfl, inside, home⟩
          · refine List.pairwise_cons.mpr ⟨fun lower member => ⟨inside, ?_⟩, below⟩
            rw [home]
            exact (above lower member).2
          · exact below
          · exact List.pairwise_cons.mpr ⟨fun _ _ => ⟨inside, home⟩, order⟩
        · rw [callStack_replaceTop_of_ne before same]
          exact earlier thread

/-- The frames of a worker's loop are on the stack of that worker. -/
theorem role_of_home (reachable : (shopSystem pool).Reachable state) {thread : Thread}
    {frame : Frame Shop program.bits} (member : frame ∈ state.callStack thread) {worker : Shop × Nat}
    (own : frame.home = some worker) : pool.role thread = some worker := by
  revert thread frame
  apply reachable.invariant
  · rintro state rfl thread frame member own
    rcases mem_initialStack member with rfl | ⟨shop, index, role, rfl⟩
    · cases own
    · cases own
      exact role
  · intro before after _ earlier move thread frame member own
    apply frames_step move (fun _ thread frame => frame.home = some worker -> pool.role thread = some worker)
      (fun _ _ member own => earlier member own) _ _ thread frame member own
    · intro thread top rest shared frames _ localStep _ holds next member own
      exact holds (localStep.home_of_mem member own)
    · intro _ _ _ _ _ _ _ _ _ _ _ holds
      exact holds

/-- A worker has left its loop because it was asked to. -/
theorem brexit_of_left (reachable : (shopSystem pool).Reachable state) {thread : Thread} {shop : Shop} {index : Nat}
    (left : .worker shop index .exited ∈ state.callStack thread) : state.shared.brexit shop = true := by
  have general : forall thread frame, frame ∈ state.callStack thread ->
      frame = .worker shop index .exited -> state.shared.brexit shop = true := by
    apply reachable.invariant
    · rintro state rfl thread frame member rfl
      rcases mem_initialStack member with impossible | ⟨shop, index, _, impossible⟩
      · cases impossible
      · cases impossible
    · intro before after _ earlier move
      apply frames_step move (fun state _ frame => frame = .worker shop index .exited ->
        state.shared.brexit shop = true) earlier
      · rintro thread top rest shared frames place localStep rfl _ next member rfl
        exact localStep.brexit_of_left member
      · rintro thread top rest shared frames place localStep rfl other frame elsewhere holds same
        exact localStep.stays.brexit shop (holds same)
  exact general thread _ left rfl

theorem decided (reachable : (shopSystem pool).Reachable state) (thread : Thread)
    (frame : Frame Shop program.bits) (member : frame ∈ state.callStack thread) : frame.Decided := by
  revert thread frame
  apply reachable.invariant
  · rintro state rfl thread frame member
    rcases mem_initialStack member with rfl | ⟨shop, index, _, rfl⟩
    · trivial
    · trivial
  · intro before after _ earlier move
    apply frames_step move (fun _ _ frame => frame.Decided) earlier
    · intro thread top rest shared frames _ localStep _ holds
      exact localStep.decided holds
    · intro _ _ _ _ _ _ _ _ _ _ _ holds
      exact holds

theorem divides (reachable : (shopSystem pool).Reachable state) : state.shared.Divides := by
  apply reachable.invariant
  · rintro state rfl
    exact ⟨Nat.le_refl 4, (show 4 ≤ 16 by decide)⟩
  · intro before after _ earlier move
    cases move with
    | top thread frame rest shared frames place localStep => exact localStep.divides earlier

variable [Fintype Thread]

theorem mentioned_lt_nextCall (reachable : (shopSystem pool).Reachable state) {thread : Thread}
    {frame : Frame Shop program.bits} (member : frame ∈ state.callStack thread) {call : Nat}
    (mentions : frame.Mentions call) : call < state.shared.nextCall := by
  rcases mentions with own | carried
  · exact call_lt_nextCall reachable member own
  · by_contra unused
    have none := made_eq_zero reachable (Nat.not_lt.mp unused)
    have account := room reachable member call
    omega

/-- On every stack, the calls above are newer. -/
theorem newer (reachable : (shopSystem pool).Reachable state) (thread : Thread) :
    (state.callStack thread).Pairwise Newer := by
  revert thread
  apply reachable.invariant
  · rintro state rfl thread
    change (pool.initialStack thread).Pairwise Newer
    unfold Pool.initialStack
    split <;> exact List.pairwise_singleton _ _
  · intro before after reachable earlier move thread
    cases move with
    | top mover frame rest shared frames place localStep =>
        by_cases same : thread = mover
        · subst same
          rw [callStack_replaceTop]
          have order := earlier thread
          rw [place] at order
          rcases List.pairwise_cons.mp order with ⟨above, below⟩
          rcases localStep.frames_cases with rfl | ⟨next, rfl, own⟩ | ⟨called, rfl, _, fresh⟩
          · exact below
          · refine List.pairwise_cons.mpr ⟨?_, below⟩
            intro lower member call mentioned nextOwn
            exact above lower member call mentioned (own ▸ nextOwn)
          · refine List.pairwise_cons.mpr ⟨?_, order⟩
            intro lower member call mentioned calledOwn mentions
            have started := mentioned_lt_nextCall reachable (by rw [place]; exact member) mentions
            rcases fresh with none | some
            · rw [none] at calledOwn
              cases calledOwn
            · rw [some] at calledOwn
              cases calledOwn
              exact started
        · rw [callStack_replaceTop_of_ne before same]
          exact earlier thread

end Runs

end Shop
end Sweater
