import Sweater.Shop.Progress
import Sweater.Shop.SmallRuns

namespace Sweater
namespace Shop

open Threading
open Spread
open Interleaving
open Interleaving.Stacked

/-!
# Nested and concurrent spreads

`spreads_advance`: as long as a call of `spread_work` has not returned, some
thread that is inside the shop or inside user code has a step that is not
another poll of a barrier, provided that the calls on worker threads detect
that they are nested.  `circular_wait` is a run without that proviso.

A step that leaves the whole state as it is can only be a poll: `spin_wait`
that looks at its barrier again, or `wait` that goes on sleeping.
-/

variable {Thread : Type} {program : Program Unit}

section Steps

variable {pool : Pool program Thread} {callStack : Thread -> List (Frame Unit program.bits)}
  {thread : Thread} {shared shared' : Shared program} {frame : Frame Unit program.bits}
  {frames : List (Frame Unit program.bits)}

/-- A step that eases is not one of code outside the shop. -/
theorem Eases.inside (eases : Eases pool callStack thread shared frame shared' frames) : frame ≠ .outside := by
  rintro rfl
  cases eases.move with
  | worker move | execution move | fire move | stop move => cases move
  | call move =>
      cases move with
      | fire frame shop =>
          have more := eases.items
          change (shared.created ++ [Work.item shared.created.length]).countP Work.isItem = _ at more
          rw [List.countP_append] at more
          exact absurd more (Nat.ne_of_gt (Nat.lt_succ_self _))
      | spread => exact absurd eases.calls (Nat.succ_ne_self _)
      | stop frame shop calling running =>
          have same := congrFun eases.running shop
          change Function.update shared.stopping shop true shop = shared.stopping shop at same
          rw [Function.update_self, running] at same
          cases same

/-- A step that eases is not a poll. -/
theorem Eases.changes (eases : Eases pool callStack thread shared frame shared' frames)
    (same : shared' = shared) : frames ≠ [frame] := by
  rintro rfl
  rcases eases.lowers with less | ⟨_, less⟩
  · rw [weigh_cons, weigh_nil] at less
    exact absurd less (Nat.lt_irrefl _)
  · rw [weigh_cons, weigh_nil, same] at less
    exact absurd less (Nat.lt_irrefl _)

end Steps

variable [DecidableEq Thread] {pool : Pool program Thread}
  {state : Stacked Thread (Frame Unit program.bits) (Shared program)}

/-! ## Some thread advances -/

/-- Some thread that is inside a shop or inside user code has a step other than
another poll of a barrier. -/
def Advances (pool : Pool program Thread) (state : Stacked Thread (Frame Unit program.bits) (Shared program)) : Prop :=
  Exists fun thread => Exists fun frame => Exists fun rest => Exists fun shared => Exists fun frames =>
    state.callStack thread = frame :: rest ∧ frame ≠ .outside ∧
      ShopStep pool state.callStack thread state.shared frame shared frames ∧
      (shared = state.shared -> frames ≠ [frame])

variable [Fintype Thread]

/-- Nested and concurrent spreads never deadlock, as long as the calls on worker
threads see that there is work in the shop. -/
theorem spreads_advance (staffed : 0 < program.workers ()) (representable : program.workers () + 1 < 2 ^ program.bits)
    (reachable : (detectingSystem pool).Reachable state) {thread : Thread} {frame : Frame Unit program.bits}
    (member : frame ∈ state.callStack thread) {call : Nat} (unreturned : frame.call = some call) :
    Advances pool state := by
  by_contra stuck
  have standstill : Standstill pool state := by
    refine ⟨reachable, staffed, representable, ?_⟩
    rintro thread frame rest place ⟨shared, frames, eases⟩
    exact stuck ⟨thread, frame, rest, shared, frames, place, eases.inside, eases.move, eases.changes⟩
  cases unreturned.symm.trans (standstill.no_call member)

private theorem plan_nested : spreadWork (⟨1, 1, 4, true, true⟩ : Situation 16) 2 1 = some (.inCaller 2, true) :=
  @of_decide_eq_true _ (Machine.instDecidableEqChecked _ _) (by decide +kernel)

/-- The worker is inside a call that a fired item has made, and the other thread
is inside a call whose only part waits for the worker. -/
theorem nested_run : Exists fun state => (detectingSystem (smallPool Unit)).Reachable state ∧
    .executing (.caller () 0 ⟨2, 1, 2, false, true, true⟩) (.part ⟨1, 0, ⟨0, 2⟩⟩) .running ∈ state.callStack none ∧
      .spread () 1 ⟨1, 1, 0, true, false, true⟩ .waiting ∈ state.callStack (some ()) := by
  have start : Modest (fun before after => Orderly before after ∧ Detects (smallPool Unit) before after)
      (smallPool Unit) 0 ⟨Shared.fresh, (smallPool Unit).initialStack⟩ := modest_initial
  -- a caller fires an item
  have fires := start.detecting (some ()) rfl (.call (.fire .outside () rfl (Or.inl rfl))) nofun nofun rfl
  have loaded := fires.detecting (some ()) rfl (.fire (.loadRotor () _)) nofun nofun rfl
  have sticks := loaded.detecting (some ()) rfl (.fire (.stick () _ _ Nat.zero_lt_one)) nofun nofun rfl
  have queued := sticks.detecting (some ()) rfl (.fire (.enqueue () _ _)) nofun nofun rfl
  have notified := queued.detecting (some ()) rfl (.fire (.notify () _ _ _)) nofun nofun rfl
  have added := notified.detecting (some ()) rfl (.fire (.addItem () _ _)) nofun nofun rfl
  have counted := added.detecting (some ()) rfl (.fire (.countInFlight () _)) nofun nofun rfl
  have fired := counted.detecting (some ()) rfl (.call (.fired () _ _)) nofun nofun rfl
  -- the worker executes it, and detects that the call of the item is nested
  have taken := fired.detecting none rfl (.worker (.takeOwn () 0 [] _ [] rfl rfl rfl)) nofun nofun rfl
  have invoked := taken.detecting none rfl (.execution (.invoke _ _)) nofun nofun rfl
  have spreads := invoked.detecting none rfl (.call (.spread _ () 2 1 rfl (Or.inl rfl))) nofun nofun rfl
  have aware := spreads.detecting none rfl (.spread (.loadItems () _ _)) nofun (fun _ _ _ _ => by decide) rfl
  have alone := aware.detecting none rfl
    (.spread (.plan () _ _ _ _ _ (planned_of plan_nested rfl rfl rfl rfl rfl))) nofun nofun rfl
  have registered := alone.detecting none rfl (.spread (.callerRegister () _ _)) nofun nofun rfl
  have announced := registered.detecting none rfl (.spread (.callerCount () _ _ _)) nofun nofun rfl
  have runs := announced.detecting none rfl (.execution (.invoke _ _)) nofun nofun rfl
  -- the caller's own call leaves its part to the queue
  have second := runs.detecting (some ()) rfl (.call (.spread .outside () 1 1 rfl (Or.inl rfl))) nofun nofun rfl
  have busy := second.detecting (some ()) rfl (.spread (.loadItems () _ _)) nofun nofun rfl
  have planned := busy.detecting (some ()) rfl
    (.spread (.plan () _ _ _ _ _ (planned_of plan_bulk rfl rfl rfl rfl rfl))) nofun nofun rfl
  have partCounted := planned.detecting (some ()) rfl (.spread (.countParts () _ _ _)) nofun nofun rfl
  have part := partCounted.detecting (some ()) rfl (.spread (.initializeBarrier () _ _ _)) nofun nofun rfl
  have partQueued := part.detecting (some ()) rfl (.spread (.enqueueParts () _ _ _)) nofun nofun rfl
  have everyone := partQueued.detecting (some ()) rfl (.spread (.notifyAll () _ _ _ Nat.zero_lt_one)) nofun nofun rfl
  have all := everyone.detecting (some ()) rfl (.spread (.notifiedAll () _ _ _ (Nat.le_refl 1))) nofun nofun rfl
  have waits := all.detecting (some ()) rfl (.spread (.stealSkip () _ _)) nofun nofun rfl
  exact ⟨_, waits.reachable, List.mem_cons_self, List.mem_cons_self⟩

theorem spreads_advance_nested : Exists fun state => (detectingSystem (smallPool Unit)).Reachable state ∧
    .executing (.caller () 0 ⟨2, 1, 2, false, true, true⟩) (.part ⟨1, 0, ⟨0, 2⟩⟩) .running ∈ state.callStack none ∧
      .spread () 1 ⟨1, 1, 0, true, false, true⟩ .waiting ∈ state.callStack (some ()) ∧ Advances (smallPool Unit) state := by
  obtain ⟨state, reachable, nested, waiting⟩ := nested_run
  have staffed : 0 < smallProgram.workers () := Nat.zero_lt_one
  have representable : smallProgram.workers () + 1 < 2 ^ smallProgram.bits := by decide
  exact ⟨state, reachable, nested, waiting, spreads_advance staffed representable reachable waiting rfl⟩

/-! ## A circular wait -/

section Polls

variable {pool : Pool program Thread} {callStack : Thread -> List (Frame Unit program.bits)} {thread : Thread}
  {shared shared' : Shared program} {frame : Frame Unit program.bits} {frames : List (Frame Unit program.bits)}

/-- A frame whose next step is another poll of its barrier. -/
def Frame.Polls (shared : Shared program) : Frame Unit program.bits -> Prop
  | .spread _ call _ .spinning => (shared.barrier call).everyoneArrived program.bits = false
  | .spread _ call _ .waiting => (shared.barrier call).counter ≠ 0
  | _ => False

omit [DecidableEq Thread] [Fintype Thread] in
theorem ShopStep.of_polls (move : ShopStep pool callStack thread shared frame shared' frames)
    (polls : frame.Polls shared) : shared' = shared ∧ frames = [frame] := by
  cases move with
  | spread move =>
      cases move with
      | spinAgain | waitAgain => exact ⟨rfl, rfl⟩
      | spinOver shop call locals isStalled arrived => cases polls.symm.trans arrived
      | waitOver shop call locals arrived => exact absurd arrived polls
      | _ => cases polls
  | worker move | execution move | fire move | stop move => cases move <;> cases polls
  | call move =>
      cases move with
      | fire frame shop mayCall | stop frame shop mayCall | spread frame shop iterations parallelizable mayCall =>
          cases frame with
          | outside | executing => cases polls
          | _ => cases mayCall
      | fired | spreadReturn | stopped => cases polls

end Polls

omit [DecidableEq Thread] [Fintype Thread] in
theorem not_advances (polls : forall thread frame rest, state.callStack thread = frame :: rest ->
    frame.Polls state.shared) : ¬ Advances pool state := by
  rintro ⟨thread, frame, rest, shared, frames, place, _, move, changes⟩
  rcases move.of_polls (polls thread frame rest place) with ⟨same, unchanged⟩
  exact changes same unchanged

private theorem plan_unaware : spreadWork (⟨1, 0, 4, true, true⟩ : Situation 16) 2 1 =
      some (.toWorkers 1 1 [⟨0, [⟨1, 2⟩]⟩], true) :=
  @of_decide_eq_true _ (Machine.instDecidableEqChecked _ _) (by decide +kernel)

private theorem plan_alone : spreadWork (⟨1, 0 + 1, 4, false, true⟩ : Situation 16) 1 1 =
      some (.toQueue false 1 [], true) :=
  @of_decide_eq_true _ (Machine.instDecidableEqChecked _ _) (by decide +kernel)

private theorem plan_crowded : spreadWork (⟨1, 0 + 1 + 1 - 1 + 1 + 1 - 1, 4, false, true⟩ : Situation 16) 1 1 =
      some (.toQueue true 0 [⟨0, 1⟩], true) :=
  @of_decide_eq_true _ (Machine.instDecidableEqChecked _ _) (by decide +kernel)

/-- A worker that executes an item before it has been counted takes its nested
call for the first one, and spins.  Its slice is stolen, and the call inside the
stolen slice waits for the worker. -/
theorem circular_wait : Exists fun state => (orderlySystem (smallPool Unit)).Reachable state ∧
    (Exists fun thread => Exists fun frame => Exists fun call =>
      frame ∈ state.callStack thread ∧ frame.call = some call) ∧ ¬ Advances (smallPool Unit) state := by
  have start : Modest Orderly (smallPool Unit) 0 ⟨Shared.fresh, (smallPool Unit).initialStack⟩ := modest_initial
  -- a caller fires an item, which is queued before it is counted
  have called := start.orderly (some ()) rfl (.call (.fire .outside () rfl (Or.inl rfl))) nofun rfl
  have loaded := called.orderly (some ()) rfl (.fire (.loadRotor () _)) nofun rfl
  have chosen := loaded.orderly (some ()) rfl (.fire (.stick () _ _ Nat.zero_lt_one)) nofun rfl
  have queued := chosen.orderly (some ()) rfl (.fire (.enqueue () _ _)) nofun rfl
  have notified := queued.orderly (some ()) rfl (.fire (.notify () _ _ _)) nofun rfl
  -- the worker executes the item; its call takes itself for the first one
  have taken := notified.orderly none rfl (.worker (.takeOwn () 0 [] _ [] rfl rfl rfl)) nofun rfl
  have invoked := taken.orderly none rfl (.execution (.invoke _ _)) nofun rfl
  have spreads := invoked.orderly none rfl (.call (.spread _ () 2 1 rfl (Or.inl rfl))) nofun rfl
  have unaware := spreads.orderly none rfl (.spread (.loadItems () _ _)) nofun rfl
  have planned := unaware.orderly none rfl (.spread (.plan () _ _ _ _ _ (planned_of plan_unaware rfl rfl rfl rfl rfl))) nofun rfl
  -- now the item is counted, and the caller's own call sees the shop busy
  have added := planned.orderly (some ()) rfl (.fire (.addItem () _ _)) nofun rfl
  have counted := added.orderly (some ()) rfl (.fire (.countInFlight () _)) nofun rfl
  have fired := counted.orderly (some ()) rfl (.call (.fired () _ _)) nofun rfl
  have second := fired.orderly (some ()) rfl (.call (.spread _ () 1 1 rfl (Or.inl rfl))) nofun rfl
  have aware := second.orderly (some ()) rfl (.spread (.loadItems () _ _)) nofun rfl
  have alone := aware.orderly (some ()) rfl (.spread (.plan () _ _ _ _ _ (planned_of plan_alone rfl rfl rfl rfl rfl))) nofun rfl
  have empty := alone.orderly (some ()) rfl (.spread (.initializeEmpty () _ _)) nofun rfl
  have registered := empty.orderly (some ()) rfl (.spread (.callerRegister () _ _)) nofun rfl
  have announced := registered.orderly (some ()) rfl (.spread (.callerCount () _ _ _)) nofun rfl
  have invokedOwn := announced.orderly (some ()) rfl (.execution (.invoke _ _)) nofun rfl
  have finishedOwn := invokedOwn.orderly (some ()) rfl (.execution (.finish _ _)) nofun rfl
  have arrivedOwn := finishedOwn.orderly (some ()) rfl (.execution (.arrive _ _)) nofun rfl
  have completedOwn := arrivedOwn.orderly (some ()) rfl (.spread (.callerComplete () _ _)) nofun rfl
  -- the worker queues a slice with its own token, which the caller steals
  have slice := completedOwn.orderly none rfl (.spread (.registerSlice () _ _ _ _ _ _ _ _)) nofun rfl
  have sliceCounted := slice.orderly none rfl (.spread (.countSlice () _ _ _ _ _ _ _)) nofun rfl
  have sliceQueued := sliceCounted.orderly none rfl (.spread (.enqueueSlices () _ _ _ _ _ _)) nofun rfl
  have looks := sliceQueued.orderly (some ()) rfl (.spread (.stealBegin () _ _ rfl)) nofun rfl
  have steals := looks.orderly (some ()) rfl (.spread (.steal () _ _ [] _ [] rfl rfl)) nofun rfl
  have invokedStolen := steals.orderly (some ()) rfl (.execution (.invoke _ _)) nofun rfl
  -- the stolen slice calls again
  have third := invokedStolen.orderly (some ()) rfl (.call (.spread _ () 1 1 rfl (Or.inl rfl))) nofun rfl
  -- the worker finishes its own part, finds the queue empty and spins
  have root := third.orderly none rfl (.spread (.notifyRoot () _ _ _ _)) nofun rfl
  have ownPart := root.orderly none rfl (.spread (.callerRegister () _ _)) nofun rfl
  have ownCounted := ownPart.orderly none rfl (.spread (.callerCount () _ _ _)) nofun rfl
  have ownInvoked := ownCounted.orderly none rfl (.execution (.invoke _ _)) nofun rfl
  have ownFinished := ownInvoked.orderly none rfl (.execution (.finish _ _)) nofun rfl
  have ownArrived := ownFinished.orderly none rfl (.execution (.arrive _ _)) nofun rfl
  have ownCompleted := ownArrived.orderly none rfl (.spread (.callerComplete () _ _)) nofun rfl
  have search := ownCompleted.orderly none rfl (.spread (.stealBegin () _ _ rfl)) nofun rfl
  have found := search.orderly none rfl (.spread (.stealEmpty () _ _ nofun)) nofun rfl
  have spins := found.orderly none rfl (.spread (.joinSpin () _ _ rfl)) nofun rfl
  -- the nested call of the caller queues its part and waits for the worker
  have busy := spins.orderly (some ()) rfl (.spread (.loadItems () _ _)) nofun rfl
  have waits := busy.orderly (some ()) rfl (.spread (.plan () _ _ _ _ _ (planned_of plan_crowded rfl rfl rfl rfl rfl))) nofun rfl
  have partCounted := waits.orderly (some ()) rfl (.spread (.countParts () _ _ _)) nofun rfl
  have part := partCounted.orderly (some ()) rfl (.spread (.initializeBarrier () _ _ _)) nofun rfl
  have partQueued := part.orderly (some ()) rfl (.spread (.enqueueParts () _ _ _)) nofun rfl
  have everyone := partQueued.orderly (some ()) rfl (.spread (.notifyAll () _ _ _ Nat.zero_lt_one)) nofun rfl
  have all := everyone.orderly (some ()) rfl (.spread (.notifiedAll () _ _ _ (Nat.le_refl 1))) nofun rfl
  have blocked := all.orderly (some ()) rfl (.spread (.stealSkip () _ _)) nofun rfl
  refine ⟨_, blocked.reachable, ⟨none, _, 0, List.mem_cons_self, rfl⟩, not_advances ?_⟩
  intro thread frame rest place
  cases thread with
  | none =>
      cases place
      exact rfl
  | some caller =>
      cases place
      exact (by decide : (1 : BitVec 32) ≠ 0)

end Shop
end Sweater
