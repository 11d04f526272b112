import Sweater.Shop.NestedSpreads
import Sweater.Shop.Coverage

namespace Sweater
namespace Shop

open Threading
open Spread
open Interleaving
open Interleaving.Stacked

/-!
# Calls of `spread_work` whose enqueues fail

A refused bulk is taken back, and the caller executes all iterations itself.
The slices that the queue refuses in `dispatch_workers` are not: their arrivals
stay expected, and the call never returns.

Whatever fails, a call that does return has executed each of its iterations
once.  That calls return is stated as it can be for a system of interleaved
steps: wherever a run has got to, the steps of the threads that are already
inside the shop can bring all calls to their ends.
-/

variable {Thread : Type} {program : Program Unit}

section Runs

variable [Fintype Thread] [DecidableEq Thread] {pool : Pool program Thread}
  {state : Stacked Thread (Frame Unit program.bits) (Shared program)}

/-! ## Calls can be brought to their ends -/

/-- The effort that is left in the frames and in the queue. -/
def effortLeft (state : Stacked Thread (Frame Unit program.bits) (Shared program)) : Nat :=
  state.total (Frame.effort (program.workers ())) + 80 * state.shared.queue.length

/-- A step that eases plans a call, or lowers the effort that is left. -/
theorem Eases.lowered {thread : Thread} {frame : Frame Unit program.bits} {rest frames : List (Frame Unit program.bits)}
    {shared : Shared program} (place : state.callStack thread = frame :: rest)
    (eases : Eases pool state.callStack thread state.shared frame shared frames) :
    (state.replaceTop thread shared (frames ++ rest)).total Frame.unplanned < state.total Frame.unplanned ∨
      (state.replaceTop thread shared (frames ++ rest)).total Frame.unplanned = state.total Frame.unplanned ∧
        effortLeft (state.replaceTop thread shared (frames ++ rest)) < effortLeft state := by
  have unplanned := total_replaceTop Frame.unplanned state place shared frames
  have effort := total_replaceTop (Frame.effort (program.workers ())) state place shared frames
  rcases eases.lowers with plans | ⟨same, less⟩
  · left
    omega
  · right
    refine ⟨by omega, ?_⟩
    change _ + 80 * shared.queue.length < _ + 80 * state.shared.queue.length
    omega

/-- A step begins no spread and fires no item. -/
structure CallFree (before after : Stacked Thread (Frame Unit program.bits) (Shared program)) : Prop where
  calls : after.shared.nextCall = before.shared.nextCall
  items : after.shared.created.countP Work.isItem = before.shared.created.countP Work.isItem

/-- The steps of a run without new calls, in which no slice is refused and calls
on worker threads detect that they are nested. -/
def undisturbedSystem (pool : Pool program Thread) :
    System (Stacked Thread (Frame Unit program.bits) (Shared program)) :=
  (shopSystem pool).stepsWhere (fun before after =>
    (Orderly before after ∧ Detects pool before after) ∧ CallFree before after)

/-- Wherever a run has got to, all calls can be brought to their ends without
any new one, unless what they announce themselves brings a counter to its
range. -/
theorem calls_return (staffed : 0 < program.workers ()) (representable : program.workers () + 1 < 2 ^ program.bits)
    (reachable : (detectingSystem pool).Reachable state) :
    Exists fun later => (undisturbedSystem pool).Continues state later ∧
      ((forall thread frame, frame ∈ later.callStack thread -> frame.call = none) ∨ ¬ Sized later) := by
  induction plans : state.total Frame.unplanned using Nat.strong_induction_on generalizing state with
  | _ unplanned fewerPlans =>
    induction left : effortLeft state using Nat.strong_induction_on generalizing state with
    | _ effort lessEffort =>
      by_cases returned : forall thread frame, frame ∈ state.callStack thread -> frame.call = none
      · exact ⟨state, .refl, Or.inl returned⟩
      · have eases : Exists fun thread => Exists fun frame => Exists fun rest => Exists fun shared =>
            Exists fun frames => state.callStack thread = frame :: rest ∧
              Eases pool state.callStack thread state.shared frame shared frames := by
          by_contra stuck
          apply returned
          intro thread frame member
          have standstill : Standstill pool state := by
            refine ⟨reachable, staffed, representable, ?_⟩
            rintro thread frame rest place ⟨shared, frames, eases⟩
            exact stuck ⟨thread, frame, rest, shared, frames, place, eases⟩
          exact standstill.no_call member
        rcases eases with ⟨thread, frame, rest, shared, frames, place, eases⟩
        have step : (undisturbedSystem pool).step state (state.replaceTop thread shared (frames ++ rest)) :=
          ⟨.top thread frame rest shared frames place eases.move,
            ⟨.of_move place eases.running eases.queued eases.emptiness, .of_move place eases.detection⟩,
            ⟨eases.calls, eases.items⟩⟩
        by_cases sized : Sized (state.replaceTop thread shared (frames ++ rest))
        · have further := System.Reachable.step reachable ⟨⟨step.1, step.2.1⟩, sized⟩
          have finish : Exists fun later =>
              (undisturbedSystem pool).Continues (state.replaceTop thread shared (frames ++ rest)) later ∧
                ((forall thread frame, frame ∈ later.callStack thread -> frame.call = none) ∨ ¬ Sized later) := by
            rcases eases.lowered place with fewer | ⟨same, less⟩
            · exact fewerPlans _ (plans ▸ fewer) further rfl
            · exact lessEffort _ (left ▸ less) further (same.trans plans) rfl
          rcases finish with ⟨later, continues, ends⟩
          exact ⟨later, .head step continues, ends⟩
        · exact ⟨_, .single step, Or.inr sized⟩

/-- In a run in which the slices of `dispatch_workers` are accepted, and calls on
worker threads detect that they are nested, a call that is about to return has
executed each of its iterations once, and all calls can be brought to their ends
by the threads that are already inside the shop.  Refused items and refused
bulks make no difference. -/
theorem refusals_lose_nothing (staffed : 0 < program.workers ())
    (representable : program.workers () + 1 < 2 ^ program.bits) (reachable : (detectingSystem pool).Reachable state) :
    (forall thread call locals, .spread () call locals .finished ∈ state.callStack thread -> forall iteration,
      state.shared.invoked.countP (Work.covers call iteration) =
          (if iteration < locals.iterations.toNat then 1 else 0) ∧
        state.shared.finished.countP (Work.covers call iteration) =
          (if iteration < locals.iterations.toNat then 1 else 0)) ∧
    Exists fun later => (undisturbedSystem pool).Continues state later ∧
      ((forall thread frame, frame ∈ later.callStack thread -> frame.call = none) ∨ ¬ Sized later) := by
  constructor
  · intro thread call locals returning iteration
    exact executed_once_of_finished (fun _ => staffed) (fun _ => representable) (sizedSystem_of_stepsWhere reachable)
      returning iteration
  · exact calls_return staffed representable reachable

end Runs

/-! ## A shop whose queue may refuse -/

/-- The smallest shop, with a queue that may run out of memory. -/
def refusingProgram : Program Unit := { smallProgram with enqueueMayFail := true }

private theorem plan_first : spreadWork (⟨1, 0, 4, false, true⟩ : Situation 16) 2 1 =
      some (.toWorkers 1 1 [⟨0, [⟨1, 2⟩]⟩], true) :=
  @of_decide_eq_true _ (Machine.instDecidableEqChecked _ _) (by decide +kernel)

/-- A call for one iteration, while two fired items are queued.  Its bulk is
refused, the caller executes the iteration, and the call is about to return. -/
theorem refused_bulk_joined : Exists fun state =>
    (detectingSystem (singlePool refusingProgram rfl Unit)).Reachable state ∧
      state.shared.dropped = [.part ⟨2, 0, ⟨0, 1⟩⟩] ∧
      .spread () 0 ⟨1, 1, 1, true, false, false⟩ .finished ∈ state.callStack (some ()) := by
  have start : Modest
      (fun before after => Orderly before after ∧ Detects (singlePool refusingProgram rfl Unit) before after)
      (singlePool refusingProgram rfl Unit) 0 ⟨Shared.fresh, (singlePool refusingProgram rfl Unit).initialStack⟩ :=
    modest_initial
  -- the caller fires two items
  have fires := start.detecting (some ()) rfl (.call (.fire .outside () rfl (Or.inl rfl))) nofun nofun rfl
  have loaded := fires.detecting (some ()) rfl (.fire (.loadRotor () _)) nofun nofun rfl
  have sticks := loaded.detecting (some ()) rfl (.fire (.stick () _ _ Nat.zero_lt_one)) nofun nofun rfl
  have queued := sticks.detecting (some ()) rfl (.fire (.enqueue () _ _)) nofun nofun rfl
  have notified := queued.detecting (some ()) rfl (.fire (.notify () _ _ _)) nofun nofun rfl
  have added := notified.detecting (some ()) rfl (.fire (.addItem () _ _)) nofun nofun rfl
  have counted := added.detecting (some ()) rfl (.fire (.countInFlight () _)) nofun nofun rfl
  have fired := counted.detecting (some ()) rfl (.call (.fired () _ _)) nofun nofun rfl
  have fires' := fired.detecting (some ()) rfl (.call (.fire .outside () rfl (Or.inl rfl))) nofun nofun rfl
  have loaded' := fires'.detecting (some ()) rfl (.fire (.loadRotor () _)) nofun nofun rfl
  have sticks' := loaded'.detecting (some ()) rfl (.fire (.stick () _ _ Nat.zero_lt_one)) nofun nofun rfl
  have queued' := sticks'.detecting (some ()) rfl (.fire (.enqueue () _ _)) nofun nofun rfl
  have notified' := queued'.detecting (some ()) rfl (.fire (.notify () _ _ _)) nofun nofun rfl
  have added' := notified'.detecting (some ()) rfl (.fire (.addItem () _ _)) nofun nofun rfl
  have counted' := added'.detecting (some ()) rfl (.fire (.countInFlight () _)) nofun nofun rfl
  have fired' := counted'.detecting (some ()) rfl (.call (.fired () _ _)) nofun nofun rfl
  -- its call finds them, and the queue refuses the part
  have called := fired'.detecting (some ()) rfl (.call (.spread .outside () 1 1 rfl (Or.inl rfl))) nofun nofun rfl
  have looked := called.detecting (some ()) rfl (.spread (.loadItems () _ _)) nofun nofun rfl
  have planned := looked.detecting (some ()) rfl
    (.spread (.plan () _ _ _ _ _ (planned_of plan_bulk rfl rfl rfl rfl rfl))) nofun nofun rfl
  have announced := planned.detecting (some ()) rfl (.spread (.countParts () _ _ _)) nofun nofun rfl
  have expected := announced.detecting (some ()) rfl (.spread (.initializeBarrier () _ _ _)) nofun nofun rfl
  have refused := expected.detecting (some ()) rfl (.spread (.refuseParts () _ _ _ rfl)) nofun nofun rfl
  have reset := refused.detecting (some ()) rfl (.spread (.resetBarrier () _ _ _)) nofun nofun rfl
  have registered := reset.detecting (some ()) rfl (.spread (.callerRegister () _ _)) nofun nofun rfl
  have own := registered.detecting (some ()) rfl (.spread (.callerCount () _ _ _)) nofun nofun rfl
  have invoked := own.detecting (some ()) rfl (.execution (.invoke _ _)) nofun nofun rfl
  have finished := invoked.detecting (some ()) rfl (.execution (.finish _ _)) nofun nofun rfl
  have arrived := finished.detecting (some ()) rfl (.execution (.arrive _ _)) nofun nofun rfl
  have completed := arrived.detecting (some ()) rfl (.spread (.callerComplete () _ _)) nofun nofun rfl
  have skipped := completed.detecting (some ()) rfl (.spread (.stealSkip () _ _)) nofun nofun rfl
  have waited := skipped.detecting (some ()) rfl (.spread (.waitOver () _ _ rfl)) nofun nofun rfl
  exact ⟨_, waited.reachable, rfl, List.mem_cons_self⟩

/-- The iteration of the refused part has been executed once, and the call and
the items can be brought to their ends. -/
theorem refusals_lose_nothing_refused : Exists fun state =>
    (detectingSystem (singlePool refusingProgram rfl Unit)).Reachable state ∧
      state.shared.dropped = [.part ⟨2, 0, ⟨0, 1⟩⟩] ∧
      state.shared.invoked.countP (Work.covers 0 0) = 1 ∧ state.shared.finished.countP (Work.covers 0 0) = 1 ∧
      Exists fun later => (undisturbedSystem (singlePool refusingProgram rfl Unit)).Continues state later ∧
        ((forall thread frame, frame ∈ later.callStack thread -> frame.call = none) ∨ ¬ Sized later) := by
  rcases refused_bulk_joined with ⟨state, reachable, refused, returning⟩
  have staffed : 0 < refusingProgram.workers () := Nat.zero_lt_one
  have representable : refusingProgram.workers () + 1 < 2 ^ refusingProgram.bits := by decide
  have holds := refusals_lose_nothing staffed representable reachable
  have once := holds.1 (some ()) 0 _ returning 0
  exact ⟨state, reachable, refused, once.1, once.2, holds.2⟩

/-! ## Refused slices -/

section Steps

variable {Shop : Type} [DecidableEq Shop] {program : Program Shop} {pool : Pool program Thread}
  {callStack : Thread -> List (Frame Shop program.bits)} {thread : Thread} {shared shared' : Shared program}
  {frame : Frame Shop program.bits} {frames : List (Frame Shop program.bits)}

theorem ShopStep.lost_grows (move : ShopStep pool callStack thread shared frame shared' frames) :
    shared.lost.Sublist shared'.lost := by
  cases move with
  | worker move => cases move <;> exact .refl _
  | execution move => cases move <;> exact .refl _
  | fire move => cases move <;> exact .refl _
  | spread move =>
      cases move with
      | refuseSlices => exact List.sublist_append_left _ _
      | _ => exact .refl _
  | stop move => cases move <;> exact .refl _
  | call move => cases move <;> exact .refl _

/-- A call stays on its stack until it is about to return. -/
theorem ShopStep.stays_called (move : ShopStep pool callStack thread shared frame shared' frames) {call : Nat}
    (own : frame.call = some call) (unfinished : forall shop locals, frame ≠ .spread shop call locals .finished) :
    Exists fun next => next ∈ frames ∧ next.call = some call := by
  rcases move.frames_cases with rfl | ⟨next, rfl, same⟩ | ⟨called, rfl, _⟩
  · exfalso
    cases move with
    | worker move | execution move | fire move | spread move | stop move => cases move
    | call move =>
        cases move with
        | fired | stopped => cases own
        | spreadReturn shop call' locals =>
            cases own
            exact unfinished shop locals rfl
  · exact ⟨next, List.mem_singleton_self _, same.trans own⟩
  · exact ⟨frame, List.mem_cons_of_mem _ (List.mem_singleton_self _), own⟩

variable [Fintype Thread] [DecidableEq Thread]

/-- A call that has lost a slice does not return. -/
theorem called_of_lost {state later : Stacked Thread (Frame Shop program.bits) (Shared program)}
    (reachable : (boundedShopSystem pool).Reachable state) {call : Nat}
    (lost : 0 < state.shared.lost.countP (Work.ofCall call))
    (called : Exists fun thread => Exists fun frame => frame ∈ state.callStack thread ∧ frame.call = some call)
    (continues : (boundedShopSystem pool).Continues state later) :
    Exists fun thread => Exists fun frame => frame ∈ later.callStack thread ∧ frame.call = some call := by
  have both : 0 < later.shared.lost.countP (Work.ofCall call) ∧
      Exists fun thread => Exists fun frame => frame ∈ later.callStack thread ∧ frame.call = some call := by
    apply continues.invariant reachable ⟨lost, called⟩
    rintro before after earlier ⟨lost, thread, frame, member, own⟩ move
    have unfinished : forall thread shop locals, .spread shop call locals .finished ∉ before.callStack thread := by
      intro thread shop locals returning
      have settled := settled_of_outstanding earlier.of_within (outstanding_of_finished earlier returning)
      exact Nat.ne_of_gt lost settled.2.2
    cases move.1 with
    | top mover top rest shared frames place localStep =>
        refine ⟨Nat.lt_of_lt_of_le lost localStep.lost_grows.countP_le, ?_⟩
        by_cases same : thread = mover
        · subst same
          rw [place] at member
          rcases List.mem_cons.mp member with rfl | below
          · have stays := localStep.stays_called own (fun shop locals same =>
              unfinished thread shop locals (by rw [place, same]; exact List.mem_cons_self))
            rcases stays with ⟨next, new, still⟩
            exact ⟨thread, next, by rw [callStack_replaceTop]; exact List.mem_append_left _ new, still⟩
          · exact ⟨thread, frame, by rw [callStack_replaceTop]; exact List.mem_append_right _ below, own⟩
        · exact ⟨thread, frame, by rw [callStack_replaceTop_of_ne before same]; exact member, own⟩
  exact both.2

end Steps

/-- A call for two iterations whose only slice the queue refuses: it has not
returned in any later state. -/
theorem refused_slice_never_returns : Exists fun state =>
    (boundedShopSystem (singlePool refusingProgram rfl Unit)).Reachable state ∧
      forall later, (boundedShopSystem (singlePool refusingProgram rfl Unit)).Continues state later ->
        Exists fun thread => Exists fun frame => frame ∈ later.callStack thread ∧ frame.call = some 0 := by
  have start : (shopSystem (singlePool refusingProgram rfl Unit)).Reachable
      ⟨Shared.fresh, (singlePool refusingProgram rfl Unit).initialStack⟩ := .initial rfl
  have called := advance start (some ()) rfl (.call (.spread .outside () 2 1 rfl (Or.inl rfl)))
  have loaded := advance called (some ()) rfl (.spread (.loadItems () _ _))
  have planned := advance loaded (some ()) rfl
    (.spread (.plan () _ _ _ _ _ (planned_of plan_first rfl rfl rfl rfl rfl)))
  have registered := advance planned (some ()) rfl (.spread (.registerSlice () _ _ _ _ _ _ _ _))
  have counted := advance registered (some ()) rfl (.spread (.countSlice () _ _ _ _ _ _ _))
  have refused := advance counted (some ()) rfl (.spread (.refuseSlices () _ _ _ _ _ _ rfl))
  have bounded := boundedShopSystem_of_few refused (by decide)
  refine ⟨_, bounded, fun later continues => called_of_lost bounded (by decide) ?_ continues⟩
  exact ⟨some (), _, List.mem_cons_self, rfl⟩

end Shop
end Sweater
