import Sweater.Interleaving.ForkJoin
import Sweater.Shop.NoStranding

namespace Sweater
namespace Shop

open Threading
open Spread
open Interleaving
open Interleaving.Stacked

/-!
# The shops as a pool that forks and joins

The calls of `spread_work` are the calls of an abstract pool, and the works are
its tasks.  A part belongs to its call and an item to nobody.  A part is done
when it has arrived at the barrier, which is on the stack of its call: that no
unfinished part outlives the call is what makes the pointer to the barrier in
it safe.

What a step does to the records of the works is said once, in `Records.Step`.
-/

variable {Shop Thread : Type} {program : Program Shop}

/-! ## The records -/

/-- What is recorded about the works. -/
structure Records where
  created : List Work
  invoked : List Work
  retired : List Work
  lost : List Work
  dropped : List Work

def Shared.records (shared : Shared program) : Records :=
  ⟨shared.created, shared.invoked, shared.retired, shared.lost, shared.dropped⟩

namespace Records

/-- What has become of a work. -/
def stage (records : Records) (work : Work) : TaskStage :=
  if work ∈ records.retired then .done
  else if work ∈ records.invoked then .running
  else if work ∈ records.lost ∨ work ∈ records.dropped then .refused
  else if work ∈ records.created then .waiting
  else .unknown

theorem stage_eq_unknown {records : Records} {work : Work} (unknown : records.stage work = .unknown) :
    work ∉ records.retired ∧ work ∉ records.invoked ∧ work ∉ records.lost ∧ work ∉ records.dropped := by
  unfold stage at unknown
  split at unknown
  · cases unknown
  · split at unknown
    · cases unknown
    · split at unknown
      · cases unknown
      · rename_i retired invoked refused
        exact ⟨retired, invoked, fun lost => refused (Or.inl lost), fun dropped => refused (Or.inr dropped)⟩

theorem stage_eq_waiting {records : Records} {work : Work} (waiting : records.stage work = .waiting) :
    work ∈ records.created ∧ work ∉ records.retired ∧ work ∉ records.invoked ∧ work ∉ records.lost ∧
      work ∉ records.dropped := by
  unfold stage at waiting
  split at waiting
  · cases waiting
  · split at waiting
    · cases waiting
    · split at waiting
      · cases waiting
      · split at waiting
        · rename_i retired invoked refused created
          exact ⟨created, retired, invoked, fun lost => refused (Or.inl lost), fun dropped => refused (Or.inr dropped)⟩
        · cases waiting

theorem stage_eq_running {records : Records} {work : Work} (running : records.stage work = .running) :
    work ∈ records.invoked ∧ work ∉ records.retired := by
  unfold stage at running
  split at running
  · cases running
  · split at running
    · rename_i retired invoked
      exact ⟨invoked, retired⟩
    · split at running
      · cases running
      · split at running <;> cases running

/-! What an entry changes. -/

theorem stage_create (records : Records) {works : List Work}
    (unknown : forall work, work ∈ works -> records.stage work = .unknown) :
    { records with created := records.created ++ works }.stage =
      fun work => if work ∈ works then .waiting else records.stage work := by
  funext work
  by_cases member : work ∈ works
  · rcases stage_eq_unknown (unknown work member) with ⟨retired, invoked, lost, dropped⟩
    simp [stage, member, retired, invoked, lost, dropped]
  · simp [stage, member]

theorem stage_invoke (records : Records) {work : Work} (waiting : records.stage work = .waiting) :
    { records with invoked := records.invoked ++ [work] }.stage =
      fun other => if other ∈ [work] then .running else records.stage other := by
  funext other
  by_cases member : other ∈ [work]
  · cases List.mem_singleton.mp member
    simp [stage, stage_eq_waiting waiting]
  · simp [stage, member]

theorem stage_retire (records : Records) (work : Work) :
    { records with retired := records.retired ++ [work] }.stage =
      fun other => if other ∈ [work] then .done else records.stage other := by
  funext other
  by_cases member : other ∈ [work]
  · simp [stage, member]
  · simp [stage, member]

theorem stage_lose (records : Records) {works : List Work}
    (waiting : forall work, work ∈ works -> records.stage work = .waiting) :
    { records with lost := records.lost ++ works }.stage =
      fun work => if work ∈ works then .refused else records.stage work := by
  funext work
  by_cases member : work ∈ works
  · simp [stage, member, stage_eq_waiting (waiting work member)]
  · simp [stage, member]

theorem stage_drop (records : Records) {works : List Work}
    (waiting : forall work, work ∈ works -> records.stage work = .waiting) :
    { records with dropped := records.dropped ++ works }.stage =
      fun work => if work ∈ works then .refused else records.stage work := by
  funext work
  by_cases member : work ∈ works
  · simp [stage, member, stage_eq_waiting (waiting work member)]
  · simp [stage, member]

/-- What a step of a frame can record. -/
inductive Step {bits : Nat} (frame : Frame Shop bits) (before : Records) : Records -> Prop
  | same : Step frame before before
  | create (works : List Work) : Step frame before { before with created := before.created ++ works }
  | invoke (host : Host Shop) (work : Work) : frame = .executing host work .fetched ->
      Step frame before { before with invoked := before.invoked ++ [work] }
  | retire (host : Host Shop) (work : Work) : frame = .executing host work .leaving ->
      Step frame before { before with retired := before.retired ++ [work] }
  | lose (works : List Work) : (forall work, work ∈ works -> work ∈ frame.held) ->
      Step frame before { before with lost := before.lost ++ works }
  | drop (works : List Work) : (forall work, work ∈ works -> work ∈ frame.held) ->
      Step frame before { before with dropped := before.dropped ++ works }

end Records

section Steps

variable [DecidableEq Shop] {pool : Pool program Thread} {callStack : Thread -> List (Frame Shop program.bits)}
  {thread : Thread} {shared shared' : Shared program} {frame : Frame Shop program.bits}
  {frames : List (Frame Shop program.bits)}

theorem ShopStep.records (move : ShopStep pool callStack thread shared frame shared' frames) :
    Records.Step frame shared.records shared'.records := by
  cases move with
  | worker move => cases move <;> exact .same
  | execution move =>
      cases move with
      | invoke host work => exact .invoke host work rfl
      | finish => exact .same
      | arrive host part => exact .retire host _ rfl
      | discount host serial => exact .retire host _ rfl
  | fire move =>
      cases move with
      | refuse shop serial target =>
          refine .drop [.item serial] ?_
          intro work member
          exact member
      | _ => exact .same
  | spread move =>
      cases move with
      | registerSlice | callerRegister | initializeBarrier => exact .create _
      | refuseSlices => exact .lose _ (fun _ member => member)
      | resetBarrier => exact .drop _ (fun _ member => member)
      | _ => exact .same
  | stop move => cases move <;> exact .same
  | call move =>
      cases move with
      | fire => exact .create _
      | _ => exact .same

end Steps

/-! ## Where a work is -/

section Places

variable [DecidableEq Shop] [Fintype Thread] [DecidableEq Thread] {pool : Pool program Thread}
  {state : Stacked Thread (Frame Shop program.bits) (Shared program)} {work : Work}

/-- The account of one work. -/
structure Placed (state : Stacked Thread (Frame Shop program.bits) (Shared program)) (work : Work) : Prop where
  once : state.shared.created.count work ≤ 1
  creation : state.shared.created.count work = state.total (Frame.pending (fun other => other == work)) +
    (state.shared.queue.map Entry.work).count work + state.shared.invoked.count work +
      state.shared.lost.count work + state.shared.dropped.count work
  completion : state.shared.invoked.count work = state.total (Frame.executes (fun other => other == work) .running) +
    state.total (Frame.executes (fun other => other == work) .leaving) + state.shared.retired.count work

theorem placed (reachable : (shopSystem pool).Reachable state) (work : Work) : Placed state work := by
  have account := accounted (fun other => other == work) reachable
  have creation := account.creation
  have invocation := account.invocation
  have completion := account.completion
  simp only [Stacked.Balanced, Shared.placed] at creation invocation completion
  refine ⟨List.nodup_iff_count_le_one.mp (created_nodup reachable) work, ?_, ?_⟩
  · unfold List.count
    omega
  · unfold List.count
    omega

omit [DecidableEq Shop] [DecidableEq Thread] in
theorem Placed.stage_unknown (placed : Placed state work) (uncreated : work ∉ state.shared.created) :
    state.shared.records.stage work = .unknown := by
  have none := List.count_eq_zero.mpr uncreated
  have creation := placed.creation
  have completion := placed.completion
  have retired : work ∉ state.shared.retired := List.count_eq_zero.mp (by omega)
  have invoked : work ∉ state.shared.invoked := List.count_eq_zero.mp (by omega)
  have lost : work ∉ state.shared.lost := List.count_eq_zero.mp (by omega)
  have dropped : work ∉ state.shared.dropped := List.count_eq_zero.mp (by omega)
  simp only [Records.stage, Shared.records, retired, invoked, lost, dropped, uncreated, if_false, or_self]

omit [DecidableEq Shop] [DecidableEq Thread] in
/-- A work waits as long as a frame or the queue keeps it from being invoked. -/
theorem Placed.stage_waiting_iff (placed : Placed state work) : state.shared.records.stage work = .waiting ↔
    0 < state.total (Frame.pending (fun other => other == work)) + (state.shared.queue.map Entry.work).count work := by
  have once := placed.once
  have creation := placed.creation
  have completion := placed.completion
  constructor
  · intro waiting
    obtain ⟨created, _, invoked, lost, dropped⟩ := Records.stage_eq_waiting waiting
    have one := List.count_pos_iff.mpr created
    have none := List.count_eq_zero.mpr invoked
    have unlost := List.count_eq_zero.mpr lost
    have undropped := List.count_eq_zero.mpr dropped
    simp only [Shared.records] at one none unlost undropped
    omega
  · intro waits
    have retired : work ∉ state.shared.retired := List.count_eq_zero.mp (by omega)
    have invoked : work ∉ state.shared.invoked := List.count_eq_zero.mp (by omega)
    have lost : work ∉ state.shared.lost := List.count_eq_zero.mp (by omega)
    have dropped : work ∉ state.shared.dropped := List.count_eq_zero.mp (by omega)
    have created : work ∈ state.shared.created := List.count_pos_iff.mp (by omega)
    simp only [Records.stage, Shared.records, retired, invoked, lost, dropped, created, if_false, if_true, or_self]

omit [DecidableEq Shop] [DecidableEq Thread] in
/-- A work runs as long as a frame executes it, until its arrival or decrement. -/
theorem Placed.stage_running_iff (placed : Placed state work) : state.shared.records.stage work = .running ↔
    0 < state.total (Frame.executes (fun other => other == work) .running) +
      state.total (Frame.executes (fun other => other == work) .leaving) := by
  have once := placed.once
  have creation := placed.creation
  have completion := placed.completion
  constructor
  · intro running
    obtain ⟨invoked, retired⟩ := Records.stage_eq_running running
    have one := List.count_pos_iff.mpr invoked
    have none := List.count_eq_zero.mpr retired
    simp only [Shared.records] at one none
    omega
  · intro runs
    have retired : work ∉ state.shared.retired := List.count_eq_zero.mp (by omega)
    have invoked : work ∈ state.shared.invoked := List.count_pos_iff.mp (by omega)
    simp only [Records.stage, Shared.records, retired, invoked, if_false, if_true]

omit [DecidableEq Shop] [DecidableEq Thread] in
/-- An unfinished work is in the hands of a frame, or queued. -/
theorem Placed.unfinished_iff (placed : Placed state work) : (state.shared.records.stage work).Unfinished ↔
    0 < state.total (Frame.carries (fun other => other == work)) + (state.shared.queue.map Entry.work).count work := by
  have split := total_carries (fun other => other == work) state
  unfold TaskStage.Unfinished
  rw [placed.stage_waiting_iff, placed.stage_running_iff]
  omega

end Places

/-! ## The pool -/

/-- The call that a part belongs to. -/
def Work.joinedBy : Work -> Option Nat
  | item _ => none
  | part piece => some piece.call

theorem Work.joinedBy_eq_some_iff {work : Work} {call : Nat} : work.joinedBy = some call ↔ work.ofCall call = true := by
  cases work with
  | item serial =>
      constructor
      · nofun
      · nofun
  | part piece => exact Option.some_inj.trans beq_iff_eq.symm

section Simulation

variable [Fintype Thread]

/-- What has become of the works and of the calls. -/
def forkJoinView (state : Stacked Thread (Frame Shop program.bits) (Shared program)) : ForkJoin Work Nat where
  stage := state.shared.records.stage
  calls := fun call =>
    if 0 < state.total (Frame.belongs call) then .live
    else if call < state.shared.nextCall then .returned
    else .unbegun

variable [DecidableEq Shop] [DecidableEq Thread] {pool : Pool program Thread} {callStack : Thread -> List (Frame Shop program.bits)}
  {thread : Thread} {shared shared' : Shared program} {frame : Frame Shop program.bits}
  {frames : List (Frame Shop program.bits)}
  {state before after : Stacked Thread (Frame Shop program.bits) (Shared program)}

omit [Fintype Thread] [DecidableEq Thread] in
/-- A step begins a call, returns from one, or leaves the calls as they are. -/
theorem ShopStep.calls_cases (move : ShopStep pool callStack thread shared frame shared' frames) :
    (Exists fun shop => Exists fun locals => Exists fun point =>
      frames = [.spread shop shared.nextCall locals point, frame] ∧ shared'.nextCall = shared.nextCall + 1 ∧
        shared'.records = shared.records) ∨
    (Exists fun shop => Exists fun call => Exists fun locals =>
      frame = .spread shop call locals .finished ∧ frames = [] ∧ shared' = shared) ∨
    (shared'.nextCall = shared.nextCall ∧ forall call, weigh (Frame.belongs call) frames = frame.belongs call) := by
  cases move with
  | worker move => cases move <;> exact Or.inr (Or.inr ⟨rfl, fun _ => rfl⟩)
  | execution move =>
      cases move with
      | invoke | finish => exact Or.inr (Or.inr ⟨rfl, fun _ => rfl⟩)
      | arrive host | discount host =>
          refine Or.inr (Or.inr ⟨rfl, fun call => ?_⟩)
          rw [weigh_cons, weigh_nil, Frame.belongs, call_resume]
          rfl
  | fire move => cases move <;> exact Or.inr (Or.inr ⟨rfl, fun _ => rfl⟩)
  | spread move => cases move <;> exact Or.inr (Or.inr ⟨rfl, fun _ => rfl⟩)
  | stop move => cases move <;> exact Or.inr (Or.inr ⟨rfl, fun _ => rfl⟩)
  | call move =>
      cases move with
      | spread => exact Or.inl ⟨_, _, _, rfl, rfl, rfl⟩
      | spreadReturn => exact Or.inr (Or.inl ⟨_, _, _, rfl, rfl, rfl⟩)
      | fire | stop =>
          refine Or.inr (Or.inr ⟨rfl, fun call => ?_⟩)
          rw [weigh_cons, weigh_cons, weigh_nil]
          exact Nat.zero_add _
      | fired | stopped => exact Or.inr (Or.inr ⟨rfl, fun _ => rfl⟩)

omit [DecidableEq Shop] [DecidableEq Thread] in
theorem calls_live_iff (state : Stacked Thread (Frame Shop program.bits) (Shared program)) (call : Nat) :
    (forkJoinView state).calls call = .live ↔
      Exists fun thread => Exists fun frame => frame ∈ state.callStack thread ∧ frame.call = some call := by
  have belongs : forall frame : Frame Shop program.bits, 0 < frame.belongs call ↔ frame.call = some call := by
    intro frame
    unfold Frame.belongs
    split <;> simp_all
  have positive := total_pos_iff (Frame.belongs call) state
  simp only [belongs] at positive
  rw [← positive]
  unfold forkJoinView
  dsimp only
  split
  · exact iff_of_true rfl ‹_›
  · refine iff_of_false ?_ ‹_›
    split <;> nofun

omit [DecidableEq Shop] in
theorem calls_of_same {rest : List (Frame Shop program.bits)} (place : before.callStack thread = frame :: rest)
    (nextCall : shared.nextCall = before.shared.nextCall)
    (same : forall call, weigh (Frame.belongs call) frames = frame.belongs call) :
    (forkJoinView (before.replaceTop thread shared (frames ++ rest))).calls = (forkJoinView before).calls := by
  funext call
  have moved := total_replaceTop (Frame.belongs call) before place shared frames
  rw [same] at moved
  unfold forkJoinView
  dsimp only
  rw [Nat.add_right_cancel moved]
  change (if _ then _ else if call < shared.nextCall then _ else _) = _
  rw [nextCall]

theorem calls_of_begin (reachable : (shopSystem pool).Reachable before) {rest : List (Frame Shop program.bits)}
    (place : before.callStack thread = frame :: rest) {shop : Shop} {locals : SpreadLocals} {point : SpreadPoint program.bits}
    (nextCall : shared.nextCall = before.shared.nextCall + 1) :
    (forkJoinView before).calls before.shared.nextCall = .unbegun ∧
    (forkJoinView (before.replaceTop thread shared
      ([.spread shop before.shared.nextCall locals point, frame] ++ rest))).calls =
        ((forkJoinView before).setCall before.shared.nextCall .live).calls := by
  have none : before.total (Frame.belongs before.shared.nextCall) = 0 := by
    have bound := calls_apart reachable before.shared.nextCall
    rw [AtMost, if_neg (Nat.lt_irrefl _)] at bound
    exact Nat.eq_zero_of_le_zero bound
  constructor
  · unfold forkJoinView
    dsimp only
    rw [none, if_neg (Nat.lt_irrefl 0), if_neg (Nat.lt_irrefl _)]
  · funext call
    have moved := total_replaceTop (Frame.belongs call) before place shared
      [.spread shop before.shared.nextCall locals point, frame]
    rw [weigh_cons, weigh_cons, weigh_nil] at moved
    unfold ForkJoin.setCall forkJoinView
    dsimp only
    rw [Function.update_apply]
    by_cases own : call = before.shared.nextCall
    · have one : (Frame.spread shop before.shared.nextCall locals point : Frame Shop program.bits).belongs call = 1 :=
        if_pos (congrArg some own.symm)
      rw [if_pos own, if_pos (by omega)]
    · have nothing : (Frame.spread shop before.shared.nextCall locals point : Frame Shop program.bits).belongs call = 0 :=
        if_neg (fun same => own (Option.some.inj same).symm)
      have same : (before.replaceTop thread shared
          ([.spread shop before.shared.nextCall locals point, frame] ++ rest)).total (Frame.belongs call) =
            before.total (Frame.belongs call) := by omega
      have earlier : call < before.shared.nextCall + 1 ↔ call < before.shared.nextCall := by omega
      rw [if_neg own, same]
      change (if _ then _ else if call < shared.nextCall then _ else _) = _
      rw [nextCall]
      simp only [earlier]

theorem calls_of_return (reachable : (shopSystem pool).Reachable before) {rest : List (Frame Shop program.bits)} {shop : Shop}
    {call : Nat} {locals : SpreadLocals} (place : before.callStack thread = .spread shop call locals .finished :: rest) :
    (forkJoinView (before.replaceTop thread before.shared ([] ++ rest))).calls =
      ((forkJoinView before).setCall call .returned).calls := by
  have member : .spread shop call locals .finished ∈ before.callStack thread := by
    rw [place]
    exact List.mem_cons_self
  have begun := call_lt_nextCall reachable member rfl
  funext other
  have moved := total_replaceTop (Frame.belongs other) before place before.shared []
  rw [weigh_nil] at moved
  unfold ForkJoin.setCall forkJoinView
  dsimp only
  rw [Function.update_apply]
  by_cases own : other = call
  · have one : (Frame.spread shop call locals .finished : Frame Shop program.bits).belongs other = 1 :=
      if_pos (congrArg some own.symm)
    have once := calls_apart reachable other
    rw [AtMost, own, if_pos begun, ← own] at once
    rw [if_pos own, if_neg (by omega), own]
    exact if_pos begun
  · have nothing : (Frame.spread shop call locals .finished : Frame Shop program.bits).belongs other = 0 :=
      if_neg (fun same => own (Option.some.inj same).symm)
    rw [nothing, Nat.add_zero, Nat.add_zero] at moved
    rw [if_neg own, moved]
    rfl

/-- The rule for a step that leaves the calls as they are. -/
theorem forkJoin_records (reachable : (shopSystem pool).Reachable before) {rest : List (Frame Shop program.bits)}
    (place : before.callStack thread = frame :: rest)
    (move : ShopStep pool before.callStack thread before.shared frame shared frames)
    (nextCall : shared.nextCall = before.shared.nextCall)
    (same : forall call, weigh (Frame.belongs call) frames = frame.belongs call) :
    ForkJoin.Step Work.joinedBy (forkJoinView before)
      (forkJoinView (before.replaceTop thread shared (frames ++ rest))) := by
  have calls := calls_of_same place nextCall same
  have member : frame ∈ before.callStack thread := by
    rw [place]
    exact List.mem_cons_self
  have here : forall stage : Work -> TaskStage, shared.records.stage = stage ->
      forkJoinView (before.replaceTop thread shared (frames ++ rest)) =
        { forkJoinView before with stage := stage } := by
    intro stage recorded
    exact ForkJoin.ext recorded calls
  have waits : forall work, work ∈ frame.held ∨ work ∈ frame.inPhase .fetched ->
      before.shared.records.stage work = .waiting := by
    intro work mine
    apply (placed reachable work).stage_waiting_iff.mpr
    have own := weight_le_total (Frame.pending (fun other => other == work)) before member
    have positive : 0 < frame.pending (fun other => other == work) := by
      have counted : forall works : List Work, work ∈ works -> 0 < works.countP (fun other => other == work) :=
        fun works present => List.countP_pos_iff.mpr ⟨work, present, beq_self_eq_true work⟩
      unfold Frame.pending
      rcases mine with held | fetched
      · exact Nat.add_pos_left (counted _ held) _
      · exact Nat.add_pos_right _ (counted _ fetched)
    omega
  have entry := move.records
  generalize recorded : shared.records = records at entry here
  cases entry with
  | same =>
      rw [here _ rfl]
      exact .pause
  | create works =>
      obtain ⟨added, created, _, owned⟩ := move.creates
      obtain rfl : works = added := List.append_cancel_left ((congrArg Records.created recorded).symm.trans created)
      have fresh : forall work, work ∈ works -> before.shared.records.stage work = .unknown := by
        intro work new
        have distinct : (before.shared.created ++ works).Nodup := by
          rw [← created]
          exact created_nodup (reachable.step (.top thread frame rest shared frames place move))
        exact (placed reachable work).stage_unknown (fun old => (List.nodup_append.mp distinct).2.2 work old work new rfl)
      rw [here _ (Records.stage_create before.shared.records fresh)]
      refine .announce works (fun work new => ⟨fresh work new, fun call mine => ?_⟩)
      exact (calls_live_iff before call).mpr ⟨thread, frame, member, owned work new call (Work.joinedBy_eq_some_iff.mp mine)⟩
  | invoke host work fetched =>
      have waiting := waits work (Or.inr (by rw [fetched]; exact List.mem_singleton_self work))
      rw [here _ (Records.stage_invoke before.shared.records waiting)]
      exact .start work waiting
  | retire host work leaves =>
      have running : before.shared.records.stage work = .running := by
        apply (placed reachable work).stage_running_iff.mpr
        have own := weight_le_total (Frame.executes (fun other => other == work) .leaving) before member
        rw [leaves, Frame.executes_executing, if_pos rfl, List.countP_singleton, if_pos (beq_self_eq_true work)] at own
        omega
      rw [here _ (Records.stage_retire before.shared.records work)]
      exact .complete work running
  | lose works held =>
      have waiting := fun work (mine : work ∈ works) => waits work (Or.inl (held work mine))
      rw [here _ (Records.stage_lose before.shared.records waiting)]
      exact .refuse works waiting
  | drop works held =>
      have waiting := fun work (mine : work ∈ works) => waits work (Or.inl (held work mine))
      rw [here _ (Records.stage_drop before.shared.records waiting)]
      exact .refuse works waiting

/-- A call that is about to return has no unfinished part. -/
theorem settled_of_finished (reachable : (boundedShopSystem pool).Reachable state) {shop : Shop} {call : Nat}
    {locals : SpreadLocals} (returning : .spread shop call locals .finished ∈ state.callStack thread) (work : Work)
    (owned : work.joinedBy = some call) : ¬ (state.shared.records.stage work).Unfinished := by
  rw [(placed reachable.of_within work).unfinished_iff]
  have none := outstanding_of_finished reachable returning
  obtain ⟨noFrame, notQueued, _⟩ := settled_of_outstanding reachable.of_within none
  have part := Work.joinedBy_eq_some_iff.mp owned
  have carried : state.total (Frame.carries (fun other => other == work)) ≤ state.total (Frame.carries (Work.ofCall call)) := by
    apply total_le_total
    apply Frame.carries_le
    intro other same
    rwa [beq_iff_eq.mp same]
  have queued : (state.shared.queue.map Entry.work).count work = 0 := by
    apply List.count_eq_zero.mpr
    intro present
    exact absurd part (List.countP_eq_zero.mp notQueued work present)
  omega

/-- Every step of the shops is a move of the pool. -/
theorem forkJoin_step (reachable : (boundedShopSystem pool).Reachable before)
    (move : (boundedShopSystem pool).step before after) :
    ForkJoin.Step Work.joinedBy (forkJoinView before) (forkJoinView after) := by
  cases move.1 with
  | top thread frame rest shared frames place localStep =>
      have member : frame ∈ before.callStack thread := by
        rw [place]
        exact List.mem_cons_self
      rcases localStep.calls_cases with
        ⟨shop, locals, point, rfl, nextCall, recorded⟩ | ⟨shop, call, locals, rfl, rfl, rfl⟩ | ⟨nextCall, same⟩
      · obtain ⟨unbegun, calls⟩ := calls_of_begin reachable.of_within place nextCall
        rw [ForkJoin.ext (congrArg Records.stage recorded) calls]
        exact .begin before.shared.nextCall unbegun
      · have returned : forkJoinView (before.replaceTop thread before.shared ([] ++ rest)) =
            (forkJoinView before).setCall call .returned := ForkJoin.ext rfl (calls_of_return reachable.of_within place)
        rw [returned]
        exact .join call ((calls_live_iff before call).mpr ⟨thread, _, member, rfl⟩) (settled_of_finished reachable member)
      · exact forkJoin_records reachable.of_within place localStep nextCall same

/-- The shops refine the pool: every run is a run of calls that announce their
parts, and return when all of them have arrived or have been taken back. -/
theorem shop_refines_forkJoin (pool : Pool program Thread)
    (state : Stacked Thread (Frame Shop program.bits) (Shared program)) (reachable : (boundedShopSystem pool).Reachable state) :
    (forkJoin Work.joinedBy).Reachable (forkJoinView state) := by
  apply reachable.simulates forkJoinView
  · rintro state ⟨rfl, _⟩
    apply ForkJoin.ext
    · rfl
    · funext call
      have none := initial_total_eq_zero pool (Shared.fresh : Shared program) (Frame.belongs call) rfl (fun _ _ => rfl)
      change (if 0 < Stacked.total (Frame.belongs call) _ then CallStage.live else if call < 0 then _ else _) = _
      rw [none, if_neg (Nat.lt_irrefl 0), if_neg (Nat.not_lt_zero call)]
  · intro before after reachable move
    exact forkJoin_step reachable move

/-- The call has begun, and no frame of it is left. -/
def Gone (call : Nat) (state : Stacked Thread (Frame Shop program.bits) (Shared program)) : Prop :=
  call < state.shared.nextCall ∧ forall thread frame, frame ∈ state.callStack thread -> frame.call ≠ some call

omit [DecidableEq Shop] [DecidableEq Thread] in
theorem calls_returned_iff (state : Stacked Thread (Frame Shop program.bits) (Shared program)) (call : Nat) :
    (forkJoinView state).calls call = .returned ↔ Gone call state := by
  have live := calls_live_iff state call
  have gone : (forall thread frame, frame ∈ state.callStack thread -> frame.call ≠ some call) ↔
      (forkJoinView state).calls call ≠ .live := by
    rw [Ne, live]
    simp only [not_exists, not_and]
  unfold Gone
  rw [gone]
  unfold forkJoinView
  dsimp only
  split
  · exact iff_of_false nofun (fun both => both.2 rfl)
  · split
    · exact iff_of_true rfl ⟨‹_›, nofun⟩
    · exact iff_of_false nofun (fun both => absurd both.1 ‹_›)

end Simulation

/-! ## A short run -/

/-- The call for two iterations has returned. -/
theorem returned_pair : Exists fun state => (boundedShopSystem (smallPool Unit)).Reachable state ∧
    state.shared.retired = [.part ⟨0, 0, ⟨1, 2⟩⟩, .part ⟨1, 0, ⟨0, 1⟩⟩] ∧ Gone 0 state := by
  obtain ⟨_, joined, _, _, reachable, idle, returning, created, retired, calls⟩ := pair_run
  have returned := advance reachable.of_within (some ()) returning (.call (.spreadReturn () 0 _))
  refine ⟨_, boundedShopSystem_of_few returned ?_, ?_, ?_, ?_⟩
  · change joined.shared.created.length < _
    rw [created]
    decide
  · exact retired.trans created
  · change 0 < joined.shared.nextCall
    rw [calls]
    exact Nat.zero_lt_one
  · intro thread frame member own
    cases thread with
    | none =>
        rw [callStack_replaceTop_of_ne joined (Option.some_ne_none ()).symm, idle] at member
        rw [List.mem_singleton.mp member] at own
        cases own
    | some caller =>
        rw [callStack_replaceTop] at member
        rw [List.mem_singleton.mp member] at own
        cases own

/-- The slice of the worker and the chunk of the caller are done. -/
theorem shop_refines_forkJoin_pair :
    Exists fun state : Stacked (Option Unit) (Frame Unit smallProgram.bits) (Shared smallProgram) =>
      (forkJoin Work.joinedBy).Reachable (forkJoinView state) ∧
      (forkJoinView state).stage (.part ⟨0, 0, ⟨1, 2⟩⟩) = .done ∧
      (forkJoinView state).stage (.part ⟨1, 0, ⟨0, 1⟩⟩) = .done ∧ (forkJoinView state).calls 0 = .returned := by
  obtain ⟨state, reachable, retired, gone⟩ := returned_pair
  have done : forall work, work ∈ state.shared.retired -> (forkJoinView state).stage work = .done :=
    fun work member => if_pos member
  refine ⟨state, shop_refines_forkJoin (smallPool Unit) state reachable, done _ ?_, done _ ?_,
    (calls_returned_iff state 0).mpr gone⟩
  · rw [retired]
    decide
  · rw [retired]
    decide

end Shop
end Sweater
