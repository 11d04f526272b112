import Sweater.Shop.Shutdown

namespace Sweater
namespace Shop

open Threading
open Spread
open Interleaving
open Interleaving.Stacked

/-!
# What `number_of_items()` says about the outstanding work

`work_items_` is incremented before a part of a spread is queued and after an
item is queued, and it is decremented when a work has been left.  Hence it is
the number of outstanding works, reduced to the range of its type, whenever no
item is queued and not yet counted.  A value of zero therefore means that
nothing is outstanding, except at the positive multiples of that range: a
backlog of `2 ^ bits` works reads as an idle shop.

The outstanding works of a shop are those in its queue and those that the
frames owe to it: parts announced by `work_added_untracked()` and not queued
yet, and works that have been taken and not passed `work_completed()`.
-/

variable {Shop Thread : Type} {program : Program Shop}

/-! ## Outstanding works -/

/-- The parts that a call has announced and not yet queued, and the work that
it has executed and not yet reported as completed. -/
def SpreadPoint.announced {bits : Nat} : SpreadPoint bits -> Nat
  | .registerSlice _ _ registered _ _ => registered.length
  | .countSlice _ _ registered _ _ => registered.length - 1
  | .initializeBarrier chunks => chunks.length
  | .enqueueParts parts => parts.length
  | .resetBarrier parts => parts.length
  | .callerCompleting => 1
  | .stealCompleting => 1
  | _ => 0

/-- Between the `enqueue` of an item and its `work_items_.fetch_add`. -/
def FirePoint.uncounted : FirePoint -> Bool
  | .notify _ enqueueSucceeded => enqueueSucceeded
  | .addItem enqueueSucceeded => enqueueSucceeded
  | _ => false

namespace SpreadPoint

variable (locals : SpreadLocals)

@[simp] theorem announced_toCaller : (toCaller locals : SpreadPoint program.bits).announced = 0 := by
  unfold toCaller
  split <;> rfl

@[simp] theorem announced_nextDispatch (first : Bool) (rest : List (Dispatch program.bits)) :
    (nextDispatch locals first rest).announced = 0 := by
  cases rest with
  | nil => exact announced_toCaller locals
  | cons dispatch rest => rfl

theorem announced_dispatched (worker : Nat) (first : Bool) (rest : List (Dispatch program.bits)) :
    (if first then .notifyRoot worker rest else nextDispatch locals false rest : SpreadPoint program.bits).announced =
      0 := by
  cases first with
  | true => rfl
  | false => exact announced_nextDispatch locals false rest

@[simp] theorem announced_toJoin : (toJoin locals : SpreadPoint program.bits).announced = 0 := by
  unfold toJoin
  split <;> rfl

@[simp] theorem announced_startPlan (plan : Plan program.bits) :
    (startPlan program locals plan).2.announced = 0 := by
  cases plan with
  | nothing | inCaller iterations => rfl
  | toWorkers callerEnd sliceDiv dispatches => exact announced_nextDispatch _ true dispatches
  | toQueue queueAndWait callerEnd chunks =>
      simp only [startPlan]
      split <;> rfl

end SpreadPoint

section Weights

variable [DecidableEq Shop]

/-- The works that a frame owes to a shop. -/
def Frame.owes {bits : Nat} (shop : Shop) : Frame Shop bits -> Nat
  | .worker own _ (.completing _) => if own = shop then 1 else 0
  | .executing host _ _ => if host.shop = shop then 1 else 0
  | .spread own _ _ point => if own = shop then point.announced else 0
  | _ => 0

/-- One for a frame that has queued an item of the shop without counting it. -/
def Frame.uncounts {bits : Nat} (shop : Shop) : Frame Shop bits -> Nat
  | .fire own _ point => if own = shop ∧ point.uncounted = true then 1 else 0
  | _ => 0

/-- The works in the queue of a shop. -/
def Shared.queued (shop : Shop) (shared : Shared program) : Nat :=
  shared.queue.countP (fun entry => decide (entry.shop = shop))

/-- A registered slice precedes its counting, and only a refused bulk resets
the barrier. -/
def Frame.Announces : Frame Shop program.bits -> Prop
  | .spread _ _ _ (.countSlice _ _ registered _ _) => registered ≠ []
  | .spread _ _ _ (.resetBarrier _) => program.enqueueMayFail = true
  | _ => True

omit [DecidableEq Shop] in
theorem Frame.announces_resume (host : Host Shop) : (host.resume : Frame Shop program.bits).Announces := by
  cases host <;> trivial

@[simp] theorem owes_resume {bits : Nat} (shop : Shop) (host : Host Shop) :
    (host.resume : Frame Shop bits).owes shop = if host.shop = shop then 1 else 0 := by
  cases host <;> rfl

@[simp] theorem uncounts_resume {bits : Nat} (shop : Shop) (host : Host Shop) :
    (host.resume : Frame Shop bits).uncounts shop = 0 := by
  cases host <;> rfl

theorem owes_spread {bits : Nat} (shop own : Shop) (call : Nat) (locals : SpreadLocals)
    (point : SpreadPoint bits) :
    (Frame.spread own call locals point).owes shop = if own = shop then point.announced else 0 := by
  cases point <;> rfl

/-! ## One step -/

variable {pool : Pool program Thread} {callStack : Thread -> List (Frame Shop program.bits)}
  {thread : Thread} {shared shared' : Shared program} {frame : Frame Shop program.bits}
  {frames : List (Frame Shop program.bits)}

/-- What a step does to the counter of a shop, and to what it should count. -/
def Exchanges (shop : Shop) (shared : Shared program) (frame : Frame Shop program.bits)
    (shared' : Shared program) (frames : List (Frame Shop program.bits)) : Prop :=
  shared'.workItems shop +
      BitVec.ofNat program.bits (weigh (Frame.uncounts shop) frames + frame.owes shop + shared.queued shop) =
    shared.workItems shop +
      BitVec.ofNat program.bits (frame.uncounts shop + weigh (Frame.owes shop) frames + shared'.queued shop)

/-- A step that leaves the counter alone. -/
theorem Exchanges.unread {shop : Shop} (same : shared'.workItems shop = shared.workItems shop)
    (balance : weigh (Frame.uncounts shop) frames + frame.owes shop + shared.queued shop =
      frame.uncounts shop + weigh (Frame.owes shop) frames + shared'.queued shop) :
    Exchanges shop shared frame shared' frames := by
  rw [Exchanges, same, balance]

/-- A step that adds to the counter of one shop. -/
theorem Exchanges.add (own : Shop) (items : Nat) {shop : Shop}
    (counted : shared'.workItems =
      Function.update shared.workItems own (shared.workItems own + BitVec.ofNat program.bits items))
    (balance : (if own = shop then items else 0) + (weigh (Frame.uncounts shop) frames + frame.owes shop +
        shared.queued shop) =
      frame.uncounts shop + weigh (Frame.owes shop) frames + shared'.queued shop) :
    Exchanges shop shared frame shared' frames := by
  rw [Exchanges, ← balance, counted]
  by_cases same : own = shop
  · subst same
    rw [Function.update_self, if_pos rfl, BitVec.ofNat_add items, BitVec.add_assoc]
  · rw [Function.update_of_ne (Ne.symm same), if_neg same, Nat.zero_add]

/-- `work_completed()` takes one from the counter of one shop. -/
theorem Exchanges.complete (own : Shop) {shop : Shop}
    (counted : shared'.workItems = Function.update shared.workItems own (shared.workItems own - 1))
    (balance : weigh (Frame.uncounts shop) frames + frame.owes shop + shared.queued shop =
      frame.uncounts shop + weigh (Frame.owes shop) frames + shared'.queued shop +
        (if own = shop then 1 else 0)) :
    Exchanges shop shared frame shared' frames := by
  rw [Exchanges, balance, counted]
  by_cases same : own = shop
  · subst same
    rw [Function.update_self, if_pos rfl, BitVec.ofNat_add _ 1, BitVec.ofNat_eq_ofNat]
    ring
  · rw [Function.update_of_ne (Ne.symm same), if_neg same, Nat.add_zero]

theorem queued_append (shop : Shop) (shared : Shared program) (entries : List (Entry Shop)) :
    ({ shared with queue := shared.queue ++ entries } : Shared program).queued shop =
      shared.queued shop + entries.countP (fun entry => decide (entry.shop = shop)) := by
  rw [Shared.queued, Shared.queued, List.countP_append]

theorem queued_take (shop : Shop) {front back : List (Entry Shop)} {entry : Entry Shop}
    (place : shared.queue = front ++ entry :: back) :
    shared.queued shop = ({ shared with queue := front ++ back } : Shared program).queued shop +
      if entry.shop = shop then 1 else 0 := by
  simp only [Shared.queued, place, List.countP_append, List.countP_cons, decide_eq_true_eq]
  omega

theorem queued_parts (shop own : Shop) (token : Option Nat) (parts : List Part) :
    (parts.map (fun part => (⟨own, token, .part part⟩ : Entry Shop))).countP
        (fun entry => decide (entry.shop = shop)) = if own = shop then parts.length else 0 := by
  rw [List.countP_map]
  by_cases same : own = shop
  · rw [if_pos same, List.countP_eq_length]
    intro part _
    exact decide_eq_true same
  · rw [if_neg same, List.countP_eq_zero]
    intro part _
    simp [same]

theorem WorkerStep.exchanges (move : WorkerStep program shared frame shared' frames) (shop : Shop) :
    Exchanges shop shared frame shared' frames := by
  cases move with
  | takeOwn own index front entry back place here _ | takeAny own index front entry back place here =>
      refine Exchanges.unread rfl ?_
      rw [queued_take shop place, here]
      by_cases same : own = shop <;> simp [Frame.uncounts, Frame.owes, Host.shop, same]
      omega
  | complete own index drained =>
      refine Exchanges.complete own rfl ?_
      cases drained <;> simp [Frame.uncounts, Frame.owes, Shared.completeItem, Shared.queued] <;> omega
  | _ =>
      refine Exchanges.unread rfl ?_
      simp [Frame.uncounts, Frame.owes, Shared.queued, Shared.consume, Shared.signal]

theorem ExecutionStep.exchanges (move : ExecutionStep program shared frame shared' frames) (shop : Shop) :
    Exchanges shop shared frame shared' frames := by
  cases move with
  | invoke host work | finish host work =>
      refine Exchanges.unread rfl ?_
      simp [Frame.uncounts, Frame.owes, Shared.queued]
  | arrive host part | discount host serial =>
      refine Exchanges.unread rfl ?_
      rw [weigh_cons, weigh_cons, uncounts_resume, owes_resume]
      simp [Frame.uncounts, Frame.owes, Shared.queued, Shared.onBarrier]

theorem FireStep.exchanges (move : FireStep program shared frame shared' frames) (shop : Shop) :
    Exchanges shop shared frame shared' frames := by
  cases move with
  | enqueue own serial target =>
      refine Exchanges.unread rfl ?_
      rw [queued_append]
      simp [Frame.uncounts, Frame.owes, FirePoint.uncounted, List.countP_cons]
      omega
  | notify own serial target enqueueSucceeded =>
      refine Exchanges.unread rfl ?_
      simp [Frame.uncounts, Frame.owes, FirePoint.uncounted, Shared.signal, Shared.queued]
      rfl
  | addItem own serial enqueueSucceeded =>
      cases enqueueSucceeded with
      | true =>
          refine Exchanges.add own 1 rfl ?_
          simp [Frame.uncounts, Frame.owes, FirePoint.uncounted, Shared.addItems, Shared.queued]
      | false =>
          refine Exchanges.add own 0 rfl ?_
          simp [Frame.uncounts, Frame.owes, FirePoint.uncounted, Shared.addItems, Shared.queued]
  | _ =>
      refine Exchanges.unread rfl ?_
      simp [Frame.uncounts, Frame.owes, FirePoint.uncounted, Shared.queued]

theorem SpreadStep.exchanges {recursive : Bool} (move : SpreadStep program recursive shared frame shared' frames)
    (announces : frame.Announces) (kept : shared'.lost = shared.lost)
    (unrefused : forall shop call locals parts, frame ≠ .spread shop call locals (.resetBarrier parts)) (shop : Shop) :
    Exchanges shop shared frame shared' frames := by
  cases move with
  | registerSlice own call locals worker first registered chunk slices rest =>
      refine Exchanges.unread rfl ?_
      simp [Frame.uncounts, owes_spread, SpreadPoint.announced, Shared.queued, Shared.onBarrier]
  | countSlice own call locals worker first registered slices rest =>
      refine Exchanges.add own 1 rfl ?_
      have some : 0 < registered.length := List.length_pos_of_ne_nil announces
      simp only [weigh_cons, weigh_nil, Frame.uncounts, owes_spread, SpreadPoint.announced, Shared.addItems,
        Shared.queued]
      split <;> omega
  | enqueueSlices own call locals worker first registered rest =>
      refine Exchanges.unread rfl ?_
      rw [queued_append, queued_parts]
      simp only [weigh_cons, weigh_nil, Frame.uncounts, owes_spread, SpreadPoint.announced_dispatched]
      simp only [SpreadPoint.announced]
      split <;> omega
  | refuseSlices own call locals worker first registered rest mayFail =>
      have none : registered = [] := List.map_eq_nil_iff.mp (List.append_right_eq_self.mp kept)
      refine Exchanges.unread rfl ?_
      simp only [weigh_cons, weigh_nil, Frame.uncounts, owes_spread, SpreadPoint.announced_dispatched, none]
      split <;> rfl
  | resetBarrier => exact absurd rfl (unrefused _ _ _ _)
  | countParts own call locals chunks =>
      refine Exchanges.add own chunks.length rfl ?_
      simp [Frame.uncounts, owes_spread, SpreadPoint.announced, Shared.addItems, Shared.queued]
  | initializeBarrier own call locals chunks =>
      refine Exchanges.unread rfl ?_
      simp [Frame.uncounts, owes_spread, SpreadPoint.announced, Shared.queued, Shared.onBarrier, partsOf_length]
  | enqueueParts own call locals parts =>
      refine Exchanges.unread rfl ?_
      rw [queued_append, queued_parts]
      simp only [weigh_cons, weigh_nil, Frame.uncounts, owes_spread, SpreadPoint.announced]
      split <;> omega
  | callerCount own call locals part =>
      refine Exchanges.add own 1 rfl ?_
      simp [Frame.uncounts, Frame.owes, SpreadPoint.announced, Shared.addItems, Shared.queued, Host.shop]
      rfl
  | callerComplete own call locals =>
      refine Exchanges.complete own rfl ?_
      cases locals.immediate <;>
        simp [Frame.uncounts, owes_spread, SpreadPoint.announced, Shared.completeItem, Shared.queued] <;> omega
  | steal own call locals front entry back place here =>
      refine Exchanges.unread rfl ?_
      rw [queued_take shop place, here]
      by_cases same : own = shop <;> simp [Frame.uncounts, Frame.owes, SpreadPoint.announced, Host.shop, same]
      omega
  | stealComplete own call locals =>
      refine Exchanges.complete own rfl ?_
      simp [Frame.uncounts, owes_spread, SpreadPoint.announced, Shared.completeItem, Shared.queued]
      omega
  | spinOver own call locals isStalled =>
      refine Exchanges.unread rfl ?_
      cases isStalled <;> simp [Frame.uncounts, owes_spread, SpreadPoint.announced]
  | plan | notifyRoot | notifiedAll | initializeEmpty | stealSkip | stealEmpty =>
      refine Exchanges.unread rfl ?_
      rw [weigh_cons, weigh_cons, owes_spread, owes_spread]
      simp only [SpreadPoint.announced_startPlan, SpreadPoint.announced_nextDispatch,
        SpreadPoint.announced_toCaller, SpreadPoint.announced_toJoin]
      simp [Frame.uncounts, SpreadPoint.announced, Shared.queued, Shared.onBarrier, Shared.signal]
  | _ =>
      refine Exchanges.unread rfl ?_
      simp [Frame.uncounts, owes_spread, SpreadPoint.announced, Shared.queued, Shared.onBarrier, Shared.signal]

/-- Where every enqueue succeeds, no slice is lost. -/
theorem ShopStep.lost_eq (move : ShopStep pool callStack thread shared frame shared' frames)
    (succeeds : program.enqueueMayFail = false) : shared'.lost = shared.lost := by
  cases move with
  | worker move => cases move <;> rfl
  | execution move => cases move <;> rfl
  | fire move => cases move <;> rfl
  | spread move =>
      cases move with
      | refuseSlices _ _ _ _ _ _ _ mayFail => cases succeeds.symm.trans mayFail
      | _ => rfl
  | stop move => cases move <;> rfl
  | call move => cases move <;> rfl

/-- A call from user code puts a frame on top that owes nothing yet. -/
theorem Exchanges.call {shop : Shop} {new : Frame Shop program.bits} (calling : frame.mayCall = true)
    (same : shared'.workItems = shared.workItems) (queue : shared'.queue = shared.queue)
    (owes : new.owes shop = 0) (uncounts : new.uncounts shop = 0) :
    Exchanges shop shared frame shared' [new, frame] := by
  have counts : frame.uncounts shop = 0 := by
    cases frame <;> first | rfl | contradiction
  refine Exchanges.unread (congrFun same shop) ?_
  simp only [Shared.queued, queue, weigh_cons, weigh_nil, counts, owes, uncounts, Nat.zero_add, Nat.add_zero]

theorem CallStep.exchanges (move : CallStep pool callStack thread shared frame shared' frames) (shop : Shop) :
    Exchanges shop shared frame shared' frames := by
  cases move with
  | fire frame own calling =>
      exact .call calling rfl rfl rfl (by simp [Frame.uncounts, FirePoint.uncounted])
  | stop frame own calling => exact .call calling rfl rfl rfl rfl
  | spread frame own iterations parallelizable calling =>
      refine .call calling rfl rfl ?_ rfl
      have nothing : (if iterations = 0 then SpreadPoint.finished else .loadItems :
          SpreadPoint program.bits).announced = 0 := by
        split <;> rfl
      rw [owes_spread, nothing]
      exact ite_self 0
  | fired | spreadReturn | stopped =>
      refine Exchanges.unread rfl ?_
      simp [Frame.uncounts, Frame.owes, FirePoint.uncounted, SpreadPoint.announced, Shared.queued]

theorem ShopStep.exchanges (move : ShopStep pool callStack thread shared frame shared' frames)
    (announces : frame.Announces) (kept : shared'.lost = shared.lost)
    (unrefused : forall shop call locals parts, frame ≠ .spread shop call locals (.resetBarrier parts)) (shop : Shop) :
    Exchanges shop shared frame shared' frames := by
  cases move with
  | worker move => exact move.exchanges shop
  | execution move => exact move.exchanges shop
  | fire move => exact move.exchanges shop
  | spread move => exact move.exchanges announces kept unrefused shop
  | stop move =>
      cases move <;> exact .unread rfl (by simp [Frame.uncounts, Frame.owes, Shared.queued, Shared.signal])
  | call move => exact move.exchanges shop

omit [DecidableEq Shop] in
theorem SpreadPoint.announces_toCaller (shop : Shop) (call : Nat) (locals locals' : SpreadLocals) :
    (Frame.spread shop call locals (toCaller locals') : Frame Shop program.bits).Announces := by
  unfold toCaller
  split <;> trivial

omit [DecidableEq Shop] in
theorem SpreadPoint.announces_nextDispatch (shop : Shop) (call : Nat) (locals locals' : SpreadLocals)
    (first : Bool) (rest : List (Dispatch program.bits)) :
    (Frame.spread shop call locals (nextDispatch locals' first rest)).Announces := by
  cases rest with
  | nil => exact announces_toCaller shop call locals locals'
  | cons dispatch rest => trivial

omit [DecidableEq Shop] in
theorem SpreadPoint.announces_toJoin (shop : Shop) (call : Nat) (locals locals' : SpreadLocals) :
    (Frame.spread shop call locals (toJoin locals') : Frame Shop program.bits).Announces := by
  unfold toJoin
  split <;> trivial

theorem SpreadStep.announces {recursive : Bool} (move : SpreadStep program recursive shared frame shared' frames) :
    forall next, next ∈ frames -> next.Announces := by
  cases move <;> simp only [List.mem_singleton, forall_eq]
  case plan shop call locals itemsInShop plan exact planned =>
    cases plan with
    | nothing | inCaller iterations => trivial
    | toWorkers callerEnd sliceDiv dispatches => exact SpreadPoint.announces_nextDispatch _ _ _ _ true dispatches
    | toQueue queueAndWait callerEnd chunks =>
        simp only [startPlan]
        split <;> trivial
  case registerSlice => exact List.append_ne_nil_of_right_ne_nil _ (List.cons_ne_nil _ _)
  case enqueueSlices first registered rest | refuseSlices first registered rest _ =>
    cases first with
    | true => trivial
    | false => exact SpreadPoint.announces_nextDispatch _ _ _ _ false rest
  case notifyRoot => exact SpreadPoint.announces_nextDispatch _ _ _ _ false _
  case refuseParts mayFail => exact mayFail
  case notifiedAll | initializeEmpty | resetBarrier => exact SpreadPoint.announces_toCaller _ _ _ _
  case callerComplete => split <;> trivial
  case stealSkip | stealEmpty => exact SpreadPoint.announces_toJoin _ _ _ _
  case spinOver => split <;> trivial
  all_goals trivial

/-- Every frame announces its parts in the right order. -/
theorem ShopStep.announces (move : ShopStep pool callStack thread shared frame shared' frames)
    (announces : frame.Announces) : forall next, next ∈ frames -> next.Announces := by
  apply move.call_frames announces
  · intro other plain
    cases other with
    | spread => cases plain
    | _ => trivial
  · intro host work phase _
    exact ⟨fun _ => trivial, Frame.announces_resume host⟩
  · intro shop iterations parallelizable
    split <;> trivial
  · intro shop call locals point _ move
    exact move.announces

end Weights

/-! ## Whole runs -/

section Runs

variable [DecidableEq Shop] [Fintype Thread] [DecidableEq Thread] {pool : Pool program Thread}
  {state : Stacked Thread (Frame Shop program.bits) (Shared program)}

omit [Fintype Thread] in
theorem announces (reachable : (shopSystem pool).Reachable state) (thread : Thread)
    (frame : Frame Shop program.bits) (member : frame ∈ state.callStack thread) : frame.Announces := by
  revert thread frame
  apply reachable.invariant
  · rintro state rfl thread frame member
    rcases mem_initialStack member with rfl | ⟨shop, index, _, rfl⟩
    · trivial
    · trivial
  · intro before after _ earlier move
    apply frames_step move (fun _ _ frame => frame.Announces) earlier
    · intro thread top rest shared frames _ localStep _ holds
      exact localStep.announces holds
    · intro _ _ _ _ _ _ _ _ _ _ _ holds
      exact holds

/-- The works of a shop that have been accepted and not completed: those in its
queue, and those that some frame owes to it. -/
def outstandingWorks (shop : Shop) (state : Stacked Thread (Frame Shop program.bits) (Shared program)) : Nat :=
  state.total (Frame.owes shop) + state.shared.queued shop

/-- Every accepted item and every announced part of a shop has been executed
and has passed `work_completed()`: none is in the queue, none is about to be
queued or executed, and none has been left without being reported. -/
def AllCompleted (shop : Shop) (state : Stacked Thread (Frame Shop program.bits) (Shared program)) : Prop :=
  (forall entry, entry ∈ state.shared.queue -> entry.shop ≠ shop) ∧
    forall thread frame, frame ∈ state.callStack thread -> frame.owes shop = 0

omit [DecidableEq Thread] in
theorem outstandingWorks_eq_zero_iff (shop : Shop)
    (state : Stacked Thread (Frame Shop program.bits) (Shared program)) :
    outstandingWorks shop state = 0 ↔ AllCompleted shop state := by
  rw [outstandingWorks, Nat.add_eq_zero_iff, total_eq_zero_iff, Shared.queued, List.countP_eq_zero]
  constructor
  · rintro ⟨owes, queue⟩
    exact ⟨fun entry member same => queue entry member (decide_eq_true same), owes⟩
  · rintro ⟨queue, owes⟩
    exact ⟨owes, fun entry member same => queue entry member (of_decide_eq_true same)⟩

/-- The counter follows the outstanding works of the shop. -/
theorem itemsBalanced (succeeds : program.enqueueMayFail = false) (reachable : (shopSystem pool).Reachable state)
    (shop : Shop) :
    BalancedWord (fun shared => shared.workItems shop) (Frame.uncounts shop) (Frame.owes shop)
      (Shared.queued shop) state := by
  apply reachable.invariant
  · rintro state rfl
    have late := initial_total_eq_zero pool Shared.fresh (Frame.uncounts shop) rfl (fun _ _ => rfl)
    have early := initial_total_eq_zero pool Shared.fresh (Frame.owes shop) rfl (fun _ _ => rfl)
    rw [BalancedWord, late, early]
    rfl
  · intro before after earlier balanced move
    apply balanced.step move
    rintro thread frame rest shared frames place localStep _
    have announced := announces earlier thread frame (by rw [place]; exact List.mem_cons_self)
    apply localStep.exchanges announced (localStep.lost_eq succeeds)
    rintro own call locals parts rfl
    cases succeeds.symm.trans announced

/-- Between no `enqueue` and its counting, `number_of_items()` is the number of
outstanding works as far as its type goes. -/
theorem workItems_eq (succeeds : program.enqueueMayFail = false) (reachable : (shopSystem pool).Reachable state)
    (shop : Shop)
    (counted : forall thread frame, frame ∈ state.callStack thread -> frame.uncounts shop = 0) :
    state.shared.workItems shop = BitVec.ofNat program.bits (outstandingWorks shop state) := by
  have balanced := itemsBalanced succeeds reachable shop
  rw [BalancedWord, (total_eq_zero_iff _ state).mpr counted] at balanced
  rw [outstandingWorks, ← balanced]
  exact (BitVec.add_zero _).symm

/-- `number_of_items()` tells whether anything is outstanding unless the number
of outstanding works is a positive multiple of the range of its type. -/
theorem number_of_items_zero_iff (succeeds : program.enqueueMayFail = false)
    (reachable : (shopSystem pool).Reachable state) (shop : Shop)
    (counted : forall thread frame, frame ∈ state.callStack thread -> frame.uncounts shop = 0) :
    (state.shared.workItems shop = 0 ↔ AllCompleted shop state) ↔
      (outstandingWorks shop state = 0 ∨ ¬ 2 ^ program.bits ∣ outstandingWorks shop state) := by
  rw [workItems_eq succeeds reachable shop counted, ← outstandingWorks_eq_zero_iff]
  have wraps : BitVec.ofNat program.bits (outstandingWorks shop state) = 0 ↔
      2 ^ program.bits ∣ outstandingWorks shop state := by
    rw [← BitVec.toNat_inj, BitVec.toNat_ofNat, Nat.dvd_iff_mod_eq_zero]
    rfl
  rw [wraps]
  constructor
  · intro exact_
    by_cases none : outstandingWorks shop state = 0
    · exact Or.inl none
    · exact Or.inr (fun multiple => none (exact_.mp multiple))
  · rintro (none | notMultiple)
    · rw [none]
      simp
    · constructor
      · exact fun multiple => absurd multiple notMultiple
      · intro none
        rw [none]
        exact Nat.dvd_zero _

end Runs

/-! ## A growing backlog -/

/-- The smallest shop where `hardware_concurrency_t` has 8 bits. -/
def narrowProgram : Program Unit := { smallProgram with concurrency := .uint8, workerThreads := fun _ => 1 }

/-- A shop with one worker that has not run yet, and so many items fired. -/
structure Backlog {program : Program Unit} (items : Nat)
    (state : Stacked (Option Unit) (Frame Unit program.bits) (Shared program)) : Prop where
  caller : state.callStack (some ()) = [.outside]
  worker : state.callStack none = [.worker () 0 .drainOwn]
  running : state.shared.stopping () = false
  queued : state.shared.queue.length = items

namespace Backlog

variable {program : Program Unit} {items : Nat}
  {state : Stacked (Option Unit) (Frame Unit program.bits) (Shared program)}

theorem frames (backlog : Backlog items state) {thread : Option Unit} {frame : Frame Unit program.bits}
    (member : frame ∈ state.callStack thread) : frame = .outside ∨ frame = .worker () 0 .drainOwn := by
  cases thread with
  | none =>
      rw [backlog.worker] at member
      exact Or.inr (List.mem_singleton.mp member)
  | some caller =>
      rw [backlog.caller] at member
      exact Or.inl (List.mem_singleton.mp member)

theorem counted (backlog : Backlog items state) (thread : Option Unit) (frame : Frame Unit program.bits)
    (member : frame ∈ state.callStack thread) : frame.uncounts () = 0 := by
  rcases backlog.frames member with rfl | rfl <;> rfl

theorem outstandingWorks_eq (backlog : Backlog items state) : outstandingWorks () state = items := by
  have owed : state.total (Frame.owes ()) = 0 := by
    rw [total_eq_zero_iff]
    intro thread frame member
    rcases backlog.frames member with rfl | rfl <;> rfl
  have all : state.shared.queued () = state.shared.queue.length := by
    rw [Shared.queued, List.countP_eq_length]
    exact fun _ _ => rfl
  rw [outstandingWorks, owed, all, backlog.queued, Nat.zero_add]

/-- One more item is fired while the worker has still not run. -/
theorem grow {single : program.workers () = 1} (backlog : Backlog items state)
    (reachable : (shopSystem (singlePool program single Unit)).Reachable state) :
    Exists fun later => (shopSystem (singlePool program single Unit)).Reachable later ∧
      Backlog (items + 1) later := by
  have staffed : 0 < program.workers () := by
    rw [single]
    exact Nat.zero_lt_one
  have called := advance reachable (some ()) backlog.caller
    (.call (.fire .outside () rfl (Or.inl backlog.running)))
  have loaded := advance called (some ()) (callStack_replaceTop _ _ _ _) (.fire (.loadRotor () _))
  have chosen := advance loaded (some ()) (callStack_replaceTop _ _ _ _) (.fire (.stick () _ _ staffed))
  have queued := advance chosen (some ()) (callStack_replaceTop _ _ _ _) (.fire (.enqueue () _ _))
  have notified := advance queued (some ()) (callStack_replaceTop _ _ _ _) (.fire (.notify () _ _ _))
  have added := advance notified (some ()) (callStack_replaceTop _ _ _ _) (.fire (.addItem () _ _))
  have counted := advance added (some ()) (callStack_replaceTop _ _ _ _) (.fire (.countInFlight () _))
  have fired := advance counted (some ()) (callStack_replaceTop _ _ _ _) (.call (.fired () _ _))
  refine ⟨_, fired, ?_⟩
  constructor
  · exact callStack_replaceTop _ _ _ _
  · simp only [callStack_replaceTop_of_ne _ (Option.some_ne_none ()).symm]
    exact backlog.worker
  · exact backlog.running
  · change (state.shared.queue ++ [_]).length = items + 1
    rw [List.length_append, backlog.queued, List.length_singleton]

/-- A backlog may become arbitrarily long. -/
theorem reachable (program : Program Unit) (single : program.workers () = 1) (items : Nat) :
    Exists fun state => (shopSystem (singlePool program single Unit)).Reachable state ∧ Backlog items state := by
  induction items with
  | zero => exact ⟨⟨Shared.fresh, _⟩, .initial rfl, ⟨rfl, rfl, rfl, rfl⟩⟩
  | succ items inductionHypothesis =>
      rcases inductionHypothesis with ⟨state, reachable, backlog⟩
      exact backlog.grow reachable

end Backlog

/-- With one item fired the counter does not read zero. -/
theorem number_of_items_zero_iff_single :
    Exists fun state => (shopSystem (singlePool narrowProgram rfl Unit)).Reachable state ∧
      outstandingWorks () state = 1 ∧ (state.shared.workItems () = 0 ↔ AllCompleted () state) := by
  rcases Backlog.reachable narrowProgram rfl 1 with ⟨state, reachable, backlog⟩
  have one := backlog.outstandingWorks_eq
  refine ⟨state, reachable, one, ?_⟩
  apply (number_of_items_zero_iff rfl reachable () backlog.counted).mpr
  rw [one]
  decide

/-- Two hundred and fifty-six items are queued and `number_of_items()` reads
zero, although no thread is between an `enqueue` and its counting. -/
theorem number_of_items_zero_with_256_outstanding :
    Exists fun state => (shopSystem (singlePool narrowProgram rfl Unit)).Reachable state ∧
      (forall thread frame, frame ∈ state.callStack thread -> frame.uncounts () = 0) ∧
      state.shared.queue.length = 256 ∧ state.shared.workItems () = 0 ∧ ¬ AllCompleted () state := by
  rcases Backlog.reachable narrowProgram rfl 256 with ⟨state, reachable, backlog⟩
  have many := backlog.outstandingWorks_eq
  refine ⟨state, reachable, backlog.counted, backlog.queued, ?_, ?_⟩
  · rw [workItems_eq rfl reachable () backlog.counted, many]
    rfl
  · rw [← outstandingWorks_eq_zero_iff, many]
    decide

end Shop
end Sweater
