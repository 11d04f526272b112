import Sweater.Shop.Staff

namespace Sweater
namespace Shop

open Threading
open Spread
open Interleaving
open Interleaving.Stacked

/-!
# What is left when a shop has been destroyed

A worker finds the queue empty and reads the exit flag in two steps.  Items
that are accepted in between, and a shutdown that is requested in between, are
not seen by it; if every worker is there when the flag is set, then nobody
looks into the queue again.

Otherwise some worker drains the queue after the flag has been set.  Only the
workers can queue anything from then on, and each of them drains the queue
again after that.  So a queued item always leaves a worker to drain it, until
all workers have been joined.
-/

variable {Shop Thread : Type} {program : Program Shop}

/-! ## Who drains a shop -/

/-- One for a worker that will try the queue again before it reads the flag. -/
def Frame.drains {bits : Nat} [DecidableEq Shop] (shop : Shop) : Frame Shop bits -> Nat
  | .worker _ _ .checkExit => 0
  | .worker _ _ .exited => 0
  | .worker own _ _ => if own = shop then 1 else 0
  | .executing (.worker own _ _) _ _ => if own = shop then 1 else 0
  | _ => 0

theorem Frame.home_of_drains {bits : Nat} [DecidableEq Shop] {shop : Shop} {frame : Frame Shop bits}
    (drains : 0 < frame.drains shop) :
    (Exists fun index => frame.home = some (shop, index)) ∧ frame.left = false := by
  have same : forall own : Shop, 0 < (if own = shop then 1 else 0) -> own = shop := by
    intro own positive
    by_contra different
    rw [if_neg different] at positive
    exact Nat.lt_irrefl 0 positive
  cases frame with
  | worker own index point =>
      cases point with
      | checkExit | exited => cases drains
      | _ => exact ⟨⟨index, by rw [← same own drains]; rfl⟩, rfl⟩
  | executing host work phase =>
      cases host with
      | worker own index drained => exact ⟨⟨index, by rw [← same own drains]; rfl⟩, rfl⟩
      | caller | thief => cases drains
  | _ => cases drains

/-- User code that a worker executes is left again before the worker sleeps. -/
theorem Frame.drains_of_mayCall {bits : Nat} [DecidableEq Shop] {shop : Shop} {index : Nat}
    {frame : Frame Shop bits} (own : frame.home = some (shop, index)) (mayCall : frame.mayCall = true) :
    frame.drains shop = 1 := by
  cases frame with
  | executing host work phase =>
      cases host with
      | worker shop' index' drained =>
          cases own
          exact if_pos rfl
      | caller | thief => cases own
  | outside => cases own
  | _ => cases mayCall

section Steps

variable [DecidableEq Shop] {pool : Pool program Thread} {callStack : Thread -> List (Frame Shop program.bits)}
  {thread : Thread} {shared shared' : Shared program} {frame : Frame Shop program.bits}
  {frames : List (Frame Shop program.bits)}

/-- A worker stops draining when it has found the queue of its shop empty. -/
theorem ShopStep.drains (move : ShopStep pool callStack thread shared frame shared' frames) (shop : Shop) :
    frame.drains shop ≤ weigh (Frame.drains shop) frames ∨
      forall entry, entry ∈ shared'.queue -> entry.shop ≠ shop := by
  cases move with
  | worker move =>
      cases move with
      | allEmpty own index empty =>
          by_cases same : own = shop
          · subst same
            exact Or.inr empty
          · exact Or.inl (by simp [Frame.drains, same])
      | complete own index drained => cases drained <;> exact Or.inl (Nat.le_refl _)
      | stay | exit => exact Or.inl (Nat.zero_le _)
      | _ => exact Or.inl (Nat.le_refl _)
  | execution move =>
      cases move with
      | invoke host work | finish host work => cases host <;> exact Or.inl (Nat.le_refl _)
      | arrive host part | discount host serial => cases host <;> exact Or.inl (Nat.le_refl _)
  | fire move => cases move <;> exact Or.inl (Nat.zero_le _)
  | spread move => exact Or.inl (Nat.zero_le _)
  | stop move => cases move <;> exact Or.inl (Nat.zero_le _)
  | call move =>
      cases move with
      | fire | spread | stop => exact Or.inl (by simp)
      | fired | spreadReturn | stopped => exact Or.inl (Nat.zero_le _)

end Steps

/-! ## Where an accepted item may be -/

/-- After the item has been queued. -/
def FirePoint.succeeded : FirePoint -> Bool
  | .notify _ enqueueSucceeded => enqueueSucceeded
  | .addItem enqueueSucceeded => enqueueSucceeded
  | .countInFlight => true
  | .finished enqueueSucceeded => enqueueSucceeded
  | _ => false

section Acceptance

variable [DecidableEq Shop]

/-- The claims of a frame on an item that the given shop has accepted, or may
still accept: firing it there, or executing it anywhere else. -/
def Frame.contests {bits : Nat} (shop : Shop) (serial : Nat) : Frame Shop bits -> Nat
  | .fire own item point =>
      if item = serial ∧ (point.holding = true ∨ own = shop ∧ point.succeeded = true) then 1 else 0
  | .executing host (.item item) _ => if item = serial ∧ host.shop ≠ shop then 1 else 0
  | _ => 0

/-- The same for the queues, for refused items and for accepted ones. -/
def Shared.contests (shop : Shop) (serial : Nat) (shared : Shared program) : Nat :=
  shared.queue.countP (fun entry => entry.work = .item serial ∧ entry.shop ≠ shop) +
    shared.dropped.count (.item serial) + shared.accepted.count (shop, serial)

/-- A step adds no more claims on an item than it creates items. -/
def KeepsContests (shop : Shop) (serial : Nat) (shared : Shared program) (frame : Frame Shop program.bits)
    (shared' : Shared program) (frames : List (Frame Shop program.bits)) : Prop :=
  shared.created.count (.item serial) + weigh (Frame.contests shop serial) frames +
      shared'.contests shop serial ≤
    shared'.created.count (.item serial) + frame.contests shop serial + shared.contests shop serial

variable {pool : Pool program Thread} {callStack : Thread -> List (Frame Shop program.bits)}
  {thread : Thread} {shared shared' : Shared program} {frame : Frame Shop program.bits}
  {frames : List (Frame Shop program.bits)} (shop : Shop) (serial : Nat)

theorem ExecutionStep.contests (move : ExecutionStep program shared frame shared' frames) :
    KeepsContests shop serial shared frame shared' frames := by
  cases move with
  | invoke host work | finish host work => cases work <;> exact Nat.le_refl _
  | arrive host part =>
      have none : weigh (Frame.contests shop serial) [(host.resume : Frame Shop program.bits)] = 0 := by
        cases host <;> rfl
      rw [KeepsContests, none]
      exact Nat.le_refl _
  | discount host item =>
      have none : weigh (Frame.contests shop serial) [(host.resume : Frame Shop program.bits)] = 0 := by
        cases host <;> rfl
      rw [KeepsContests, none]
      exact Nat.add_le_add_right (Nat.le_add_right _ _) _

theorem WorkerStep.contests (move : WorkerStep program shared frame shared' frames) :
    KeepsContests shop serial shared frame shared' frames := by
  cases move with
  | takeOwn own index front entry back place home | takeAny own index front entry back place home =>
      obtain ⟨entryShop, token, work⟩ := entry
      cases home
      cases work with
      | item item =>
          by_cases same : item = serial <;> by_cases here : entryShop = shop <;>
            simp [KeepsContests, Shared.contests, place, Frame.contests, Host.shop, same, here]
          omega
      | part piece => simp [KeepsContests, Shared.contests, place, Frame.contests]
  | _ => exact Nat.le_refl _

theorem FireStep.contests (move : FireStep program shared frame shared' frames) :
    KeepsContests shop serial shared frame shared' frames := by
  cases move with
  | enqueue own item target =>
      by_cases same : item = serial <;> by_cases here : own = shop <;>
        simp [KeepsContests, Shared.contests, Frame.contests, FirePoint.succeeded, same, here]
      all_goals omega
  | refuse own item target =>
      by_cases same : item = serial <;>
        simp [KeepsContests, Shared.contests, Frame.contests, FirePoint.succeeded, same]
      omega
  | addItem own item enqueueSucceeded => cases enqueueSucceeded <;> exact Nat.le_refl _
  | _ => exact Nat.le_refl _

theorem SpreadStep.contests {recursive : Bool} (move : SpreadStep program recursive shared frame shared' frames) :
    KeepsContests shop serial shared frame shared' frames := by
  have noPart : forall parts : List Part, (parts.map Work.part).count (.item serial) = 0 := by
    intro parts
    rw [List.count_eq_zero]
    intro member
    rcases List.mem_map.mp member with ⟨part, _, impossible⟩
    cases impossible
  cases move with
  | registerSlice | callerRegister => simp [KeepsContests, Frame.contests, Shared.contests, Shared.onBarrier]
  | initializeBarrier => simp [KeepsContests, Frame.contests, Shared.contests, Shared.onBarrier, noPart]
  | resetBarrier => simp [KeepsContests, Frame.contests, Shared.contests, Shared.onBarrier, noPart]
  | enqueueSlices | enqueueParts => simp [KeepsContests, Frame.contests, Shared.contests, Function.comp_def]
  | steal own call locals front entry back place home =>
      obtain ⟨entryShop, token, work⟩ := entry
      cases home
      cases work with
      | item item =>
          by_cases same : item = serial <;> by_cases here : entryShop = shop <;>
            simp [KeepsContests, Shared.contests, place, Frame.contests, Host.shop, same, here]
          omega
      | part piece => simp [KeepsContests, Shared.contests, place, Frame.contests]
  | _ => exact Nat.le_refl _

theorem CallStep.contests (move : CallStep pool callStack thread shared frame shared' frames) :
    KeepsContests shop serial shared frame shared' frames := by
  cases move with
  | fire frame own =>
      by_cases same : shared.created.length = serial <;>
        simp [KeepsContests, Shared.contests, Frame.contests, same]
      omega
  | fired own item enqueueSucceeded =>
      cases enqueueSucceeded with
      | true =>
          by_cases same : item = serial <;> by_cases here : own = shop <;>
            simp [KeepsContests, Shared.contests, Frame.contests, FirePoint.succeeded, same, here]
          omega
      | false => simp [KeepsContests, Shared.contests]
  | spread | stop => simp [KeepsContests, Frame.contests, Shared.contests, Shared.onBarrier]
  | spreadReturn | stopped => exact Nat.le_refl _

theorem ShopStep.contests (move : ShopStep pool callStack thread shared frame shared' frames) :
    KeepsContests shop serial shared frame shared' frames := by
  cases move with
  | worker move => exact move.contests shop serial
  | execution move => exact move.contests shop serial
  | fire move => exact move.contests shop serial
  | spread move => exact move.contests shop serial
  | stop move => cases move <;> exact Nat.le_refl _
  | call move => exact move.contests shop serial

/-- A frame without a claim on an item that works for other shops does not
carry it. -/
theorem Frame.carries_eq_zero {bits : Nat} {frame : Frame Shop bits}
    (uncontested : frame.contests shop serial = 0)
    (elsewhere : forall host work phase, frame = .executing host work phase -> host.shop ≠ shop) :
    frame.carries (fun work => work == .item serial) = 0 := by
  cases frame with
  | fire own item point =>
      by_cases claim : item = serial ∧ (point.holding = true ∨ own = shop ∧ point.succeeded = true)
      · rw [Frame.contests, if_pos claim] at uncontested
        cases uncontested
      · simp only [Frame.carries, pending_fire, executes_fire, Nat.add_zero]
        split
        · rename_i held
          obtain ⟨holding, same⟩ := (Bool.and_eq_true _ _).mp held
          exact absurd ⟨Work.item.inj (eq_of_beq same), Or.inl holding⟩ claim
        · rfl
  | executing host work phase =>
      cases work with
      | item item =>
          have different : item ≠ serial := by
            intro same
            rw [Frame.contests, if_pos ⟨same, elsewhere host _ phase rfl⟩] at uncontested
            cases uncontested
          simp [Frame.carries, different]
      | part piece => simp [Frame.carries]
  | spread own call locals point =>
      have noItem : (point.parts.map Work.part).countP (fun work => work == .item serial) = 0 := by
        rw [List.countP_eq_zero]
        intro work member same
        rcases List.mem_map.mp member with ⟨part, _, rfl⟩
        cases same
      simp only [Frame.carries, pending_spread, executes_spread, noItem]
  | outside | worker | stop => rfl

/-- The destructor remembers items that the shop has accepted. -/
def Frame.Remembers (shared : Shared program) : Frame Shop program.bits -> Prop
  | .stop shop accepted _ => forall serial, serial ∈ accepted -> (shop, serial) ∈ shared.accepted
  | _ => True

omit [DecidableEq Shop] in
theorem Frame.Remembers.stable (remembers : frame.Remembers shared)
    (grows : shared.accepted.Sublist shared'.accepted) : frame.Remembers shared' := by
  cases frame with
  | stop shop accepted point => exact fun serial member => grows.subset (remembers serial member)
  | _ => trivial

theorem ShopStep.accepted_grows (move : ShopStep pool callStack thread shared frame shared' frames) :
    shared.accepted.Sublist shared'.accepted := by
  cases move with
  | worker move => cases move <;> exact List.Sublist.refl _
  | execution move => cases move <;> exact List.Sublist.refl _
  | fire move => cases move <;> exact List.Sublist.refl _
  | spread move => cases move <;> exact List.Sublist.refl _
  | stop move => cases move <;> exact List.Sublist.refl _
  | call move =>
      cases move with
      | fired => exact List.sublist_append_left _ _
      | _ => exact List.Sublist.refl _

theorem ShopStep.remembers (move : ShopStep pool callStack thread shared frame shared' frames)
    (remembers : frame.Remembers shared) : forall next, next ∈ frames -> next.Remembers shared' := by
  cases move with
  | worker move => cases move <;> simp only [List.mem_singleton, forall_eq] <;> trivial
  | execution move =>
      cases move with
      | invoke | finish =>
          simp only [List.mem_singleton, forall_eq]
          trivial
      | arrive host part | discount host serial =>
          simp only [List.mem_singleton, forall_eq]
          cases host <;> trivial
  | fire move => cases move <;> simp only [List.mem_singleton, forall_eq] <;> trivial
  | spread move => cases move <;> simp only [List.mem_singleton, forall_eq] <;> trivial
  | stop move => cases move <;> simp only [List.mem_singleton, forall_eq] <;> exact remembers
  | call move =>
      cases move with
      | fire | spread =>
          simp only [List.mem_cons, List.not_mem_nil, or_false, forall_eq_or_imp, forall_eq]
          exact ⟨trivial, remembers.stable (List.Sublist.refl _)⟩
      | stop frame shop =>
          simp only [List.mem_cons, List.not_mem_nil, or_false, forall_eq_or_imp, forall_eq]
          refine ⟨?_, remembers.stable (List.Sublist.refl _)⟩
          intro serial member
          rcases List.mem_map.mp member with ⟨⟨own, item⟩, listed, rfl⟩
          have mine := List.of_mem_filter listed
          cases of_decide_eq_true mine
          exact List.mem_of_mem_filter listed
      | fired | spreadReturn | stopped => exact fun _ impossible => by cases impossible

/-- The only works that get lost are parts. -/
theorem ShopStep.lost (move : ShopStep pool callStack thread shared frame shared' frames)
    (onlyParts : shared.lost.countP Work.isItem = 0) : shared'.lost.countP Work.isItem = 0 := by
  cases move with
  | worker move => cases move <;> exact onlyParts
  | execution move => cases move <;> exact onlyParts
  | fire move => cases move <;> exact onlyParts
  | spread move =>
      cases move with
      | refuseSlices =>
          rw [List.countP_append, onlyParts, Nat.zero_add, List.countP_map, List.countP_eq_zero]
          intro part _ impossible
          cases impossible
      | _ => exact onlyParts
  | stop move => cases move <;> exact onlyParts
  | call move => cases move <;> exact onlyParts

end Acceptance

/-! ## Whole runs -/

section Runs

variable [DecidableEq Shop] [Fintype Thread] [DecidableEq Thread] {pool : Pool program Thread}
  {state : Stacked Thread (Frame Shop program.bits) (Shared program)}

omit [Fintype Thread] in
theorem remembers (reachable : (shopSystem pool).Reachable state) (thread : Thread)
    (frame : Frame Shop program.bits) (member : frame ∈ state.callStack thread) :
    frame.Remembers state.shared := by
  revert thread frame
  apply reachable.invariant
  · rintro state rfl thread frame member
    rcases mem_initialStack member with rfl | ⟨shop, index, _, rfl⟩
    · trivial
    · trivial
  · intro before after _ earlier move
    apply frames_step move (fun state _ frame => frame.Remembers state.shared) earlier
    · rintro thread top rest shared frames _ localStep rfl holds
      exact localStep.remembers holds
    · rintro thread top rest shared frames _ localStep rfl other frame _ holds
      exact holds.stable localStep.accepted_grows

omit [Fintype Thread] in
theorem lost_items (reachable : (shopSystem pool).Reachable state) :
    state.shared.lost.countP Work.isItem = 0 := by
  apply reachable.invariant
  · rintro state rfl
    rfl
  · intro before after _ earlier move
    cases move with
    | top thread frame rest shared frames place localStep => exact localStep.lost earlier

/-- An item that a shop has accepted is not claimed by anybody else: it is not
being fired any more, it is neither refused nor queued by another shop, and no
other shop executes it. -/
theorem uncontested (reachable : (shopSystem pool).Reachable state) {shop : Shop} {serial : Nat}
    (accepted : (shop, serial) ∈ state.shared.accepted) :
    state.shared.created.count (.item serial) = 1 ∧ state.total (Frame.contests shop serial) = 0 ∧
      state.shared.queue.countP (fun entry => entry.work = .item serial ∧ entry.shop ≠ shop) = 0 ∧
      state.shared.dropped.count (.item serial) = 0 := by
  have bound : AtMost (Frame.contests shop serial) (fun shared => shared.created.count (.item serial))
      (Shared.contests shop serial) state := by
    apply reachable.invariant
    · rintro state rfl
      exact Nat.le_of_eq (initial_total_eq_zero pool _ _ rfl (fun _ _ => rfl))
    · intro before after _ earlier move
      exact earlier.step move (fun _ _ _ _ localStep => localStep.contests shop serial)
  have once := List.nodup_iff_count_le_one.mp (created_nodup reachable) (.item serial)
  have reported := List.count_pos_iff.mpr accepted
  simp only [AtMost, Shared.contests] at bound
  omega

/-- An accepted item that the shop neither has in its queue nor executes has
been executed, once. -/
theorem executed_of_accepted (reachable : (shopSystem pool).Reachable state) {shop : Shop} {serial : Nat}
    (accepted : (shop, serial) ∈ state.shared.accepted)
    (unqueued : forall entry, entry ∈ state.shared.queue -> entry.shop ≠ shop)
    (elsewhere : forall thread host work phase, .executing host work phase ∈ state.callStack thread ->
      host.shop ≠ shop) :
    state.shared.invoked.count (.item serial) = 1 ∧ state.shared.finished.count (.item serial) = 1 := by
  obtain ⟨created, uncontested, notElsewhere, notDropped⟩ := uncontested reachable accepted
  have uncarried : state.total (Frame.carries (fun work => work == .item serial)) = 0 := by
    rw [total_eq_zero_iff]
    intro thread frame present
    apply Frame.carries_eq_zero shop serial ((total_eq_zero_iff _ state).mp uncontested thread frame present)
    rintro host work phase rfl
    exact elsewhere thread host work phase present
  have notQueued : (state.shared.queue.map Entry.work).countP (fun work => work == .item serial) = 0 := by
    rw [List.countP_eq_zero]
    intro work queued same
    rcases List.mem_map.mp queued with ⟨entry, present, rfl⟩
    exact List.countP_eq_zero.mp notElsewhere entry present
      (decide_eq_true ⟨eq_of_beq same, unqueued entry present⟩)
  have kept : state.shared.lost.countP (fun work => work == .item serial) = 0 := by
    have parts := lost_items reachable
    rw [List.countP_eq_zero] at parts ⊢
    intro work lost same
    apply parts work lost
    rw [eq_of_beq same]
    rfl
  obtain ⟨creation, invocation, completion⟩ := accounted (fun work => work == .item serial) reachable
  simp only [Stacked.Balanced, Shared.placed] at creation invocation completion
  rw [total_carries] at uncarried
  unfold List.count at created notDropped ⊢
  omega

/-! ## Runs in which somebody is left to drain the queue -/

/-- When the exit flag is set, the queue is empty or a worker will try it again. -/
def StopsDrained (before after : Stacked Thread (Frame Shop program.bits) (Shared program)) : Prop :=
  forall shop, before.shared.brexit shop = false -> after.shared.brexit shop = true ->
    (forall entry, entry ∈ before.shared.queue -> entry.shop ≠ shop) ∨ 0 < before.total (Frame.drains shop)

def drainingSystem (pool : Pool program Thread) :
    System (Stacked Thread (Frame Shop program.bits) (Shared program)) :=
  (shopSystem pool).stepsWhere StopsDrained

/-- While no shutdown has been requested, the condition has not been tested. -/
theorem draining_of_running (reachable : (shopSystem pool).Reachable state)
    (running : forall shop, state.shared.brexit shop = false) : (drainingSystem pool).Reachable state := by
  induction reachable with
  | initial first => exact .initial first
  | @step before after earlier move inductionHypothesis =>
      have stops : StopsDrained before after := by
        intro shop _ requested
        cases (running shop).symm.trans requested
      cases move with
      | top thread frame rest shared frames place localStep =>
          refine .step (inductionHypothesis (fun shop => ?_)) ⟨.top thread frame rest shared frames place localStep, stops⟩
          by_contra requested
          have kept := localStep.stays.brexit shop (eq_true_of_ne_false requested)
          cases (running shop).symm.trans kept

/-- When every shop has been asked to exit, the condition is not tested again. -/
theorem draining_continues {before after : Stacked Thread (Frame Shop program.bits) (Shared program)}
    (reachable : (drainingSystem pool).Reachable before) (stopped : forall shop, before.shared.brexit shop = true)
    (later : (shopSystem pool).Continues before after) : (drainingSystem pool).Reachable after := by
  have both : (drainingSystem pool).Reachable after ∧ forall shop, after.shared.brexit shop = true := by
    induction later with
    | refl => exact ⟨reachable, stopped⟩
    | @tail middle next _ move inductionHypothesis =>
        have stops : StopsDrained middle next := by
          intro shop running _
          cases running.symm.trans (inductionHypothesis.2 shop)
        refine ⟨.step inductionHypothesis.1 ⟨move, stops⟩, fun shop => ?_⟩
        cases move with
        | top thread frame rest shared frames place localStep =>
            exact localStep.stays.brexit shop (inductionHypothesis.2 shop)
  exact both.1

theorem continues_self (_reachable : (drainingSystem pool).Reachable state) :
    (shopSystem pool).Continues state state := .refl

omit [Fintype Thread] in
/-- A continuation goes on by a step of the top frame of some thread. -/
theorem proceed {before : Stacked Thread (Frame Shop program.bits) (Shared program)}
    (later : (shopSystem pool).Continues before state) (thread : Thread) {frame : Frame Shop program.bits}
    {rest frames : List (Frame Shop program.bits)} {shared : Shared program}
    (place : state.callStack thread = frame :: rest)
    (move : ShopStep pool state.callStack thread state.shared frame shared frames) :
    (shopSystem pool).Continues before (state.replaceTop thread shared (frames ++ rest)) :=
  later.tail (.top thread frame rest shared frames place move)

omit [Fintype Thread] in
/-- While a shop is being destroyed only a worker of the shop queues anything,
and it is not done yet. -/
theorem drains_of_queueing (reachable : (shopSystem pool).Reachable state) {thread : Thread}
    {frame : Frame Shop program.bits} {rest : List (Frame Shop program.bits)}
    (place : state.callStack thread = frame :: rest) {shop : Shop} (stopping : state.shared.stopping shop = true)
    (uses : frame.shop = some shop) (called : frame.home = none) (stop : frame.isStop = false) :
    Exists fun base => base ∈ rest ∧ base.drains shop = 1 := by
  have member : frame ∈ state.callStack thread := by rw [place]; exact List.mem_cons_self
  by_cases serves : pool.Serves thread shop
  · rcases serves with ⟨index, role⟩
    rcases based reachable role with ⟨upper, base, stack, home, calls⟩
    rw [place] at stack
    cases upper with
    | nil =>
        cases stack
        cases called.symm.trans home
    | cons top upper =>
        cases stack
        exact ⟨base, List.mem_append_right _ (List.mem_singleton_self _),
          Frame.drains_of_mayCall home (calls (List.cons_ne_nil _ _))⟩
  · have isStop := isStop_of_stopping reachable thread frame member stopping serves uses
    cases stop.symm.trans isStop

/-- Once the exit flag is set, a queued entry leaves a worker to drain it. -/
theorem drains_of_queued (reachable : (drainingSystem pool).Reachable state) {entry : Entry Shop}
    (brexit : state.shared.brexit entry.shop = true) (queued : entry ∈ state.shared.queue) :
    0 < state.total (Frame.drains entry.shop) := by
  induction reachable with
  | initial first =>
      rw [first] at queued
      cases queued
  | @step before after earlier move inductionHypothesis =>
      have run := earlier.of_stepsWhere
      cases move.1 with
      | top thread frame rest shared frames place localStep =>
          have moved := total_replaceTop (Frame.drains entry.shop) before place shared frames
          have member : frame ∈ before.callStack thread := by rw [place]; exact List.mem_cons_self
          have own := weight_le_total (Frame.drains entry.shop) before member
          have kept : frame.drains entry.shop ≤ weigh (Frame.drains entry.shop) frames := by
            rcases localStep.drains entry.shop with kept | empty
            · exact kept
            · exact absurd rfl (empty entry queued)
          rcases localStep.queue queued with old | ⟨uses, _, called, stop⟩
          · have somebody : 0 < before.total (Frame.drains entry.shop) := by
              cases already : before.shared.brexit entry.shop with
              | true => exact inductionHypothesis already old
              | false =>
                  rcases move.2 entry.shop already brexit with empty | somebody
                  · exact absurd rfl (empty entry old)
                  · exact somebody
            omega
          · have already : before.shared.brexit entry.shop = true := by
              rcases localStep.brexit brexit with already | ⟨accepted, rfl, _⟩
              · exact already
              · cases stop
            have stopping := stopping_of_brexit run already
            rcases drains_of_queueing run place stopping uses called stop with ⟨base, below, drains⟩
            have present : base ∈ (before.replaceTop thread shared (frames ++ rest)).callStack thread := by
              rw [callStack_replaceTop]
              exact List.mem_append_right _ below
            have counted := weight_le_total (Frame.drains entry.shop) _ present
            omega

/-- Nobody is left to drain a shop whose workers have all exited. -/
theorem drains_of_exited (reachable : (shopSystem pool).Reachable state) {shop : Shop}
    (exited : forall index, index < program.workers shop -> state.shared.exited shop index = true) :
    state.total (Frame.drains shop) = 0 := by
  rw [total_eq_zero_iff]
  intro thread frame member
  by_contra drains
  obtain ⟨⟨index, home⟩, stays⟩ := Frame.home_of_drains (Nat.pos_of_ne_zero drains)
  have present := exited_eq_false reachable member home stays
  have gone := exited index (worker_index_lt reachable member home)
  cases present.symm.trans gone

/-- Nor does anybody still execute a work for it. -/
theorem not_executing_of_exited (reachable : (shopSystem pool).Reachable state) {shop : Shop}
    (exited : forall index, index < program.workers shop -> state.shared.exited shop index = true)
    (stopping : state.shared.stopping shop = true) (thread : Thread) (host : Host Shop) (work : Work)
    (phase : Phase) (member : .executing host work phase ∈ state.callStack thread) : host.shop ≠ shop := by
  intro same
  have uses : (Frame.executing host work phase : Frame Shop program.bits).shop = some shop := by
    rw [← same]
    rfl
  by_cases serves : pool.Serves thread shop
  · rcases serves with ⟨index, role⟩
    have left := callStack_of_exited reachable role (exited index (pool.inside thread shop index role))
    rw [left] at member
    cases List.mem_singleton.mp member
  · cases isStop_of_stopping reachable thread _ member stopping serves uses

/-- If at every shutdown the queue is empty or a worker has still to try it,
then every item accepted before the destructor of the shop was called has been
executed, once, when the destructor returns. -/
theorem shutdown_drains (reachable : (drainingSystem pool).Reachable state) (thread : Thread) (shop : Shop)
    (accepted : List Nat) (rest : List (Frame Shop program.bits))
    (returning : state.callStack thread = .stop shop accepted .finished :: rest) (serial : Nat)
    (member : serial ∈ accepted) :
    state.shared.invoked.count (.item serial) = 1 ∧ state.shared.finished.count (.item serial) = 1 := by
  have run := reachable.of_stepsWhere
  have top : .stop shop accepted .finished ∈ state.callStack thread := by
    rw [returning]
    exact List.mem_cons_self
  obtain ⟨stopping, brexit, exited⟩ : Frame.Stopped state.shared (.stop shop accepted .finished) :=
    stopped run thread _ top
  have listed : (shop, serial) ∈ state.shared.accepted :=
    (remembers run thread _ top : Frame.Remembers state.shared (.stop shop accepted .finished)) serial member
  apply executed_of_accepted run listed
  · -- a queued entry of this shop would have left a worker to drain it
    rintro entry present rfl
    have drains := drains_of_queued reachable brexit present
    have nobody := drains_of_exited run exited
    omega
  · exact not_executing_of_exited run exited stopping

end Runs

/-! ## Short runs -/

/-- The caller may not destroy a shop that somebody uses; here only the worker does. -/
private theorem unused {state : Stacked (Option Unit) (Frame Unit smallProgram.bits) (Shared smallProgram)}
    (idle : state.callStack (some ()) = [.outside]) :
    forall other, ¬ (smallPool Unit).Serves other () ->
      forall user, user ∈ state.callStack other -> user.shop ≠ some () := by
  rintro (_ | ⟨⟩) foreign user member
  · exact absurd ⟨0, rfl⟩ foreign
  · rw [idle] at member
    cases List.mem_singleton.mp member
    exact fun impossible => by cases impossible

private theorem foreign : ¬ (smallPool Unit).Serves (some ()) () := by
  rintro ⟨index, impossible⟩
  cases impossible

/-- The worker has not looked into the queue yet when the shop is destroyed. -/
theorem shutdown_drains_single :
    Exists fun state => (drainingSystem (smallPool Unit)).Reachable state ∧
      state.shared.accepted = [((), 0)] ∧ state.shared.finished.count (.item 0) = 1 := by
  have start : (shopSystem (smallPool Unit)).Reachable ⟨Shared.fresh, (smallPool Unit).initialStack⟩ :=
    .initial rfl
  have called := advance start (some ()) rfl (.call (.fire .outside () rfl (Or.inl rfl)))
  have loaded := advance called (some ()) rfl (.fire (.loadRotor () 0))
  have chosen := advance loaded (some ()) rfl (.fire (.stick () 0 _ (by decide)))
  have queued := advance chosen (some ()) rfl (.fire (.enqueue () 0 _))
  have notified := advance queued (some ()) rfl (.fire (.notify () 0 _ _))
  have added := advance notified (some ()) rfl (.fire (.addItem () 0 _))
  have counted := advance added (some ()) rfl (.fire (.countInFlight () 0))
  have fired := advance counted (some ()) rfl (.call (.fired () 0 _))
  have stopping := advance fired (some ()) rfl (.call (.stop .outside () rfl rfl foreign (unused rfl)))
  have running := draining_of_running stopping (fun _ => rfl)
  have requested : (drainingSystem (smallPool Unit)).Reachable _ :=
    .step running ⟨.top (some ()) _ _ _ _ rfl (.stop (.store () [0])), fun _ _ _ =>
      Or.inr ((total_pos_iff _ _).mpr ⟨none, .worker () 0 .drainOwn, List.mem_singleton_self _, Nat.one_pos⟩)⟩
  have here := continues_self requested
  have taken := proceed here none rfl (.worker (.takeOwn () 0 [] _ [] rfl rfl rfl))
  have invoked := proceed taken none rfl (.execution (.invoke _ _))
  have finished := proceed invoked none rfl (.execution (.finish _ _))
  have discounted := proceed finished none rfl (.execution (.discount _ 0))
  have completed := proceed discounted none rfl (.worker (.complete () 0 true))
  have empty := proceed completed none rfl (.worker (.ownEmpty () 0 (fun _ queued => absurd queued List.not_mem_nil)))
  have empty := proceed empty none rfl (.worker (.allEmpty () 0 (fun _ queued => absurd queued List.not_mem_nil)))
  have exited := proceed empty none rfl (.worker (.exit () 0 rfl))
  have notified := proceed exited (some ()) rfl (.stop (.notifyAll () [0] 0 (by decide)))
  have notified := proceed notified (some ()) rfl (.stop (.notifiedAll () [0] 1 (by decide)))
  have joined := proceed notified (some ()) rfl (.stop (.join () [0] 0 (by decide) rfl))
  have joined := proceed joined (some ()) rfl (.stop (.joined () [0] 1 (by decide)))
  have reachable := draining_continues requested (fun _ => rfl) joined
  exact ⟨_, reachable, rfl, (shutdown_drains reachable (some ()) () [0] _ rfl 0 (List.mem_singleton_self 0)).2⟩

/-- The item is fired after the worker has found the queue empty, and the shop
is destroyed before the worker reads the exit flag. -/
theorem shutdown_loses_item :
    ¬ (forall state, (shopSystem (smallPool Unit)).Reachable state ->
      forall thread shop accepted rest, state.callStack thread = .stop shop accepted .finished :: rest ->
        forall serial, serial ∈ accepted -> .item serial ∈ state.shared.finished) := by
  intro always
  have start : (shopSystem (smallPool Unit)).Reachable ⟨Shared.fresh, (smallPool Unit).initialStack⟩ :=
    .initial rfl
  have empty := advance start none rfl (.worker (.ownEmpty () 0 (fun _ queued => absurd queued List.not_mem_nil)))
  have empty := advance empty none rfl (.worker (.allEmpty () 0 (fun _ queued => absurd queued List.not_mem_nil)))
  have called := advance empty (some ()) rfl (.call (.fire .outside () rfl (Or.inl rfl)))
  have loaded := advance called (some ()) rfl (.fire (.loadRotor () 0))
  have chosen := advance loaded (some ()) rfl (.fire (.stick () 0 _ (by decide)))
  have queued := advance chosen (some ()) rfl (.fire (.enqueue () 0 _))
  have notified := advance queued (some ()) rfl (.fire (.notify () 0 _ _))
  have added := advance notified (some ()) rfl (.fire (.addItem () 0 _))
  have counted := advance added (some ()) rfl (.fire (.countInFlight () 0))
  have fired := advance counted (some ()) rfl (.call (.fired () 0 _))
  have stopping := advance fired (some ()) rfl (.call (.stop .outside () rfl rfl foreign (unused rfl)))
  have requested := advance stopping (some ()) rfl (.stop (.store () [0]))
  have exited := advance requested none rfl (.worker (.exit () 0 rfl))
  have notified := advance exited (some ()) rfl (.stop (.notifyAll () [0] 0 (by decide)))
  have notified := advance notified (some ()) rfl (.stop (.notifiedAll () [0] 1 (by decide)))
  have joined := advance notified (some ()) rfl (.stop (.join () [0] 0 (by decide) rfl))
  have joined := advance joined (some ()) rfl (.stop (.joined () [0] 1 (by decide)))
  have claimed := always _ joined (some ()) () [0] _ rfl 0 (List.mem_singleton_self 0)
  cases claimed

end Shop
end Sweater
