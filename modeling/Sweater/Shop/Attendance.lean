import Sweater.Shop.OrderlyRuns

namespace Sweater
namespace Shop

open Threading
open Spread
open Interleaving
open Interleaving.Stacked

/-!
# Who attends to the parts in the queue

A single shop.  A queued work is covered by a worker that is awake, by a token
or by a producer that is about to signal; or it is a part of a call that will
still empty the queue itself before it joins.  A call that is going to wait
without stealing has signalled all workers instead, so that its parts stay
covered until a worker has found the queue empty.

Workers themselves are never kept from their loops for long, because in a
detecting run they perform the calls that they make themselves.
-/

variable {Thread : Type} {program : Program Unit}

/-! ## Calls that empty the queue -/

/-- The points of a call between its first `enqueue_bulk` and the end of its
stealing loop. -/
def SpreadPoint.stealsLater {bits : Nat} : SpreadPoint bits -> Bool
  | .registerSlice _ _ _ _ _ => true
  | .countSlice _ _ _ _ _ => true
  | .notifyRoot _ _ => true
  | .notifyAll _ => true
  | .callerRegister => true
  | .callerCount _ => true
  | .callerCompleting => true
  | .testQueue => true
  | .steal => true
  | .stealCompleting => true
  | _ => false

/-- Before `wake_all_workers` has signalled the first worker. -/
def SpreadPoint.signalsNext {bits : Nat} : SpreadPoint bits -> Bool
  | .notifyAll worker => worker == 0
  | _ => false

def SpreadLocals.steals (locals : SpreadLocals) : Bool := !locals.queueAndWait && !locals.immediate

/-- One for the frame of a call that will still see to its parts. -/
def Frame.attends {bits : Nat} (call : Nat) : Frame Unit bits -> Nat
  | .spread _ own locals point =>
      if own = call ∧ (locals.steals && point.stealsLater || point.signalsNext) = true then 1 else 0
  | .executing (.caller _ own locals) _ _ => if own = call ∧ locals.steals = true then 1 else 0
  | .executing (.thief _ own locals) _ _ => if own = call ∧ locals.steals = true then 1 else 0
  | _ => 0

section Steps

variable {pool : Pool program Thread} {callStack : Thread -> List (Frame Unit program.bits)}
  {thread : Thread} {shared shared' : Shared program} {frame : Frame Unit program.bits}
  {frames : List (Frame Unit program.bits)}

theorem attends_spread {bits : Nat} (call own : Nat) (locals : SpreadLocals) (point : SpreadPoint bits) :
    (Frame.spread () own locals point).attends call =
      if own = call ∧ (locals.steals && point.stealsLater || point.signalsNext) = true then 1 else 0 := rfl

theorem SpreadPoint.stealsLater_toCaller (locals : SpreadLocals) :
    (toCaller locals : SpreadPoint program.bits).stealsLater = true := by
  unfold toCaller
  split <;> rfl

theorem SpreadPoint.stealsLater_nextDispatch (locals : SpreadLocals) (first : Bool)
    (rest : List (Dispatch program.bits)) : (nextDispatch locals first rest).stealsLater = true := by
  cases rest with
  | nil => exact stealsLater_toCaller locals
  | cons dispatch rest => rfl

/-- A call that steals later goes on doing so. -/
theorem attends_le {call own : Nat} {locals locals' : SpreadLocals} {point next : SpreadPoint program.bits}
    (quiet : point.signalsNext = false) (same : locals'.steals = locals.steals)
    (later : next.stealsLater = true) :
    (Frame.spread () own locals point).attends call ≤ weigh (Frame.attends call) [.spread () own locals' next] := by
  rw [weigh_cons, attends_spread, attends_spread, quiet, same, later]
  by_cases here : own = call ∧ locals.steals = true
  · rw [here.1, here.2]
    cases point.stealsLater <;> simp
  · rw [if_neg]
    · exact Nat.zero_le _
    · intro attends
      apply here
      simp at attends
      exact ⟨attends.1, attends.2.1⟩

/-- A point of a call that does not attend to anything. -/
theorem attends_eq_zero {call own : Nat} {locals : SpreadLocals} {point : SpreadPoint program.bits}
    (idle : point.stealsLater = false) (quiet : point.signalsNext = false) :
    (Frame.spread () own locals point).attends call = 0 := by
  rw [attends_spread, idle, quiet]
  simp

/-- A call stops attending to its parts when it has found the queue empty or
has signalled a worker. -/
theorem SpreadStep.attends {recursive : Bool} (move : SpreadStep program recursive shared frame shared' frames)
    (staffed : 0 < program.workers ())
    (exact_ : forall call locals, frame = .spread () call locals .testQueue ->
      frames = [.spread () call locals .join] -> shared.queue = []) (call : Nat) :
    frame.attends call ≤ weigh (Frame.attends call) frames ∨
      (Exists fun index => index < program.workers () ∧ 0 < shared'.tokens () index) ∨ shared'.queue = [] := by
  have unit : forall {entries : List (Entry Unit)}, (forall entry, entry ∈ entries -> entry.shop ≠ ()) ->
      entries = [] := by
    intro entries none
    exact List.eq_nil_iff_forall_not_mem.mpr (fun entry member => none entry member rfl)
  cases move with
  | loadItems | plan | countParts | initializeBarrier | initializeEmpty | enqueueParts | refuseParts | resetBarrier
  | joined | joinSpin | spinAgain | spinOver | loadStalled | raiseDivision | keepDivision | waitAgain | waitOver =>
      left
      rw [attends_eq_zero rfl rfl]
      exact Nat.zero_le _
  | registerSlice | countSlice | stealBegin | stealComplete => exact Or.inl (attends_le rfl rfl rfl)
  | enqueueSlices shop own locals worker first registered rest
  | refuseSlices shop own locals worker first registered rest =>
      left
      cases first with
      | true => exact attends_le rfl rfl rfl
      | false => exact attends_le rfl rfl (SpreadPoint.stealsLater_nextDispatch locals false rest)
  | notifyRoot shop own locals worker rest =>
      exact Or.inl (attends_le rfl rfl (SpreadPoint.stealsLater_nextDispatch locals false rest))
  | notifyAll shop own locals worker below =>
      by_cases first : worker = 0
      · subst first
        refine Or.inr (Or.inl ⟨0, below, ?_⟩)
        simp [Shared.signal]
      · have quiet : (SpreadPoint.notifyAll worker : SpreadPoint program.bits).signalsNext = false :=
          beq_false_of_ne first
        exact Or.inl (attends_le quiet rfl rfl)
  | notifiedAll shop own locals worker all =>
      have quiet : (SpreadPoint.notifyAll worker : SpreadPoint program.bits).signalsNext = false :=
        beq_false_of_ne (Nat.ne_of_gt (Nat.lt_of_lt_of_le staffed all))
      exact Or.inl (attends_le quiet rfl (SpreadPoint.stealsLater_toCaller locals))
  | callerRegister => exact Or.inl (attends_le rfl rfl rfl)
  | callerCount shop own locals part =>
      left
      rw [weigh_cons, attends_spread]
      simp [SpreadPoint.stealsLater, SpreadPoint.signalsNext, Frame.attends]
  | callerComplete shop own locals =>
      left
      cases immediate : locals.immediate with
      | true =>
          rw [attends_spread]
          simp [SpreadLocals.steals, immediate, SpreadPoint.signalsNext]
      | false => exact attends_le rfl rfl rfl
  | stealSkip shop own locals =>
      cases waits : locals.queueAndWait with
      | true =>
          left
          rw [attends_spread]
          simp [SpreadLocals.steals, waits, SpreadPoint.signalsNext]
      | false =>
          refine Or.inr (Or.inr (exact_ own locals rfl ?_))
          rw [SpreadPoint.toJoin, waits]
          rfl
  | steal shop own locals front entry back =>
      left
      rw [weigh_cons, attends_spread]
      simp [SpreadPoint.stealsLater, SpreadPoint.signalsNext, Frame.attends]
  | stealEmpty shop own locals empty => exact Or.inr (Or.inr (unit empty))

theorem ShopStep.attends (move : ShopStep pool callStack thread shared frame shared' frames)
    (staffed : 0 < program.workers ())
    (exact_ : forall call locals, frame = .spread () call locals .testQueue ->
      frames = [.spread () call locals .join] -> shared.queue = []) (call : Nat) :
    frame.attends call ≤ weigh (Frame.attends call) frames ∨
      (Exists fun index => index < program.workers () ∧ 0 < shared'.tokens () index) ∨ shared'.queue = [] := by
  cases move with
  | worker move => cases move <;> exact Or.inl (Nat.zero_le _)
  | execution move =>
      cases move with
      | invoke host work | finish host work => cases host <;> exact Or.inl (Nat.le_refl _)
      | arrive host part | discount host serial =>
          left
          cases host with
          | worker => exact Nat.zero_le _
          | caller | thief =>
              rw [weigh_cons, Host.resume, attends_spread]
              simp [SpreadPoint.stealsLater, SpreadPoint.signalsNext, Frame.attends]
  | fire move => cases move <;> exact Or.inl (Nat.zero_le _)
  | spread move => exact move.attends staffed exact_ call
  | stop move => cases move <;> exact Or.inl (Nat.zero_le _)
  | call move =>
      cases move with
      | fire | spread | stop => exact Or.inl (by simp)
      | fired | stopped => exact Or.inl (Nat.zero_le _)
      | spreadReturn => exact Or.inl (Nat.le_of_eq (attends_eq_zero rfl rfl))

/-- A part comes into the queue while its call attends to it. -/
theorem SpreadStep.attends_queued {recursive : Bool}
    (move : SpreadStep program recursive shared frame shared' frames) (decided : frame.Decided)
    (knows : frame.Knows shared) {entry : Entry Unit} (member : entry ∈ shared'.queue)
    (held : entry.work ∈ frame.held) : entry ∈ shared.queue ∨
      Exists fun call => entry.work.ofCall call = true ∧ 0 < weigh (Frame.attends call) frames := by
  cases move with
  | enqueueSlices shop call locals worker first registered rest =>
      rcases List.mem_map.mp held with ⟨part, among, same⟩
      refine Or.inr ⟨call, ?_, ?_⟩
      · rw [← same]
        exact beq_iff_eq.mpr (knows.2 part among)
      · have later : (if first then .notifyRoot worker rest else .nextDispatch locals false rest :
            SpreadPoint program.bits).stealsLater = true := by
          cases first with
          | true => rfl
          | false => exact SpreadPoint.stealsLater_nextDispatch locals false rest
        rw [weigh_cons, attends_spread, later]
        simp [SpreadLocals.steals, decided.1, decided.2]
  | enqueueParts shop call locals parts =>
      rcases List.mem_map.mp held with ⟨part, among, same⟩
      refine Or.inr ⟨call, ?_, ?_⟩
      · rw [← same]
        exact beq_iff_eq.mpr (knows.2.2 part among)
      · rw [weigh_cons, attends_spread]
        simp [SpreadPoint.signalsNext]
  | steal => cases held
  | _ => exact Or.inl member

/-- A work comes into the queue while somebody covers it or attends to it. -/
theorem ShopStep.attends_queued (move : ShopStep pool callStack thread shared frame shared' frames)
    (decided : frame.Decided) (knows : frame.Knows shared) {entry : Entry Unit} (member : entry ∈ shared'.queue) :
    entry ∈ shared.queue ∨ 0 < weigh (Frame.covers ()) frames ∨
      Exists fun call => entry.work.ofCall call = true ∧ 0 < weigh (Frame.attends call) frames := by
  rcases move.queue member with earlier | ⟨_, held, _, _⟩
  · exact Or.inl earlier
  cases move with
  | worker move => cases move <;> cases held
  | execution move => cases move <;> cases held
  | fire move =>
      cases move with
      | enqueue shop serial target => exact Or.inr (Or.inl (by simp [Frame.covers, FirePoint.signals]))
      | _ => exact Or.inl member
  | spread move =>
      rcases move.attends_queued decided knows member held with earlier | attends
      · exact Or.inl earlier
      · exact Or.inr (Or.inr attends)
  | stop move => cases move <;> cases held
  | call move => cases move <;> exact Or.inl member

/-! ## Calls made by workers -/

/-- The points of a call that its thread performs itself. -/
def SpreadPoint.Inline {bits : Nat} (locals : SpreadLocals) : SpreadPoint bits -> Prop
  | .loadItems => True
  | .loadDivision itemsInShop => itemsInShop ≠ 0
  | .callerRegister => locals.immediate = true
  | .callerCount _ => locals.immediate = true
  | .callerCompleting => locals.immediate = true
  | .finished => True
  | _ => False

def Frame.Inline {bits : Nat} : Frame Unit bits -> Prop
  | .spread _ _ locals point => point.Inline locals
  | .executing (.caller _ _ locals) _ _ => locals.immediate = true
  | .executing (.thief _ _ _) _ _ => False
  | _ => True

/-- The plan of a call that its thread performs itself. -/
theorem spreadWork_recursive {bits : Nat} {situation : Situation bits} {iterations parallelizable : BitVec 32}
    (items : situation.itemsInShop ≠ 0) (recursive : situation.recursive = true) {plan : Plan bits} {exact_ : Bool}
    (planned : spreadWork situation iterations parallelizable = some (plan, exact_)) :
    plan = .nothing ∨ plan = .inCaller iterations := by
  unfold spreadWork at planned
  split at planned
  · cases planned
    exact Or.inl rfl
  · rw [if_pos ⟨items, Or.inr recursive⟩] at planned
    cases planned
    exact Or.inr rfl

theorem SpreadStep.inline (move : SpreadStep program true shared frame shared' frames) (inline : frame.Inline)
    (detects : forall call locals, frame = .spread () call locals .loadItems -> frames ≠ [frame] ->
      shared.workItems () ≠ 0) : forall next, next ∈ frames -> next.Inline := by
  cases move <;> simp only [List.mem_singleton, forall_eq]
  case loadItems shop call locals => exact detects call locals rfl (by simp)
  case plan shop call locals itemsInShop plan exact_ planned =>
    have items : itemsInShop ≠ 0 := inline
    rcases spreadWork_recursive (by exact items) rfl planned with rfl | rfl
    · trivial
    · exact rfl
  case callerRegister => exact inline
  case callerCount => exact inline
  case callerComplete shop call locals =>
    have immediate : locals.immediate = true := inline
    rw [immediate]
    trivial
  all_goals exact absurd inline id

/-- A worker performs its calls itself, if it finds its own work counted. -/
theorem ShopStep.inline (move : ShopStep pool callStack thread shared frame shared' frames)
    (serves : pool.Serves thread ()) (inline : frame.Inline)
    (detects : forall call locals, frame = .spread () call locals .loadItems -> frames ≠ [frame] ->
      shared.workItems () ≠ 0) : forall next, next ∈ frames -> next.Inline := by
  apply move.call_frames inline
  · intro other plain
    cases other with
    | spread => cases plain
    | executing host work phase =>
        cases host with
        | worker => trivial
        | caller | thief => cases plain
    | _ => trivial
  · intro host work phase holds
    cases host with
    | worker => exact ⟨fun _ => trivial, trivial⟩
    | caller => exact ⟨fun _ => holds, holds⟩
    | thief => exact absurd holds id
  · intro shop iterations parallelizable
    split <;> trivial
  · rintro shop call locals point rfl move
    rw [decide_eq_true serves] at move
    exact move.inline inline detects

end Steps

/-! ## Whole runs -/

section Runs

variable [Fintype Thread] [DecidableEq Thread] {pool : Pool program Thread}
  {state : Stacked Thread (Frame Unit program.bits) (Shared program)}

theorem shopSystem_of_detecting (reachable : (detectingSystem pool).Reachable state) :
    (shopSystem pool).Reachable state :=
  reachable.of_within.of_stepsWhere

/-- In a detecting run no barrier reaches its range. -/
theorem boundedShopSystem_of_detecting (reachable : (detectingSystem pool).Reachable state) :
    (boundedShopSystem pool).Reachable state := by
  induction reachable with
  | initial first => exact .initial ⟨first.1, first.2.barriers⟩
  | step _ move inductionHypothesis => exact .step inductionHypothesis ⟨move.1.1, move.2.barriers⟩

/-- The work is covered, or it is a part of a call that will empty the queue. -/
def Attended (state : Stacked Thread (Frame Unit program.bits) (Shared program)) (work : Work) : Prop :=
  Covered () state ∨ Exists fun call => work.ofCall call = true ∧ 0 < state.total (Frame.attends call)

theorem attended_step {before : Stacked Thread (Frame Unit program.bits) (Shared program)} {thread : Thread}
    {frame : Frame Unit program.bits} {rest frames : List (Frame Unit program.bits)} {shared : Shared program}
    (staffed : 0 < program.workers ()) (place : before.callStack thread = frame :: rest)
    (move : ShopStep pool before.callStack thread before.shared frame shared frames) (aimed : frame.Aimed)
    (orderly : Orderly before (before.replaceTop thread shared (frames ++ rest))) {work : Work}
    (attended : Attended before work) :
    Attended (before.replaceTop thread shared (frames ++ rest)) work ∨ shared.queue = [] := by
  have unit : forall {entries : List (Entry Unit)}, (forall entry, entry ∈ entries -> entry.shop ≠ ()) ->
      entries = [] := by
    intro entries none
    exact List.eq_nil_iff_forall_not_mem.mpr (fun entry member => none entry member rfl)
  rcases attended with covered | ⟨call, part, attends⟩
  · rcases covered_step place move aimed covered with kept | empty
    · exact Or.inl (Or.inl kept)
    · exact Or.inr (unit empty)
  · have member : frame ∈ before.callStack thread := by rw [place]; exact List.mem_cons_self
    have moved := total_replaceTop (Frame.attends call) before place shared frames
    have own := weight_le_total (Frame.attends call) before member
    have exact_ : forall call locals, frame = .spread () call locals .testQueue ->
        frames = [.spread () call locals .join] -> before.shared.queue = [] := by
      rintro call locals rfl rfl
      exact unit (orderly.emptiness thread () call locals rest place (callStack_replaceTop _ _ _ _))
    rcases move.attends staffed exact_ call with kept | token | empty
    · exact Or.inl (Or.inr ⟨call, part, by omega⟩)
    · exact Or.inl (Or.inl (Or.inr token))
    · exact Or.inr empty

/-- Every queued work is attended to. -/
theorem attended (staffed : 0 < program.workers ()) (reachable : (detectingSystem pool).Reachable state)
    {entry : Entry Unit} (queued : entry ∈ state.shared.queue) : Attended state entry.work := by
  induction reachable with
  | initial first =>
      rw [first.1] at queued
      cases queued
  | @step before after earlier move inductionHypothesis =>
      have run := shopSystem_of_detecting earlier
      rcases move with ⟨⟨step, orderly, _⟩, _⟩
      cases step with
      | top thread frame rest shared frames place localStep =>
          have member : frame ∈ before.callStack thread := by rw [place]; exact List.mem_cons_self
          have knows := (tracked (boundedShopSystem_of_detecting earlier)).knows thread frame member
          rcases localStep.attends_queued (decided run thread frame member) knows queued with old | new | new
          · rcases attended_step staffed place localStep (aimed run thread frame member) orderly
              (inductionHypothesis old) with kept | empty
            · exact kept
            · have none : entry ∈ shared.queue := queued
              rw [empty] at none
              cases none
          · have moved := total_replaceTop (Frame.covers ()) before place shared frames
            have own := weight_le_total (Frame.covers ()) before member
            exact Or.inl (Or.inl (by omega))
          · rcases new with ⟨call, part, attends⟩
            have moved := total_replaceTop (Frame.attends call) before place shared frames
            have own := weight_le_total (Frame.attends call) before member
            exact Or.inr ⟨call, part, by omega⟩

/-- All calls on the stacks of workers are performed by the workers. -/
theorem inline (reachable : (detectingSystem pool).Reachable state) (thread : Thread)
    (serves : pool.Serves thread ()) (frame : Frame Unit program.bits) (member : frame ∈ state.callStack thread) :
    frame.Inline := by
  revert thread serves frame
  apply reachable.invariant
  · rintro state ⟨rfl, _⟩ thread serves frame member
    rcases mem_initialStack member with rfl | ⟨shop, index, _, rfl⟩
    · trivial
    · trivial
  · intro before after _ earlier move thread serves frame member
    rcases move with ⟨⟨step, _, detects⟩, _⟩
    apply frames_step step (fun _ thread frame => pool.Serves thread () -> frame.Inline)
      (fun thread frame member serves => earlier thread serves frame member) _ _ thread frame member serves
    · rintro thread top rest shared frames place localStep rfl holds next fresh serves
      refine localStep.inline serves (holds serves) ?_ next fresh
      rintro call locals rfl moves
      apply detects thread () call locals rest serves place
      rw [callStack_replaceTop, place]
      exact fun same => moves (List.append_cancel_right same)
    · intro _ _ _ _ _ _ _ _ _ _ _ holds
      exact holds

end Runs

end Shop
end Sweater
