import Sweater.Shop.Shutdown

namespace Sweater
namespace Shop

open Interleaving
open Interleaving.Stacked

/-!
# The end of a shop

`stop_and_destroy_pool` raises the exit flag, notifies every worker and joins
them.  A worker reads the flag each time before it waits for its event.  Hence
a worker that has been notified for the shutdown does not sleep without a
token, and the destructor only waits for workers that are on their way out of
the loop, as long as no functor keeps them.

Once the destructor has returned, nothing that any thread still does reaches
the shop.
-/

variable {Shop Thread : Type} {program : Program Shop}

/-! ## Nobody sleeps through a shutdown -/

/-- The destructor has notified the worker already. -/
def StopPoint.Notified (index : Nat) : StopPoint -> Prop
  | .store => False
  | .notifyAll worker => index < worker
  | .joinAll _ => True
  | .finished => True

namespace Frame

variable {bits : Nat}

/-- The destructor of the shop, after it has notified the worker. -/
def Notified (shop : Shop) (index : Nat) : Frame Shop bits -> Prop
  | stop own _ point => own = shop ∧ point.Notified index
  | _ => False

theorem eq_stop {frame : Frame Shop bits} {shop : Shop} (own : frame.shop = some shop)
    (isStop : frame.isStop = true) :
    Exists fun accepted => Exists fun point => frame = .stop shop accepted point := by
  cases frame with
  | stop shop' accepted point =>
      cases own
      exact ⟨accepted, point, rfl⟩
  | _ => cases isStop

end Frame

section Steps

variable [DecidableEq Shop] {pool : Pool program Thread} {callStack : Thread -> List (Frame Shop program.bits)}
  {thread : Thread} {shared shared' : Shared program} {frame : Frame Shop program.bits}
  {frames : List (Frame Shop program.bits)} {shop : Shop} {index : Nat}

theorem Shared.tokens_signal (shared : Shared program) (shop : Shop) (index : Nat) :
    (shared.signal shop index).tokens shop index = shared.tokens shop index + 1 := by
  simp only [Shared.signal, Function.update_self]

theorem Shared.tokens_le_signal (shared : Shared program) (own shop : Shop) (worker index : Nat) :
    shared.tokens shop index ≤ (shared.signal own worker).tokens shop index := by
  by_cases same : shop = own
  · subst same
    by_cases here : index = worker
    · subst here
      rw [Shared.tokens_signal]
      exact Nat.le_succ _
    · simp only [Shared.signal, Function.update_self, Function.update_of_ne here]
      exact Nat.le_refl _
  · simp only [Shared.signal, Function.update_of_ne same]
    exact Nat.le_refl _

/-- The destructor notifies a worker by a token. -/
theorem ShopStep.notified (move : ShopStep pool callStack thread shared frame shared' frames)
    (below : index < program.workers shop) {next : Frame Shop program.bits} (member : next ∈ frames)
    (notified : next.Notified shop index) :
    frame.Notified shop index ∨ shared'.tokens shop index = shared.tokens shop index + 1 := by
  cases move with
  | worker move => cases move <;> (rw [List.mem_singleton.mp member] at notified; cases notified)
  | execution move =>
      cases move with
      | invoke | finish =>
          rw [List.mem_singleton.mp member] at notified
          cases notified
      | arrive host part | discount host serial =>
          rw [List.mem_singleton.mp member] at notified
          cases host <;> cases notified
  | fire move => cases move <;> (rw [List.mem_singleton.mp member] at notified; cases notified)
  | spread move => cases move <;> (rw [List.mem_singleton.mp member] at notified; cases notified)
  | stop move =>
      cases move with
      | store shop' accepted =>
          rw [List.mem_singleton.mp member] at notified
          exact absurd notified.2 (Nat.not_lt_zero _)
      | notifyAll shop' accepted worker =>
          rw [List.mem_singleton.mp member] at notified
          obtain ⟨rfl, passed⟩ := notified
          rcases Nat.lt_succ_iff_lt_or_eq.mp passed with earlier | rfl
          · exact Or.inl ⟨rfl, earlier⟩
          · exact Or.inr (Shared.tokens_signal shared shop' index)
      | notifiedAll shop' accepted worker all =>
          rw [List.mem_singleton.mp member] at notified
          obtain ⟨rfl, _⟩ := notified
          exact Or.inl ⟨rfl, Nat.lt_of_lt_of_le below all⟩
      | join | joined =>
          rw [List.mem_singleton.mp member] at notified
          exact Or.inl ⟨notified.1, trivial⟩
  | call move =>
      cases move with
      | fire | spread =>
          rcases List.mem_cons.mp member with rfl | under
          · cases notified
          · rw [List.mem_singleton.mp under] at notified
            exact Or.inl notified
      | stop frame shop' =>
          rcases List.mem_cons.mp member with rfl | under
          · cases notified.2
          · rw [List.mem_singleton.mp under] at notified
            exact Or.inl notified
      | fired | spreadReturn | stopped => cases member

/-- A worker only goes to sleep before the exit flag is raised. -/
theorem ShopStep.falls_asleep (move : ShopStep pool callStack thread shared frame shared' frames)
    (member : .worker shop index .sleeping ∈ frames) : shared.brexit shop = false := by
  cases move with
  | worker move =>
      cases move with
      | stay own worker running =>
          cases List.mem_singleton.mp member
          exact running
      | complete own worker drained => cases drained <;> cases List.mem_singleton.mp member
      | _ => cases List.mem_singleton.mp member
  | execution move =>
      cases move with
      | invoke | finish => cases List.mem_singleton.mp member
      | arrive host part | discount host serial => cases host <;> cases List.mem_singleton.mp member
  | fire move => cases move <;> cases List.mem_singleton.mp member
  | spread move => cases move <;> cases List.mem_singleton.mp member
  | stop move => cases move <;> cases List.mem_singleton.mp member
  | call move =>
      cases move with
      | fire frame shop' mayCall | spread frame shop' _ _ mayCall | stop frame shop' mayCall =>
          rcases List.mem_cons.mp member with impossible | under
          · cases impossible
          · rw [← List.mem_singleton.mp under] at mayCall
            cases mayCall
      | fired | spreadReturn | stopped => cases member

/-- The token of a worker is only taken by the worker when it wakes up. -/
theorem ShopStep.keeps_token (move : ShopStep pool callStack thread shared frame shared' frames)
    (token : 0 < shared.tokens shop index) : 0 < shared'.tokens shop index ∨
      (frame = .worker shop index .sleeping ∧ frames = [.worker shop index .woken]) := by
  have signalled : forall own worker, 0 < (shared.signal own worker).tokens shop index :=
    fun own worker => Nat.lt_of_lt_of_le token (Shared.tokens_le_signal shared own shop worker index)
  cases move with
  | worker move =>
      cases move with
      | wake own worker =>
          by_cases same : own = shop
          · subst same
            by_cases here : worker = index
            · subst here
              exact Or.inr ⟨rfl, rfl⟩
            · left
              simpa only [Shared.consume, Function.update_self, Function.update_of_ne (Ne.symm here)] using token
          · left
            simpa only [Shared.consume, Function.update_of_ne (Ne.symm same)] using token
      | wakeLeft | wakeRight => exact Or.inl (signalled _ _)
      | _ => exact Or.inl token
  | execution move => cases move <;> exact Or.inl token
  | fire move =>
      cases move with
      | notify => exact Or.inl (signalled _ _)
      | _ => exact Or.inl token
  | spread move =>
      cases move with
      | notifyRoot | notifyAll => exact Or.inl (signalled _ _)
      | _ => exact Or.inl token
  | stop move =>
      cases move with
      | notifyAll => exact Or.inl (signalled _ _)
      | _ => exact Or.inl token
  | call move => cases move <;> exact Or.inl token

/-- A worker that leaves its loop says so. -/
theorem ShopStep.leaves (move : ShopStep pool callStack thread shared frame shared' frames)
    (member : .worker shop index .exited ∈ frames) : shared'.exited shop index = true := by
  cases move with
  | worker move =>
      cases move with
      | exit own worker =>
          cases List.mem_singleton.mp member
          simp only [Function.update_self]
      | complete own worker drained => cases drained <;> cases List.mem_singleton.mp member
      | _ => cases List.mem_singleton.mp member
  | execution move =>
      cases move with
      | invoke | finish => cases List.mem_singleton.mp member
      | arrive host part | discount host serial => cases host <;> cases List.mem_singleton.mp member
  | fire move => cases move <;> cases List.mem_singleton.mp member
  | spread move => cases move <;> cases List.mem_singleton.mp member
  | stop move => cases move <;> cases List.mem_singleton.mp member
  | call move =>
      cases move with
      | fire frame shop' mayCall | spread frame shop' _ _ mayCall | stop frame shop' mayCall =>
          rcases List.mem_cons.mp member with impossible | under
          · cases impossible
          · rw [← List.mem_singleton.mp under] at mayCall
            cases mayCall
      | fired | spreadReturn | stopped => cases member

end Steps

section Sleep

variable [DecidableEq Shop] [DecidableEq Thread] {pool : Pool program Thread}
  {state : Stacked Thread (Frame Shop program.bits) (Shared program)} {shop : Shop} {index : Nat}

theorem exited_of_left (reachable : (shopSystem pool).Reachable state) {thread : Thread}
    (member : .worker shop index .exited ∈ state.callStack thread) : state.shared.exited shop index = true := by
  suffices all : forall thread frame, frame ∈ state.callStack thread -> frame = .worker shop index .exited ->
      state.shared.exited shop index = true from all thread _ member rfl
  clear member
  apply reachable.invariant
  · rintro state rfl thread frame member rfl
    rcases mem_initialStack member with impossible | ⟨_, _, _, impossible⟩ <;> cases impossible
  · intro before after _ earlier move
    apply frames_step move (fun state _ frame => frame = .worker shop index .exited ->
      state.shared.exited shop index = true) earlier
    · rintro thread top rest shared frames _ localStep rfl _ frame member rfl
      exact localStep.leaves member
    · rintro thread top rest shared frames _ localStep rfl other frame _ holds left
      exact localStep.stays.exited shop index (holds left)

variable [Fintype Thread]

/-- A worker that has been notified for the shutdown is awake, or has a token. -/
theorem token_of_notified (reachable : (shopSystem pool).Reachable state) (below : index < program.workers shop)
    {stopper thread : Thread} {frame : Frame Shop program.bits} (member : frame ∈ state.callStack stopper)
    (notified : frame.Notified shop index) (sleeps : .worker shop index .sleeping ∈ state.callStack thread) :
    0 < state.shared.tokens shop index := by
  induction reachable generalizing stopper thread frame with
  | initial first =>
      rw [first] at sleeps
      rcases mem_initialStack sleeps with impossible | ⟨_, _, _, impossible⟩ <;> cases impossible
  | @step before after earlier move inductionHypothesis =>
      have run := System.Reachable.step earlier move
      have requested : after.shared.brexit shop = true := by
        have stopped := stopped run stopper frame member
        cases frame with
        | stop own accepted point =>
            obtain ⟨rfl, passed⟩ := notified
            cases point with
            | store => cases passed
            | notifyAll => exact stopped.2
            | joinAll | finished => exact stopped.2.1
        | _ => cases notified
      cases move with
      | top mover top rest shared frames place localStep =>
          have here : top ∈ before.callStack mover := by rw [place]; exact List.mem_cons_self
          rcases mem_replaceTop place sleeps with ⟨_, asleep⟩ | elsewhere
          · -- whoever falls asleep has read the flag before
            rcases localStep.brexit requested with already | ⟨accepted, _, rfl⟩
            · cases already.symm.trans (localStep.falls_asleep asleep)
            · cases List.mem_singleton.mp asleep
          · have slept := mem_of_elsewhere place elsewhere
            have kept : 0 < before.shared.tokens shop index -> 0 < shared.tokens shop index := by
              intro token
              rcases localStep.keeps_token token with kept | ⟨rfl, _⟩
              · exact kept
              · -- the worker would have two frames in its loop
                have two := total_two (Frame.lives (shop, index)) before place elsewhere
                have one := lives_bound earlier (shop, index)
                have alive : (Frame.worker shop index .sleeping : Frame Shop program.bits).lives (shop, index) = 1 :=
                  Frame.lives_eq_one rfl rfl
                simp only [AtMost, alive] at two one
                omega
            rcases mem_replaceTop place member with ⟨_, new⟩ | other
            · rcases localStep.notified below new notified with before | signalled
              · exact kept (inductionHypothesis here before slept)
              · exact Nat.lt_of_lt_of_eq (Nat.succ_pos _) signalled.symm
            · exact kept (inductionHypothesis (mem_of_elsewhere place other) notified slept)

end Sleep

/-! ## What a closing shop has still to do -/

def WorkerPoint.closing : WorkerPoint -> Nat
  | .exited => 0
  | .checkExit => 1
  | .drainAll => 2
  | .drainOwn => 3
  | .completing _ => 4
  | .wakeRight => 4
  | .wakeLeft => 5
  | .woken => 6
  | .sleeping => 7

def Phase.closing : Phase -> Nat
  | .leaving => 5
  | .running => 6
  | .fetched => 7

def StopPoint.closing (workers : Nat) : StopPoint -> Nat
  | .store => 2 * workers + 3
  | .notifyAll worker => (workers - worker) + workers + 2
  | .joinAll worker => (workers - worker) + 1
  | .finished => 0

section Effort

variable [DecidableEq Shop]

/-- The steps that are left to a worker, if it finds nothing more to do, and to
the destructor. -/
def Frame.closing (program : Program Shop) (shop : Shop) : Frame Shop program.bits -> Nat
  | .worker own _ point => if own = shop then point.closing else 0
  | .executing host _ phase => if host.shop = shop then phase.closing else 0
  | .stop own _ point => if own = shop then point.closing (program.workers shop) else 0
  | _ => 0

/-- The entries of a shop in the queue. -/
def Shared.backlog (shared : Shared program) (shop : Shop) : List (Entry Shop) :=
  shared.queue.filter (fun entry => entry.shop = shop)

theorem Frame.closing_eq_zero {shop : Shop} {frame : Frame Shop program.bits} (foreign : frame.shop ≠ some shop) :
    frame.closing program shop = 0 := by
  cases frame with
  | worker own | stop own =>
      have other : own ≠ shop := fun same => foreign (congrArg some same)
      simp only [Frame.closing, if_neg other]
  | executing host =>
      have other : host.shop ≠ shop := fun same => foreign (congrArg some same)
      simp only [Frame.closing, if_neg other]
  | _ => rfl

theorem Frame.closing_resume {shop : Shop} {host : Host Shop} (home : host.home ≠ none) (own : host.shop = shop) :
    (host.resume : Frame Shop program.bits).closing program shop = 4 := by
  cases host with
  | worker own' index drain =>
      subst own
      exact if_pos rfl
  | caller | thief => exact absurd rfl home

theorem backlog_of_place {shared : Shared program} {front back : List (Entry Shop)} {entry : Entry Shop}
    (place : shared.queue = front ++ entry :: back) {shop : Shop} (own : entry.shop = shop) :
    (shared.backlog shop).length =
      ((front ++ back).filter (fun entry => entry.shop = shop)).length + 1 := by
  simp only [Shared.backlog, place, List.filter_append, List.filter_cons, own, decide_true, if_true,
    List.length_append, List.length_cons]
  omega

/-- What is left to do around the shop. -/
def Outstanding (program : Program Shop) (shop : Shop) (frame : Frame Shop program.bits) (shared : Shared program) : Nat :=
  frame.closing program shop + 6 * (shared.backlog shop).length

end Effort

section Untouched

variable [DecidableEq Shop] {pool : Pool program Thread} {callStack : Thread -> List (Frame Shop program.bits)}
  {thread : Thread} {shared shared' : Shared program} {frame : Frame Shop program.bits}
  {frames : List (Frame Shop program.bits)} {shop own : Shop}

/-- Nothing that a shop consists of has been changed. -/
structure Untouched (shop : Shop) (shared shared' : Shared program) : Prop where
  backlog : shared'.backlog shop = shared.backlog shop
  workItems : shared'.workItems shop = shared.workItems shop
  tokens : shared'.tokens shop = shared.tokens shop
  rotor : shared'.rotor shop = shared.rotor shop
  brexit : shared'.brexit shop = shared.brexit shop
  exited : shared'.exited shop = shared.exited shop
  stopping : shared'.stopping shop = shared.stopping shop

namespace Untouched

theorem refl (shop : Shop) (shared : Shared program) : Untouched shop shared shared :=
  ⟨rfl, rfl, rfl, rfl, rfl, rfl, rfl⟩

theorem trans {shared'' : Shared program} (first : Untouched shop shared shared')
    (second : Untouched shop shared' shared'') : Untouched shop shared shared'' where
  backlog := second.backlog.trans first.backlog
  workItems := second.workItems.trans first.workItems
  tokens := second.tokens.trans first.tokens
  rotor := second.rotor.trans first.rotor
  brexit := second.brexit.trans first.brexit
  exited := second.exited.trans first.exited
  stopping := second.stopping.trans first.stopping

theorem signal (other : shop ≠ own) (worker : Nat) : Untouched shop shared (shared.signal own worker) where
  backlog := rfl
  workItems := rfl
  tokens := Function.update_of_ne other _ _
  rotor := rfl
  brexit := rfl
  exited := rfl
  stopping := rfl

theorem consume (other : shop ≠ own) (worker : Nat) : Untouched shop shared (shared.consume own worker) where
  backlog := rfl
  workItems := rfl
  tokens := Function.update_of_ne other _ _
  rotor := rfl
  brexit := rfl
  exited := rfl
  stopping := rfl

theorem workItems_of (other : shop ≠ own) (items : BitVec program.bits) :
    Untouched shop shared { shared with workItems := Function.update shared.workItems own items } where
  backlog := rfl
  workItems := Function.update_of_ne other _ _
  tokens := rfl
  rotor := rfl
  brexit := rfl
  exited := rfl
  stopping := rfl

theorem removed {front back : List (Entry Shop)} {entry : Entry Shop} (place : shared.queue = front ++ entry :: back)
    (other : entry.shop ≠ shop) : Untouched shop shared { shared with queue := front ++ back } where
  backlog := by
    simp only [Shared.backlog, place, List.filter_append, List.filter_cons, decide_eq_true_eq, if_neg other]
  workItems := rfl
  tokens := rfl
  rotor := rfl
  brexit := rfl
  exited := rfl
  stopping := rfl

theorem queued {entries : List (Entry Shop)} (other : forall entry, entry ∈ entries -> entry.shop ≠ shop) :
    Untouched shop shared { shared with queue := shared.queue ++ entries } where
  backlog := by
    have none : entries.filter (fun entry => decide (entry.shop = shop)) = [] := by
      rw [List.filter_eq_nil_iff]
      intro entry member same
      exact other entry member (of_decide_eq_true same)
    simp only [Shared.backlog, List.filter_append, none, List.append_nil]
  workItems := rfl
  tokens := rfl
  rotor := rfl
  brexit := rfl
  exited := rfl
  stopping := rfl

end Untouched

theorem WorkerStep.untouched (move : WorkerStep program shared frame shared' frames)
    (foreign : frame.shop ≠ some shop) : Untouched shop shared shared' := by
  have other : forall {own : Shop}, (some own ≠ some shop) -> shop ≠ own :=
    fun different same => different (congrArg some same.symm)
  cases move with
  | takeOwn own index front entry back place mine =>
      exact .removed place (fun same => foreign (congrArg some (mine.symm.trans same)))
  | takeAny own index front entry back place mine =>
      exact .removed place (fun same => foreign (congrArg some (mine.symm.trans same)))
  | complete own index => exact .workItems_of (other foreign) _
  | exit own index => exact ⟨rfl, rfl, rfl, rfl, rfl, Function.update_of_ne (other foreign) _ _, rfl⟩
  | wake own index => exact .consume (other foreign) index
  | wakeLeft own index | wakeRight own index => exact .signal (other foreign) _
  | ownEmpty | allEmpty | stay | propagate | idle | noLeft | noRight => exact .refl shop shared

theorem FireStep.untouched (move : FireStep program shared frame shared' frames)
    (foreign : frame.shop ≠ some shop) : Untouched shop shared shared' := by
  have other : forall {own : Shop}, (some own ≠ some shop) -> shop ≠ own :=
    fun different same => different (congrArg some same.symm)
  cases move with
  | advanceRotor own serial => exact ⟨rfl, rfl, rfl, Function.update_of_ne (other foreign) _ _, rfl, rfl, rfl⟩
  | enqueue own serial target =>
      apply Untouched.queued
      intro entry member
      rw [List.mem_singleton.mp member]
      exact (other foreign).symm
  | refuse => exact ⟨rfl, rfl, rfl, rfl, rfl, rfl, rfl⟩
  | notify own serial target => exact .signal (other foreign) target
  | addItem own serial => exact .workItems_of (other foreign) _
  | countInFlight => exact ⟨rfl, rfl, rfl, rfl, rfl, rfl, rfl⟩
  | loadRotor | stick | spill => exact .refl shop shared

theorem SpreadStep.untouched {recursive : Bool} (move : SpreadStep program recursive shared frame shared' frames)
    (foreign : frame.shop ≠ some shop) : Untouched shop shared shared' := by
  have other : forall {own : Shop}, (some own ≠ some shop) -> shop ≠ own :=
    fun different same => different (congrArg some same.symm)
  have notQueued : forall {own : Shop} (token : Option Nat) (parts : List Part), (some own ≠ some shop) ->
      forall entry, entry ∈ parts.map (fun part => (⟨own, token, .part part⟩ : Entry Shop)) ->
        entry.shop ≠ shop := by
    intro own token parts different entry member
    rcases List.mem_map.mp member with ⟨part, _, rfl⟩
    exact (other different).symm
  cases move with
  | countSlice | callerCount => exact .workItems_of (other foreign) _
  | countParts => exact .workItems_of (other foreign) _
  | callerComplete | stealComplete => exact .workItems_of (other foreign) _
  | enqueueSlices own call locals worker first registered => exact .queued (notQueued (some worker) registered foreign)
  | enqueueParts own call locals parts => exact .queued (notQueued none parts foreign)
  | notifyRoot own call locals worker => exact .signal (other foreign) worker
  | notifyAll own call locals worker => exact .signal (other foreign) worker
  | steal own call locals front entry back place mine =>
      exact .removed place (fun same => foreign (congrArg some (mine.symm.trans same)))
  | _ => exact ⟨rfl, rfl, rfl, rfl, rfl, rfl, rfl⟩

theorem StopStep.untouched (move : StopStep program shared frame shared' frames)
    (foreign : frame.shop ≠ some shop) : Untouched shop shared shared' := by
  have other : forall {own : Shop}, (some own ≠ some shop) -> shop ≠ own :=
    fun different same => different (congrArg some same.symm)
  cases move with
  | store own accepted => exact ⟨rfl, rfl, rfl, rfl, Function.update_of_ne (other foreign) _ _, rfl, rfl⟩
  | notifyAll own accepted worker => exact .signal (other foreign) worker
  | notifiedAll | join | joined => exact .refl shop shared

/-- Only the threads that are working for a shop, or calling it, change it. -/
theorem ShopStep.untouched (move : ShopStep pool callStack thread shared frame shared' frames)
    (stopping : shared.stopping shop = true) (foreign : frame.shop ≠ some shop) :
    Untouched shop shared shared' := by
  cases move with
  | worker move => exact move.untouched foreign
  | execution move => cases move <;> exact ⟨rfl, rfl, rfl, rfl, rfl, rfl, rfl⟩
  | fire move => exact move.untouched foreign
  | spread move => exact move.untouched foreign
  | stop move => exact move.untouched foreign
  | call move =>
      cases move with
      | stop frame own mayCall running =>
          have other : shop ≠ own := by
            rintro rfl
            cases running.symm.trans stopping
          exact ⟨rfl, rfl, rfl, rfl, rfl, rfl, Function.update_of_ne other _ _⟩
      | _ => exact ⟨rfl, rfl, rfl, rfl, rfl, rfl, rfl⟩

/-- A destructor begins with a call. -/
theorem ShopStep.stop_origin (move : ShopStep pool callStack thread shared frame shared' frames)
    {next : Frame Shop program.bits} (member : next ∈ frames) (uses : next.shop = some shop)
    (isStop : next.isStop = true) : frame.shop = some shop ∨ shared.stopping shop = false := by
  cases move with
  | worker move => cases move <;> (rw [List.mem_singleton.mp member] at isStop; cases isStop)
  | execution move =>
      cases move with
      | invoke | finish =>
          rw [List.mem_singleton.mp member] at isStop
          cases isStop
      | arrive host part | discount host serial =>
          rw [List.mem_singleton.mp member] at uses
          exact Or.inl ((Frame.shop_resume host).symm.trans uses)
  | fire move => cases move <;> (rw [List.mem_singleton.mp member] at isStop; cases isStop)
  | spread move => cases move <;> (rw [List.mem_singleton.mp member] at uses; exact Or.inl uses)
  | stop move => cases move <;> (rw [List.mem_singleton.mp member] at uses; exact Or.inl uses)
  | call move =>
      cases move with
      | fire | spread =>
          rcases List.mem_cons.mp member with rfl | under
          · cases isStop
          · rw [List.mem_singleton.mp under] at uses
            exact Or.inl uses
      | stop frame own mayCall running =>
          rcases List.mem_cons.mp member with rfl | under
          · cases uses
            exact Or.inr running
          · rw [List.mem_singleton.mp under] at uses
            exact Or.inl uses
      | fired | spreadReturn | stopped => cases member

/-- Whoever neither works for a closed shop nor is working for it now does not
come to it any more. -/
theorem ShopStep.stays_foreign (move : ShopStep pool callStack thread shared frame shared' frames)
    (stopping : shared.stopping shop = true) (outsider : ¬ pool.Serves thread shop)
    (foreign : frame.shop ≠ some shop) {next : Frame Shop program.bits} (member : next ∈ frames) :
    next.shop ≠ some shop := by
  intro uses
  rcases move.uses member uses with ⟨own, _⟩ | running | serves | isStop
  · exact foreign own
  · cases running.symm.trans (move.stays.stopping shop stopping)
  · exact outsider serves
  · rcases move.stop_origin member uses isStop with own | running
    · exact foreign own
    · cases running.symm.trans stopping

end Untouched

/-! ## A shutdown comes to its end -/

section Closing

variable [DecidableEq Shop] {pool : Pool program Thread} {callStack : Thread -> List (Frame Shop program.bits)}
  {thread : Thread} {shared shared' : Shared program} {frame next : Frame Shop program.bits}
  {frames : List (Frame Shop program.bits)} {shop : Shop}

theorem WorkerStep.closing (move : WorkerStep program shared frame shared' [next]) (own : frame.shop = some shop)
    (brexit : shared.brexit shop = true) : Outstanding program shop next shared' < Outstanding program shop frame shared := by
  generalize following : [next] = frames at move
  cases move with
  | takeOwn shop' index front entry back place mine | takeAny shop' index front entry back place mine =>
      cases own
      cases following
      have counted := backlog_of_place place mine
      simp only [Outstanding, Frame.closing, WorkerPoint.closing, Phase.closing, Host.shop, if_true, counted]
      simp only [Shared.backlog]
      omega
  | stay shop' index running =>
      cases own
      cases running.symm.trans brexit
  | complete shop' index drained =>
      cases own
      cases following
      cases drained <;>
        simp [Outstanding, Frame.closing, WorkerPoint.closing, Shared.backlog, Shared.completeItem]
  | _ =>
      cases own
      cases following
      simp [Outstanding, Frame.closing, WorkerPoint.closing, Shared.backlog, Shared.signal, Shared.consume]

theorem ExecutionStep.closing (move : ExecutionStep program shared frame shared' [next]) (own : frame.shop = some shop)
    (home : frame.home ≠ none) : Outstanding program shop next shared' < Outstanding program shop frame shared := by
  generalize following : [next] = frames at move
  cases move with
  | invoke host work | finish host work =>
      cases own
      cases following
      simp [Outstanding, Frame.closing, Phase.closing, Shared.backlog]
  | arrive host part | discount host serial =>
      cases own
      cases following
      simp only [Outstanding, Frame.closing_resume home rfl]
      simp [Frame.closing, Phase.closing, Shared.backlog, Shared.onBarrier]

theorem ShopStep.stop_returns {accepted : List Nat}
    (move : ShopStep pool callStack thread shared (.stop shop accepted .finished) shared' frames) : frames = [] := by
  cases move with
  | worker move | execution move | fire move | stop move => cases move
  | call move =>
      cases move with
      | fire _ _ mayCall | spread _ _ _ _ mayCall | stop _ _ mayCall => cases mayCall
      | stopped => rfl

theorem StopStep.closing (move : StopStep program shared frame shared' [next]) (own : frame.shop = some shop) :
    Outstanding program shop next shared' < Outstanding program shop frame shared := by
  generalize following : [next] = frames at move
  cases move with
  | store | notifyAll | notifiedAll | join | joined =>
      cases own
      cases following
      simp only [Outstanding, Frame.closing, if_true, StopPoint.closing, Shared.backlog, Shared.signal]
      omega

/-- What a worker or the destructor does brings the shutdown nearer to its end. -/
theorem ShopStep.closing (move : ShopStep pool callStack thread shared frame shared' [next])
    (own : frame.shop = some shop) (part : frame.home ≠ none ∨ frame.isStop = true)
    (brexit : shared.brexit shop = true) :
    Outstanding program shop next shared' < Outstanding program shop frame shared := by
  generalize following : [next] = frames at move
  cases move with
  | worker move =>
      subst following
      exact move.closing own brexit
  | execution move =>
      subst following
      apply move.closing own
      rcases part with home | isStop
      · exact home
      · cases move <;> cases isStop
  | fire move => cases move <;> (rcases part with home | isStop; exact absurd rfl home; cases isStop)
  | spread move =>
      rcases part with home | isStop
      · exact absurd rfl home
      · cases isStop
  | stop move =>
      subst following
      exact move.closing own
  | call move => cases move <;> cases following

end Closing

section Runs

variable [DecidableEq Shop] [DecidableEq Thread] {pool : Pool program Thread}
  {state later : Stacked Thread (Frame Shop program.bits) (Shared program)} {shop : Shop}

/-- The destructor of the shop has raised the exit flag, and no functor that a
worker of the shop executes is inside a call of its own. -/
structure Closing (pool : Pool program Thread) (shop : Shop) (stopper : Thread)
    (state : Stacked Thread (Frame Shop program.bits) (Shared program)) : Prop where
  reachable : (shopSystem pool).Reachable state
  brexit : state.shared.brexit shop = true
  destructor : Exists fun accepted => Exists fun point => Exists fun rest =>
    state.callStack stopper = .stop shop accepted point :: rest
  alone : forall worker, pool.Serves worker shop -> Exists fun base => state.callStack worker = [base]

/-- A run in which the functors that the workers of the shop execute return
without calling anything.  The steps for the shop are counted; what the other
threads do is left open. -/
inductive ClosingRun (pool : Pool program Thread) (shop : Shop)
    (state : Stacked Thread (Frame Shop program.bits) (Shared program)) :
    Nat -> Stacked Thread (Frame Shop program.bits) (Shared program) -> Prop
  | start : ClosingRun pool shop state 0 state
  | own {steps} {middle : Stacked Thread (Frame Shop program.bits) (Shared program)} (thread frame rest shared next) :
      ClosingRun pool shop state steps middle -> middle.callStack thread = frame :: rest ->
      frame.shop = some shop -> ShopStep pool middle.callStack thread middle.shared frame shared [next] ->
      ClosingRun pool shop state (steps + 1) (middle.replaceTop thread shared ([next] ++ rest))
  | other {steps} {middle : Stacked Thread (Frame Shop program.bits) (Shared program)} (thread frame rest shared frames) :
      ClosingRun pool shop state steps middle -> middle.callStack thread = frame :: rest ->
      frame.shop ≠ some shop -> ShopStep pool middle.callStack thread middle.shared frame shared frames ->
      ClosingRun pool shop state steps (middle.replaceTop thread shared (frames ++ rest))

namespace Closing

variable {stopper thread : Thread} {frame next : Frame Shop program.bits}
  {rest frames : List (Frame Shop program.bits)} {shared : Shared program}

theorem stopping (closing : Closing pool shop stopper state) : state.shared.stopping shop = true :=
  stopping_of_brexit closing.reachable closing.brexit

/-- A worker of the shop is in its loop. -/
theorem loop (closing : Closing pool shop stopper state) {index : Nat} (role : pool.role thread = some (shop, index)) :
    Exists fun base => state.callStack thread = [base] ∧ base.home = some (shop, index) := by
  rcases closing.alone thread ⟨index, role⟩ with ⟨base, stack⟩
  rcases based closing.reachable role with ⟨upper, base', stack', home, _⟩
  cases upper with
  | nil =>
      cases stack.symm.trans stack'
      exact ⟨base, stack, home⟩
  | cons top upper =>
      have longer := congrArg List.length (stack.symm.trans stack')
      simp at longer

/-- Only the workers and the destructor are still using the shop. -/
theorem own_cases (closing : Closing pool shop stopper state) (place : state.callStack thread = frame :: rest)
    (own : frame.shop = some shop) :
    (Exists fun index => pool.role thread = some (shop, index) ∧ frame.home = some (shop, index)) ∨
      (¬ pool.Serves thread shop ∧ frame.isStop = true) := by
  by_cases serves : pool.Serves thread shop
  · rcases serves with ⟨index, role⟩
    rcases closing.loop role with ⟨base, stack, home⟩
    cases place.symm.trans stack
    exact Or.inl ⟨index, role, home⟩
  · have member : frame ∈ state.callStack thread := by rw [place]; exact List.mem_cons_self
    exact Or.inr ⟨serves, isStop_of_stopping closing.reachable thread frame member closing.stopping serves own⟩

theorem own_step (closing : Closing pool shop stopper state) (place : state.callStack thread = frame :: rest)
    (own : frame.shop = some shop) (move : ShopStep pool state.callStack thread state.shared frame shared [next]) :
    Closing pool shop stopper (state.replaceTop thread shared ([next] ++ rest)) where
  reachable := advance closing.reachable thread place move
  brexit := move.stays.brexit shop closing.brexit
  destructor := by
    rcases closing.destructor with ⟨accepted, point, below, running⟩
    by_cases same : stopper = thread
    · subst same
      cases running.symm.trans place
      rcases move.stop_persists rfl rfl with ⟨last, member, uses, isStop⟩ | ⟨_, finished⟩
      · cases List.mem_singleton.mp member
        rcases Frame.eq_stop uses isStop with ⟨accepted', point', rfl⟩
        exact ⟨accepted', point', rest, callStack_replaceTop state stopper shared _⟩
      · -- the destructor has been left, and would return here
        cases finished
        cases move.stop_returns
    · rw [callStack_replaceTop_of_ne state same]
      exact ⟨accepted, point, below, running⟩
  alone := by
    rintro worker ⟨index, role⟩
    by_cases same : worker = thread
    · subst same
      rcases closing.loop role with ⟨base, stack, _⟩
      cases place.symm.trans stack
      exact ⟨next, callStack_replaceTop state worker shared _⟩
    · rw [callStack_replaceTop_of_ne state same]
      exact closing.alone worker ⟨index, role⟩

theorem outsider (closing : Closing pool shop stopper state) (place : state.callStack thread = frame :: rest)
    (foreign : frame.shop ≠ some shop) : ¬ pool.Serves thread shop := by
  rintro ⟨index, role⟩
  rcases closing.loop role with ⟨base, stack, home⟩
  cases place.symm.trans stack
  exact foreign (Frame.shop_of_home home)

theorem other_step (closing : Closing pool shop stopper state) (place : state.callStack thread = frame :: rest)
    (foreign : frame.shop ≠ some shop)
    (move : ShopStep pool state.callStack thread state.shared frame shared frames) :
    Closing pool shop stopper (state.replaceTop thread shared (frames ++ rest)) where
  reachable := advance closing.reachable thread place move
  brexit := move.stays.brexit shop closing.brexit
  destructor := by
    rcases closing.destructor with ⟨accepted, point, below, running⟩
    have different : stopper ≠ thread := by
      rintro rfl
      cases running.symm.trans place
      exact foreign rfl
    rw [callStack_replaceTop_of_ne state different]
    exact ⟨accepted, point, below, running⟩
  alone := by
    intro worker serves
    have different : worker ≠ thread := by
      rintro rfl
      exact closing.outsider place foreign serves
    rw [callStack_replaceTop_of_ne state different]
    exact closing.alone worker serves

theorem run (closing : Closing pool shop stopper state) {steps : Nat} (run : ClosingRun pool shop state steps later) :
    Closing pool shop stopper later := by
  induction run with
  | start => exact closing
  | own thread frame rest shared next _ place own move inductionHypothesis =>
      exact inductionHypothesis.own_step place own move
  | other thread frame rest shared frames _ place foreign move inductionHypothesis =>
      exact inductionHypothesis.other_step place foreign move

end Closing

omit [DecidableEq Thread] in
/-- A worker in its loop can go on when the exit flag is raised: if it sleeps it
has a token. -/
theorem worker_goes_on {callStack : Thread -> List (Frame Shop program.bits)} {thread : Thread}
    {shared : Shared program} {index : Nat} {base : Frame Shop program.bits} (home : base.home = some (shop, index))
    (brexit : shared.brexit shop = true) (stays : base.left = false)
    (token : base = .worker shop index .sleeping -> 0 < shared.tokens shop index) :
    Exists fun shared' => Exists fun next => ShopStep pool callStack thread shared base shared' [next] := by
  cases base with
  | worker own worker point =>
      cases home
      cases point with
      | drainOwn =>
          by_cases found : Exists fun entry => entry ∈ shared.queue ∧ entry.shop = shop ∧ entry.token = some index
          · rcases found with ⟨entry, member, mine, owned⟩
            rcases List.append_of_mem member with ⟨front, back, place⟩
            exact ⟨_, _, .worker (.takeOwn shop index front entry back place mine owned)⟩
          · exact ⟨_, _, .worker (.ownEmpty shop index
              (fun entry member mine owned => found ⟨entry, member, mine, owned⟩))⟩
      | drainAll =>
          by_cases found : Exists fun entry => entry ∈ shared.queue ∧ entry.shop = shop
          · rcases found with ⟨entry, member, mine⟩
            rcases List.append_of_mem member with ⟨front, back, place⟩
            exact ⟨_, _, .worker (.takeAny shop index front entry back place mine)⟩
          · exact ⟨_, _, .worker (.allEmpty shop index (fun entry member mine => found ⟨entry, member, mine⟩))⟩
      | completing drained => exact ⟨_, _, .worker (.complete shop index drained)⟩
      | checkExit => exact ⟨_, _, .worker (.exit shop index brexit)⟩
      | sleeping => exact ⟨_, _, .worker (.wake shop index (token rfl))⟩
      | woken =>
          by_cases idle : shared.workItems shop = 0
          · exact ⟨_, _, .worker (.idle shop index idle)⟩
          · exact ⟨_, _, .worker (.propagate shop index idle)⟩
      | wakeLeft =>
          rcases Nat.lt_or_ge ((2 * index + 1) % 2 ^ program.bits) (program.workers shop) with child | none
          · exact ⟨_, _, .worker (.wakeLeft shop index child)⟩
          · exact ⟨_, _, .worker (.noLeft shop index none)⟩
      | wakeRight =>
          rcases Nat.lt_or_ge ((2 * index + 2) % 2 ^ program.bits) (program.workers shop) with child | none
          · exact ⟨_, _, .worker (.wakeRight shop index child)⟩
          · exact ⟨_, _, .worker (.noRight shop index none)⟩
      | exited => cases stays
  | executing host work phase =>
      cases phase with
      | fetched => exact ⟨_, _, .execution (.invoke host work)⟩
      | running => exact ⟨_, _, .execution (.finish host work)⟩
      | leaving =>
          cases work with
          | item serial => exact ⟨_, _, .execution (.discount host serial)⟩
          | part piece => exact ⟨_, _, .execution (.arrive host piece)⟩
  | _ => cases home

variable [Fintype Thread]

/-- What is left of a shutdown. -/
def remaining (shop : Shop) (state : Stacked Thread (Frame Shop program.bits) (Shared program)) : Nat :=
  state.total (Frame.closing program shop) + 6 * (state.shared.backlog shop).length

theorem ClosingRun.steps_le {stopper : Thread} (closing : Closing pool shop stopper state) {steps : Nat}
    (run : ClosingRun pool shop state steps later) : steps + remaining shop later ≤ remaining shop state := by
  induction run with
  | start => exact Nat.le_of_eq (Nat.zero_add _)
  | @own steps middle thread frame rest shared next earlier place own move inductionHypothesis =>
      have now := closing.run earlier
      have moved := total_replaceTop (Frame.closing program shop) middle place shared [next]
      have part : frame.home ≠ none ∨ frame.isStop = true := by
        rcases now.own_cases place own with ⟨index, _, home⟩ | ⟨_, isStop⟩
        · exact Or.inl (fun empty => by cases empty.symm.trans home)
        · exact Or.inr isStop
      have nearer := move.closing own part now.brexit
      simp only [Outstanding] at nearer
      simp only [weigh_cons, weigh_nil, Nat.add_zero] at moved
      unfold remaining at inductionHypothesis ⊢
      change steps + 1 + (_ + 6 * (shared.backlog shop).length) ≤ _
      omega
  | @other steps middle thread frame rest shared frames earlier place foreign move inductionHypothesis =>
      have now := closing.run earlier
      have moved := total_replaceTop (Frame.closing program shop) middle place shared frames
      have new : weigh (Frame.closing program shop) frames = 0 := by
        rw [weigh_eq_zero_iff]
        intro next member
        exact Frame.closing_eq_zero (move.stays_foreign now.stopping (now.outsider place foreign) foreign member)
      have kept := (move.untouched now.stopping foreign).backlog
      rw [Frame.closing_eq_zero foreign, new] at moved
      unfold remaining at inductionHypothesis ⊢
      change steps + (_ + 6 * (shared.backlog shop).length) ≤ _
      rw [kept]
      omega

theorem Closing.goes_on {stopper : Thread} (closing : Closing pool shop stopper state) :
    (Exists fun accepted => Exists fun rest => state.callStack stopper = .stop shop accepted .finished :: rest) ∨
      Exists fun later => ClosingRun pool shop state 1 later := by
  rcases closing.destructor with ⟨accepted, point, rest, place⟩
  have stop : forall {shared : Shared program} {next : Frame Shop program.bits}, StopStep program state.shared (.stop shop accepted point) shared [next] ->
      Exists fun later => ClosingRun pool shop state 1 later :=
    fun move => ⟨_, .own stopper _ rest _ _ .start place rfl (.stop move)⟩
  cases point with
  | finished => exact Or.inl ⟨accepted, rest, place⟩
  | store => exact Or.inr (stop (.store shop accepted))
  | notifyAll worker =>
      rcases Nat.lt_or_ge worker (program.workers shop) with below | all
      · exact Or.inr (stop (.notifyAll shop accepted worker below))
      · exact Or.inr (stop (.notifiedAll shop accepted worker all))
  | joinAll worker =>
      right
      rcases Nat.lt_or_ge worker (program.workers shop) with below | all
      · cases gone : state.shared.exited shop worker with
        | true => exact stop (.join shop accepted worker below gone)
        | false =>
            rcases pool.staffed shop worker below with ⟨thread, role⟩
            rcases closing.loop role with ⟨base, stack, home⟩
            have member : base ∈ state.callStack thread := by rw [stack]; exact List.mem_singleton_self _
            have stays : base.left = false := by
              by_contra left
              cases base with
              | worker own index point =>
                  cases home
                  cases point with
                  | exited => cases gone.symm.trans (exited_of_left closing.reachable member)
                  | _ => exact left rfl
              | _ => exact left rfl
            have destructor : Frame.stop shop accepted (.joinAll worker) ∈ state.callStack stopper := by
              rw [place]
              exact List.mem_cons_self
            have token : base = .worker shop worker .sleeping -> 0 < state.shared.tokens shop worker := by
              rintro rfl
              exact token_of_notified closing.reachable below destructor ⟨rfl, trivial⟩ member
            rcases worker_goes_on home closing.brexit stays token with ⟨shared, next, move⟩
            exact ⟨_, .own thread base [] shared next .start stack (Frame.shop_of_home home) move⟩
      · exact stop (.joined shop accepted worker all)

/-- A shutdown comes to its end: from the moment in which the exit flag is
raised, the workers and the destructor make a bounded number of steps, whatever
the other threads do, and until the destructor has seen every worker leave one
of them can take a step.  Only functors that call something may delay it. -/
theorem shutdown_ends (pool : Pool program Thread) (shop : Shop) (stopper : Thread)
    (state later : Stacked Thread (Frame Shop program.bits) (Shared program))
    (closing : Closing pool shop stopper state) (steps : Nat) (run : ClosingRun pool shop state steps later) :
    steps ≤ remaining shop state ∧
      ((Exists fun accepted => Exists fun rest => later.callStack stopper = .stop shop accepted .finished :: rest) ∨
        Exists fun next => ClosingRun pool shop later 1 next) := by
  constructor
  · exact Nat.le_trans (Nat.le_add_right _ _) (run.steps_le closing)
  · exact (closing.run run).goes_on

end Runs

/-! ## After the destructor -/

section Destroyed

variable [DecidableEq Shop] {pool : Pool program Thread}

/-- The destructor of the shop has been called, and has returned. -/
def Destroyed (shop : Shop) (state : Stacked Thread (Frame Shop program.bits) (Shared program)) : Prop :=
  state.shared.stopping shop = true ∧
    forall thread frame, frame ∈ state.callStack thread -> frame.shop = some shop -> frame.isStop = false

theorem ShopStep.stopping_begins {callStack : Thread -> List (Frame Shop program.bits)} {thread : Thread}
    {shared shared' : Shared program} {frame : Frame Shop program.bits} {frames : List (Frame Shop program.bits)}
    (move : ShopStep pool callStack thread shared frame shared' frames) {shop : Shop}
    (now : shared'.stopping shop = true) : shared.stopping shop = true ∨
      Exists fun accepted => frames = [.stop shop accepted .store, frame] := by
  cases move with
  | worker move => cases move <;> exact Or.inl now
  | execution move => cases move <;> exact Or.inl now
  | fire move => cases move <;> exact Or.inl now
  | spread move => cases move <;> exact Or.inl now
  | stop move => cases move <;> exact Or.inl now
  | call move =>
      cases move with
      | stop frame own =>
          by_cases same : shop = own
          · subst same
            exact Or.inr ⟨_, rfl⟩
          · simp only [Function.update_of_ne same] at now
            exact Or.inl now
      | _ => exact Or.inl now

/-- A loop that has been left is not entered again. -/
theorem ShopStep.not_exited {callStack : Thread -> List (Frame Shop program.bits)} {thread : Thread}
    {shared shared' : Shared program} {frames : List (Frame Shop program.bits)} {shop : Shop} {index : Nat} :
    ¬ ShopStep pool callStack thread shared (.worker shop index .exited) shared' frames := by
  intro move
  cases move with
  | worker move | execution move | fire move | stop move => cases move
  | call move =>
      cases move with
      | fire _ _ mayCall | spread _ _ _ _ mayCall | stop _ _ mayCall => cases mayCall

variable [DecidableEq Thread] {state later : Stacked Thread (Frame Shop program.bits) (Shared program)} {shop : Shop}

/-- A shop that may not be called any more has its destructor running, or has
lost all its workers. -/
theorem stopping_cases (reachable : (shopSystem pool).Reachable state) (stopping : state.shared.stopping shop = true) :
    (Exists fun thread => Exists fun frame =>
      frame ∈ state.callStack thread ∧ frame.shop = some shop ∧ frame.isStop = true) ∨
      forall index, index < program.workers shop -> state.shared.exited shop index = true := by
  induction reachable with
  | initial first =>
      rw [first] at stopping
      cases stopping
  | @step before after earlier move inductionHypothesis =>
      cases move with
      | top thread top rest shared frames place localStep =>
          have atThread := callStack_replaceTop before thread shared (frames ++ rest)
          rcases localStep.stopping_begins stopping with already | ⟨accepted, rfl⟩
          · rcases inductionHypothesis already with ⟨other, frame, member, own, stop⟩ | all
            · by_cases same : other = thread
              · subst same
                rw [place] at member
                rcases List.mem_cons.mp member with rfl | below
                · rcases localStep.stop_persists own stop with ⟨next, present, nextOwn, nextStop⟩ | ⟨accepted, rfl⟩
                  · exact Or.inl ⟨other, next, by rw [atThread]; exact List.mem_append_left _ present,
                      nextOwn, nextStop⟩
                  · have done : Frame.Stopped before.shared (.stop shop accepted .finished) :=
                      stopped earlier other _ (by rw [place]; exact List.mem_cons_self)
                    exact Or.inr (fun index below => localStep.stays.exited shop index (done.2.2 index below))
                · exact Or.inl ⟨other, frame, by rw [atThread]; exact List.mem_append_right _ below, own, stop⟩
              · have kept := callStack_replaceTop_of_ne before same shared (frames ++ rest)
                exact Or.inl ⟨other, frame, by rw [kept]; exact member, own, stop⟩
            · exact Or.inr (fun index below => localStep.stays.exited shop index (all index below))
          · exact Or.inl ⟨thread, _, by rw [atThread]; exact List.mem_cons_self, rfl, rfl⟩

variable [Fintype Thread]

namespace Destroyed

/-- Whatever frame still refers to a destroyed shop is a loop that has been left. -/
theorem left (destroyed : Destroyed shop state) (reachable : (shopSystem pool).Reachable state) {thread : Thread}
    {frame : Frame Shop program.bits} (member : frame ∈ state.callStack thread) (own : frame.shop = some shop) :
    Exists fun index => pool.role thread = some (shop, index) ∧
      state.callStack thread = [.worker shop index .exited] := by
  have exited : forall index, index < program.workers shop -> state.shared.exited shop index = true := by
    rcases stopping_cases reachable destroyed.1 with ⟨other, stop, present, uses, isStop⟩ | all
    · cases (destroyed.2 other stop present uses).symm.trans isStop
    · exact all
  by_cases serves : pool.Serves thread shop
  · rcases serves with ⟨index, role⟩
    exact ⟨index, role, callStack_of_exited reachable role (exited index (pool.inside thread shop index role))⟩
  · have isStop := isStop_of_stopping reachable thread frame member destroyed.1 serves own
    cases (destroyed.2 thread frame member own).symm.trans isStop

/-- Nobody takes a step for a destroyed shop. -/
theorem foreign (destroyed : Destroyed shop state) (reachable : (shopSystem pool).Reachable state) {thread : Thread}
    {frame : Frame Shop program.bits} {rest frames : List (Frame Shop program.bits)} {shared : Shared program}
    (place : state.callStack thread = frame :: rest)
    (move : ShopStep pool state.callStack thread state.shared frame shared frames) : frame.shop ≠ some shop := by
  intro own
  have member : frame ∈ state.callStack thread := by rw [place]; exact List.mem_cons_self
  rcases destroyed.left reachable member own with ⟨index, _, stack⟩
  cases place.symm.trans stack
  exact move.not_exited

theorem outsider (destroyed : Destroyed shop state) (reachable : (shopSystem pool).Reachable state) {thread : Thread}
    {frame : Frame Shop program.bits} {rest : List (Frame Shop program.bits)}
    (place : state.callStack thread = frame :: rest) (foreign : frame.shop ≠ some shop) :
    ¬ pool.Serves thread shop := by
  rintro ⟨index, role⟩
  rcases based reachable role with ⟨upper, base, stack, home, _⟩
  have member : base ∈ state.callStack thread := by
    rw [stack]
    exact List.mem_append_right _ (List.mem_singleton_self _)
  rcases destroyed.left reachable member (Frame.shop_of_home home) with ⟨own, _, exited⟩
  cases place.symm.trans exited
  exact foreign rfl

theorem step (destroyed : Destroyed shop state) (reachable : (shopSystem pool).Reachable state)
    (move : (shopSystem pool).step state later) :
    Destroyed shop later ∧ Untouched shop state.shared later.shared := by
  cases move with
  | top mover top rest shared frames place localStep =>
      have foreign := destroyed.foreign reachable place localStep
      have untouched := localStep.untouched destroyed.1 foreign
      refine ⟨⟨untouched.stopping.trans destroyed.1, ?_⟩, untouched⟩
      intro thread frame member own
      rcases mem_replaceTop place member with ⟨_, new⟩ | elsewhere
      · have outsider := destroyed.outsider reachable place foreign
        exact absurd own (localStep.stays_foreign destroyed.1 outsider foreign new)
      · exact destroyed.2 thread frame (mem_of_elsewhere place elsewhere) own

end Destroyed

/-- A destroyed shop is left alone: from the return of the destructor on, in
every continuation of the run, no thread has anything to do with the shop but
for the loops that its workers have left, and nothing of the shop changes. -/
theorem destroyed_shop_is_left_alone (pool : Pool program Thread) (shop : Shop)
    (state later : Stacked Thread (Frame Shop program.bits) (Shared program))
    (reachable : (shopSystem pool).Reachable state) (destroyed : Destroyed shop state)
    (continues : (shopSystem pool).Continues state later) :
    (forall thread frame, frame ∈ later.callStack thread -> frame.shop = some shop ->
      Exists fun index => pool.role thread = some (shop, index) ∧
        later.callStack thread = [.worker shop index .exited]) ∧
      Untouched shop state.shared later.shared := by
  have kept : Destroyed shop later ∧ Untouched shop state.shared later.shared := by
    induction continues with
    | refl => exact ⟨destroyed, .refl shop _⟩
    | tail earlier move inductionHypothesis =>
        have next := inductionHypothesis.1.step (reachable.continues earlier) move
        exact ⟨next.1, inductionHypothesis.2.trans next.2⟩
  exact ⟨fun _ _ member own => kept.1.left (reachable.continues continues) member own, kept.2⟩

end Destroyed

/-! ## Two shops -/

/-- Two shops with one worker thread each, on Linux. -/
def pairProgram : Program Bool where
  concurrency := .uint16
  barrierKind := .futexBarrier .linux
  sizeBits := 64
  singleCorePlatform := true
  enqueueMayFail := false
  workerThreads := fun _ => 1

/-- The workers of the two shops, and a thread that calls them. -/
def pairPool : Pool pairProgram (Option Bool) where
  role := fun thread => thread.map (fun shop => (shop, 0))
  inside := by
    rintro (_ | own) shop index served <;> cases served
    exact Nat.zero_lt_one
  distinct := by
    rintro (_ | first) (_ | second) worker served served' <;> cases served <;> cases served'
    rfl
  staffed := by
    intro shop index below
    have only : index = 0 := Nat.lt_one_iff.mp below
    exact ⟨some shop, by rw [only]; rfl⟩

private theorem caller_outside (shop : Bool) : ¬ pairPool.Serves none shop := by
  rintro ⟨index, impossible⟩
  cases impossible

private theorem not_called :
    forall other, ¬ pairPool.Serves other false ->
      forall user, user ∈ (pairPool.initialStack other : List (Frame Bool pairProgram.bits)) ->
        user.shop ≠ some false := by
  rintro (_ | own) foreign user member same
  · cases List.mem_singleton.mp member
    cases same
  · cases List.mem_singleton.mp member
    cases same
    exact foreign ⟨0, rfl⟩

private theorem still {state : Stacked (Option Bool) (Frame Bool pairProgram.bits) (Shared pairProgram)}
    (_reachable : (shopSystem pairPool).Reachable state) : (shopSystem pairPool).Continues state state := .refl

/-- The caller has just asked the worker of the first shop to exit. -/
theorem shutdown_ends_pair :
    Exists fun state => Closing pairPool false none state ∧ remaining false state = 7 ∧
      forall later steps, ClosingRun pairPool false state steps later -> steps ≤ 7 := by
  have start : (shopSystem pairPool).Reachable ⟨Shared.fresh, pairPool.initialStack⟩ := .initial rfl
  have called := advance start none rfl (.call (.stop .outside false rfl rfl (caller_outside false) not_called))
  have requested := advance called none rfl (.stop (.store false []))
  have alone : forall worker, pairPool.Serves worker false -> Exists fun base =>
      (pairPool.initialStack worker : List (Frame Bool pairProgram.bits)) = [base] := by
    rintro (_ | own) serves
    · exact absurd serves (caller_outside false)
    · exact ⟨_, rfl⟩
  have closing : Closing pairPool false none _ :=
    ⟨requested, rfl, ⟨[], .notifyAll 0, [.outside], rfl⟩, by
      rintro (_ | own) serves
      · exact absurd serves (caller_outside false)
      · exact alone (some own) serves⟩
  exact ⟨_, closing, rfl, fun later steps run =>
    (shutdown_ends pairPool false none _ later closing steps run).1⟩

/-- The caller uses the second shop after it has destroyed the first one. -/
theorem destroyed_shop_is_left_alone_pair :
    Exists fun state => Exists fun later => Destroyed false state ∧
      (shopSystem pairPool).Continues state later ∧ later.shared.accepted = [(true, 0)] ∧
      Untouched false state.shared later.shared := by
  have start : (shopSystem pairPool).Reachable ⟨Shared.fresh, pairPool.initialStack⟩ := .initial rfl
  have called := advance start none rfl (.call (.stop .outside false rfl rfl (caller_outside false) not_called))
  have requested := advance called none rfl (.stop (.store false []))
  have nothing := advance requested (some false) rfl
    (.worker (.ownEmpty false 0 (fun _ queued => absurd queued List.not_mem_nil)))
  have nothing := advance nothing (some false) rfl
    (.worker (.allEmpty false 0 (fun _ queued => absurd queued List.not_mem_nil)))
  have exited := advance nothing (some false) rfl (.worker (.exit false 0 rfl))
  have notified := advance exited none rfl (.stop (.notifyAll false [] 0 (by decide)))
  have notified := advance notified none rfl (.stop (.notifiedAll false [] 1 (by decide)))
  have joined := advance notified none rfl (.stop (.join false [] 0 (by decide) rfl))
  have joined := advance joined none rfl (.stop (.joined false [] 1 (by decide)))
  have returned := advance joined none rfl (.call (.stopped false []))
  have called := proceed (still returned) none rfl (.call (.fire .outside true rfl (Or.inl rfl)))
  have loaded := proceed called none rfl (.fire (.loadRotor true 0))
  have chosen := proceed loaded none rfl (.fire (.stick true 0 _ (by decide)))
  have queued := proceed chosen none rfl (.fire (.enqueue true 0 _))
  have notified := proceed queued none rfl (.fire (.notify true 0 _ _))
  have added := proceed notified none rfl (.fire (.addItem true 0 _))
  have counted := proceed added none rfl (.fire (.countInFlight true 0))
  have fired := proceed counted none rfl (.call (.fired true 0 _))
  suffices destroyed : Destroyed false _ from
    ⟨_, _, destroyed, fired, rfl,
      (destroyed_shop_is_left_alone pairPool false _ _ returned destroyed fired).2⟩
  constructor
  · rfl
  · rintro (_ | _ | _) frame member own <;> cases List.mem_singleton.mp member <;> rfl

end Shop
end Sweater
