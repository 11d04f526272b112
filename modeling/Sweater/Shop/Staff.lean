import Sweater.Shop.WorkAccount

namespace Sweater
namespace Shop

open Threading
open Spread
open Interleaving
open Interleaving.Stacked

/-!
# Who works for a shop

Facts about the stacks that do not depend on what is in the queue.  The stack
of a worker thread stands on the frame of its loop, and calls from it are made
by the work that this frame executes.  A worker that has left its loop is not
seen again.  Once the destructor of a shop has been called, only the workers of
the shop still use it, apart from the destructor itself.
-/

variable {Shop Thread : Type} {program : Program Shop}

/-! ## Frames of a worker's loop -/

def Host.home : Host Shop -> Option (Shop × Nat)
  | .worker shop index _ => some (shop, index)
  | .caller _ _ _ => none
  | .thief _ _ _ => none

namespace Frame

variable {bits : Nat}

/-- The worker whose loop a frame belongs to. -/
def home : Frame Shop bits -> Option (Shop × Nat)
  | worker shop index _ => some (shop, index)
  | executing host _ _ => host.home
  | _ => none

/-- A loop that has been left. -/
def left : Frame Shop bits -> Bool
  | worker _ _ .exited => true
  | _ => false

@[simp] theorem home_resume (host : Host Shop) : (host.resume : Frame Shop bits).home = host.home := by
  cases host <;> rfl

@[simp] theorem left_resume (host : Host Shop) : (host.resume : Frame Shop bits).left = false := by
  cases host <;> rfl

@[simp] theorem shop_resume (host : Host Shop) : (host.resume : Frame Shop bits).shop = some host.shop := by
  cases host <;> rfl

theorem shop_of_home {frame : Frame Shop bits} {shop : Shop} {index : Nat}
    (own : frame.home = some (shop, index)) : frame.shop = some shop := by
  cases frame with
  | worker shop' index' point =>
      cases own
      rfl
  | executing host work phase =>
      cases host with
      | worker shop' index' drain =>
          cases own
          rfl
      | caller | thief => cases own
  | _ => cases own

variable [DecidableEq Shop]

/-- One for the frame of a loop that has not been left. -/
def lives (worker : Shop × Nat) (frame : Frame Shop bits) : Nat :=
  if frame.left then 0 else if frame.home = some worker then 1 else 0

@[simp] theorem lives_resume (worker : Shop × Nat) (host : Host Shop) (work : Work) (phase : Phase) :
    (host.resume : Frame Shop bits).lives worker = (executing host work phase : Frame Shop bits).lives worker := by
  cases host <;> rfl

theorem lives_eq_one {worker : Shop × Nat} {frame : Frame Shop bits} (own : frame.home = some worker)
    (stays : frame.left = false) : frame.lives worker = 1 := by
  simp [lives, own, stays]

end Frame

section Steps

variable [DecidableEq Shop] {pool : Pool program Thread} {callStack : Thread -> List (Frame Shop program.bits)}
  {thread : Thread} {shared shared' : Shared program} {frame : Frame Shop program.bits}
  {frames : List (Frame Shop program.bits)}

/-- The frame of a loop is replaced by another one, or user code calls from it. -/
theorem ShopStep.home (move : ShopStep pool callStack thread shared frame shared' frames)
    {worker : Shop × Nat} (own : frame.home = some worker) :
    (Exists fun next => frames = [next] ∧ next.home = some worker) ∨
      (Exists fun called => frames = [called, frame] ∧ frame.mayCall = true) := by
  cases move with
  | worker move => cases move <;> exact Or.inl ⟨_, rfl, own⟩
  | execution move =>
      cases move with
      | invoke | finish => exact Or.inl ⟨_, rfl, own⟩
      | arrive host part | discount host serial =>
          exact Or.inl ⟨_, rfl, (Frame.home_resume host).trans own⟩
  | fire move => cases move <;> cases own
  | spread move => cases own
  | stop move => cases move <;> cases own
  | call move =>
      cases move with
      | fire _ _ mayCall | spread _ _ _ _ mayCall | stop _ _ mayCall => exact Or.inr ⟨_, rfl, mayCall⟩
      | fired | spreadReturn | stopped => cases own

/-- No step enters the loop of a worker. -/
theorem ShopStep.home_of_mem (move : ShopStep pool callStack thread shared frame shared' frames)
    {next : Frame Shop program.bits} (member : next ∈ frames) {worker : Shop × Nat}
    (own : next.home = some worker) : frame.home = some worker := by
  cases move with
  | worker move => cases move <;> (rw [List.mem_singleton.mp member] at own; exact own)
  | execution move =>
      cases move with
      | invoke | finish =>
          rw [List.mem_singleton.mp member] at own
          exact own
      | arrive host part | discount host serial =>
          rw [List.mem_singleton.mp member, Frame.home_resume] at own
          exact own
  | fire move => cases move <;> (rw [List.mem_singleton.mp member] at own; cases own)
  | spread move => cases move <;> (rw [List.mem_singleton.mp member] at own; cases own)
  | stop move => cases move <;> (rw [List.mem_singleton.mp member] at own; cases own)
  | call move =>
      cases move with
      | fire | spread | stop =>
          rcases List.mem_cons.mp member with rfl | below
          · cases own
          · rwa [List.mem_singleton.mp below] at own
      | fired | spreadReturn | stopped => cases member

/-- A worker leaves its loop when it says so. -/
theorem ShopStep.lives (move : ShopStep pool callStack thread shared frame shared' frames) (worker : Shop × Nat) :
    1 + weigh (Frame.lives worker) frames + (if shared'.exited worker.1 worker.2 = true then 1 else 0) ≤
      1 + frame.lives worker + (if shared.exited worker.1 worker.2 = true then 1 else 0) := by
  cases move with
  | worker move =>
      cases move with
      | exit shop index =>
          simp only [weigh_cons, weigh_nil, Frame.lives, Frame.left, Frame.home, Option.some.injEq]
          by_cases same : (shop, index) = worker
          · subst same
            simp
          · have kept : (Function.update shared.exited shop (Function.update (shared.exited shop) index true))
                worker.1 worker.2 = shared.exited worker.1 worker.2 := by
              by_cases home : worker.1 = shop
              · have other : worker.2 ≠ index := fun equal => same (Prod.ext home.symm equal.symm)
                rw [home, Function.update_self, Function.update_of_ne other]
              · rw [Function.update_of_ne home]
            simp only [kept, if_neg same]
            exact Nat.le_refl _
      | complete shop index own => cases own <;> exact Nat.le_refl _
      | _ => exact Nat.le_refl _
  | execution move =>
      cases move with
      | invoke | finish => exact Nat.le_refl _
      | arrive host part =>
          rw [weigh_cons, weigh_nil, Frame.lives_resume worker host (.part part) .leaving]
          exact Nat.le_refl _
      | discount host serial =>
          rw [weigh_cons, weigh_nil, Frame.lives_resume worker host (.item serial) .leaving]
          exact Nat.le_refl _
  | fire move => cases move <;> exact Nat.le_refl _
  | spread move => cases move <;> exact Nat.le_refl _
  | stop move => cases move <;> exact Nat.le_refl _
  | call move =>
      cases move with
      | fire | stop => simp [Frame.lives, Frame.home, Frame.left]
      | spread =>
          simp [Frame.lives, Frame.home, Frame.left, Shared.onBarrier]
          exact Nat.le_refl _
      | fired | spreadReturn | stopped => exact Nat.le_refl _

/-! ## Stopping -/

/-- Nothing about a shutdown is ever taken back. -/
structure Stays (shared shared' : Shared program) : Prop where
  brexit : forall shop, shared.brexit shop = true -> shared'.brexit shop = true
  exited : forall shop index, shared.exited shop index = true -> shared'.exited shop index = true
  stopping : forall shop, shared.stopping shop = true -> shared'.stopping shop = true

omit [DecidableEq Shop] in
theorem Stays.same (brexit : shared'.brexit = shared.brexit) (exited : shared'.exited = shared.exited)
    (stopping : shared'.stopping = shared.stopping) : Stays shared shared' where
  brexit := fun shop holds => by rw [brexit, holds]
  exited := fun shop index holds => by rw [exited, holds]
  stopping := fun shop holds => by rw [stopping, holds]

theorem update_stays {flags : Shop -> Bool} {shop other : Shop} (holds : flags other = true) :
    Function.update flags shop true other = true := by
  rw [Function.update_apply]
  split
  · rfl
  · exact holds

theorem ShopStep.stays (move : ShopStep pool callStack thread shared frame shared' frames) :
    Stays shared shared' := by
  cases move with
  | worker move =>
      cases move with
      | exit shop index =>
          refine ⟨fun _ holds => holds, ?_, fun _ holds => holds⟩
          intro other worker holds
          by_cases same : other = shop
          · subst same
            simp only [Function.update_self]
            rw [Function.update_apply]
            split
            · rfl
            · exact holds
          · simp only [Function.update_of_ne same]
            exact holds
      | _ => exact .same rfl rfl rfl
  | execution move => cases move <;> exact .same rfl rfl rfl
  | fire move => cases move <;> exact .same rfl rfl rfl
  | spread move => cases move <;> exact .same rfl rfl rfl
  | stop move =>
      cases move with
      | store => exact ⟨fun _ holds => update_stays holds, fun _ _ holds => holds, fun _ holds => holds⟩
      | _ => exact .same rfl rfl rfl
  | call move =>
      cases move with
      | stop => exact ⟨fun _ holds => holds, fun _ _ holds => holds, fun _ holds => update_stays holds⟩
      | _ => exact .same rfl rfl rfl

/-- What the destructor has already brought about. -/
def Frame.Stopped (shared : Shared program) : Frame Shop program.bits -> Prop
  | .stop shop _ .store => shared.stopping shop = true
  | .stop shop _ (.notifyAll _) => shared.stopping shop = true ∧ shared.brexit shop = true
  | .stop shop _ (.joinAll next) => shared.stopping shop = true ∧ shared.brexit shop = true ∧
      forall index, index < next -> shared.exited shop index = true
  | .stop shop _ .finished => shared.stopping shop = true ∧ shared.brexit shop = true ∧
      forall index, index < program.workers shop -> shared.exited shop index = true
  | _ => True

omit [DecidableEq Shop] in
theorem Frame.Stopped.stable (stopped : frame.Stopped shared) (stays : Stays shared shared') :
    frame.Stopped shared' := by
  cases frame with
  | stop shop accepted point =>
      cases point with
      | store => exact stays.stopping shop stopped
      | notifyAll worker => exact ⟨stays.stopping shop stopped.1, stays.brexit shop stopped.2⟩
      | joinAll worker | finished =>
          exact ⟨stays.stopping shop stopped.1, stays.brexit shop stopped.2.1,
            fun index below => stays.exited shop index (stopped.2.2 index below)⟩
  | _ => trivial

theorem ShopStep.stopped (move : ShopStep pool callStack thread shared frame shared' frames)
    (stopped : frame.Stopped shared) : forall next, next ∈ frames -> next.Stopped shared' := by
  cases move with
  | worker move => cases move <;> simp only [List.mem_singleton, forall_eq] <;> trivial
  | execution move =>
      cases move with
      | invoke | finish => simp only [List.mem_singleton, forall_eq]; trivial
      | arrive host part | discount host serial =>
          simp only [List.mem_singleton, forall_eq]
          cases host <;> trivial
  | fire move => cases move <;> simp only [List.mem_singleton, forall_eq] <;> trivial
  | spread move => cases move <;> simp only [List.mem_singleton, forall_eq] <;> trivial
  | stop move =>
      cases move <;> simp only [List.mem_singleton, forall_eq]
      case store shop accepted => exact ⟨stopped, Function.update_self _ _ _⟩
      case notifyAll => exact stopped
      case notifiedAll => exact ⟨stopped.1, stopped.2, fun _ impossible => absurd impossible (Nat.not_lt_zero _)⟩
      case join shop accepted worker _ exited =>
        refine ⟨stopped.1, stopped.2.1, fun index below => ?_⟩
        rcases Nat.lt_succ_iff_lt_or_eq.mp below with earlier | rfl
        · exact stopped.2.2 index earlier
        · exact exited
      case joined shop accepted worker all =>
        exact ⟨stopped.1, stopped.2.1, fun index below => stopped.2.2 index (Nat.lt_of_lt_of_le below all)⟩
  | call move =>
      have stays := (ShopStep.call move).stays
      cases move with
      | fire | spread =>
          simp only [List.mem_cons, List.not_mem_nil, or_false, forall_eq_or_imp, forall_eq]
          exact ⟨trivial, stopped.stable stays⟩
      | stop frame shop =>
          simp only [List.mem_cons, List.not_mem_nil, or_false, forall_eq_or_imp, forall_eq]
          exact ⟨Function.update_self _ _ _, stopped.stable stays⟩
      | fired | spreadReturn | stopped => exact fun _ impossible => by cases impossible

/-- The destructor of a shop. -/
def Frame.isStop {bits : Nat} : Frame Shop bits -> Bool
  | .stop _ _ _ => true
  | _ => false

/-- How a frame comes to use a shop: its predecessor did, the shop may still be
called, or the frame is the destructor. -/
theorem ShopStep.uses (move : ShopStep pool callStack thread shared frame shared' frames)
    {next : Frame Shop program.bits} (member : next ∈ frames) {shop : Shop} (uses : next.shop = some shop) :
    (frame.shop = some shop ∧ (frame.isStop = true -> next.isStop = true)) ∨
      shared'.stopping shop = false ∨ pool.Serves thread shop ∨ next.isStop = true := by
  cases move with
  | worker move =>
      cases move <;>
        (rw [List.mem_singleton.mp member] at uses; exact Or.inl ⟨uses, fun impossible => by cases impossible⟩)
  | execution move =>
      cases move with
      | invoke | finish =>
          rw [List.mem_singleton.mp member] at uses
          exact Or.inl ⟨uses, fun impossible => by cases impossible⟩
      | arrive host part | discount host serial =>
          rw [List.mem_singleton.mp member, Frame.shop_resume] at uses
          exact Or.inl ⟨uses, fun impossible => by cases impossible⟩
  | fire move =>
      cases move <;>
        (rw [List.mem_singleton.mp member] at uses; exact Or.inl ⟨uses, fun impossible => by cases impossible⟩)
  | spread move =>
      cases move <;>
        (rw [List.mem_singleton.mp member] at uses; exact Or.inl ⟨uses, fun impossible => by cases impossible⟩)
  | stop move =>
      cases move <;>
        (rw [List.mem_singleton.mp member] at uses ⊢; exact Or.inl ⟨uses, fun _ => rfl⟩)
  | call move =>
      cases move with
      | fire frame shop' mayCall allowed | spread frame shop' iterations parallelizable mayCall allowed =>
          rcases List.mem_cons.mp member with rfl | below
          · cases uses
            rcases allowed with running | serves
            · exact Or.inr (Or.inl running)
            · exact Or.inr (Or.inr (Or.inl serves))
          · rw [List.mem_singleton.mp below] at uses ⊢
            exact Or.inl ⟨uses, id⟩
      | stop frame shop' =>
          rcases List.mem_cons.mp member with rfl | below
          · exact Or.inr (Or.inr (Or.inr rfl))
          · rw [List.mem_singleton.mp below] at uses ⊢
            exact Or.inl ⟨uses, id⟩
      | fired | spreadReturn | stopped => cases member

/-- A destructor is only called when nobody else uses the shop. -/
theorem ShopStep.stopping (move : ShopStep pool callStack thread shared frame shared' frames) {shop : Shop}
    (now : shared'.stopping shop = true) : shared.stopping shop = true ∨
      forall other, ¬ pool.Serves other shop -> forall user, user ∈ callStack other -> user.shop ≠ some shop := by
  cases move with
  | worker move => cases move <;> exact Or.inl now
  | execution move => cases move <;> exact Or.inl now
  | fire move => cases move <;> exact Or.inl now
  | spread move => cases move <;> exact Or.inl now
  | stop move => cases move <;> exact Or.inl now
  | call move =>
      cases move with
      | stop frame shop' _ _ _ unused =>
          by_cases same : shop = shop'
          · subst same
            exact Or.inr unused
          · simp only [Function.update_of_ne same] at now
            exact Or.inl now
      | _ => exact Or.inl now

/-- A shutdown begins in the destructor, after it has been called. -/
theorem ShopStep.brexit (move : ShopStep pool callStack thread shared frame shared' frames) {shop : Shop}
    (now : shared'.brexit shop = true) : shared.brexit shop = true ∨
      Exists fun accepted => frame = .stop shop accepted .store ∧ frames = [.stop shop accepted (.notifyAll 0)] := by
  cases move with
  | worker move => cases move <;> exact Or.inl now
  | execution move => cases move <;> exact Or.inl now
  | fire move => cases move <;> exact Or.inl now
  | spread move => cases move <;> exact Or.inl now
  | stop move =>
      cases move with
      | store shop' accepted =>
          by_cases same : shop = shop'
          · subst same
            exact Or.inr ⟨accepted, rfl, rfl⟩
          · simp only [Function.update_of_ne same] at now
            exact Or.inl now
      | _ => exact Or.inl now
  | call move => cases move <;> exact Or.inl now

/-- The frame of a destructor stays until it has seen every worker leave. -/
theorem ShopStep.stop_persists (move : ShopStep pool callStack thread shared frame shared' frames)
    {shop : Shop} (own : frame.shop = some shop) (stop : frame.isStop = true) :
    (Exists fun next => next ∈ frames ∧ next.shop = some shop ∧ next.isStop = true) ∨
      Exists fun accepted => frame = .stop shop accepted .finished := by
  cases move with
  | worker move => cases move <;> cases stop
  | execution move => cases move <;> cases stop
  | fire move => cases move <;> cases stop
  | spread move => cases stop
  | stop move => cases move <;> exact Or.inl ⟨_, List.mem_singleton_self _, own, rfl⟩
  | call move =>
      cases move with
      | fire | spread | stop => exact Or.inl ⟨frame, List.mem_cons_of_mem _ (List.mem_singleton_self _), own, stop⟩
      | fired | spreadReturn => cases stop
      | stopped shop' accepted =>
          cases own
          exact Or.inr ⟨accepted, rfl⟩

/-- Where a queued entry comes from. -/
theorem ShopStep.queue (move : ShopStep pool callStack thread shared frame shared' frames) {entry : Entry Shop}
    (member : entry ∈ shared'.queue) : entry ∈ shared.queue ∨
      (frame.shop = some entry.shop ∧ entry.work ∈ frame.held ∧ frame.home = none ∧ frame.isStop = false) := by
  cases move with
  | worker move =>
      cases move with
      | takeOwn _ _ front _ back place | takeAny _ _ front _ back place =>
          rw [place]
          rcases List.mem_append.mp member with earlier | later
          · exact Or.inl (List.mem_append_left _ earlier)
          · exact Or.inl (List.mem_append_right _ (List.mem_cons_of_mem _ later))
      | _ => exact Or.inl member
  | execution move => cases move <;> exact Or.inl member
  | fire move =>
      cases move with
      | enqueue =>
          rcases List.mem_append.mp member with earlier | new
          · exact Or.inl earlier
          · rw [List.mem_singleton.mp new]
            exact Or.inr ⟨rfl, List.mem_singleton_self _, rfl, rfl⟩
      | _ => exact Or.inl member
  | spread move =>
      cases move with
      | enqueueSlices | enqueueParts =>
          rcases List.mem_append.mp member with earlier | new
          · exact Or.inl earlier
          · rcases List.mem_map.mp new with ⟨part, held, rfl⟩
            exact Or.inr ⟨rfl, List.mem_map_of_mem held, rfl, rfl⟩
      | steal _ _ _ front _ back place =>
          rw [place]
          rcases List.mem_append.mp member with earlier | later
          · exact Or.inl (List.mem_append_left _ earlier)
          · exact Or.inl (List.mem_append_right _ (List.mem_cons_of_mem _ later))
      | _ => exact Or.inl member
  | stop move => cases move <;> exact Or.inl member
  | call move => cases move <;> exact Or.inl member

end Steps

/-! ## Whole runs -/

section Runs

variable [DecidableEq Shop] [DecidableEq Thread] {pool : Pool program Thread}
  {state : Stacked Thread (Frame Shop program.bits) (Shared program)}

/-- The stack of a worker thread: its loop at the bottom, and above it only what
the work that the loop executes has called. -/
def Based (stack : List (Frame Shop program.bits)) (worker : Shop × Nat) : Prop :=
  Exists fun upper => Exists fun base =>
    stack = upper ++ [base] ∧ base.home = some worker ∧ (upper ≠ [] -> base.mayCall = true)

theorem based (reachable : (shopSystem pool).Reachable state) {thread : Thread} {worker : Shop × Nat}
    (role : pool.role thread = some worker) : Based (state.callStack thread) worker := by
  apply reachable.invariant
  · rintro state rfl
    refine ⟨[], .worker worker.1 worker.2 .drainOwn, ?_, rfl, fun empty => absurd rfl empty⟩
    simp only [Pool.initialStack, role, List.nil_append]
  · intro before after _ earlier move
    cases move with
    | top mover frame rest shared frames place localStep =>
        by_cases same : thread = mover
        · subst same
          change Based (Function.update before.callStack thread (frames ++ rest) thread) worker
          rw [Function.update_self]
          rcases earlier with ⟨upper, base, stack, home, calls⟩
          rw [place] at stack
          cases upper with
          | nil =>
              cases stack
              rcases localStep.home home with ⟨next, rfl, nextHome⟩ | ⟨called, rfl, mayCall⟩
              · exact ⟨[], next, rfl, nextHome, fun empty => absurd rfl empty⟩
              · exact ⟨[called], frame, rfl, home, fun _ => mayCall⟩
          | cons top upper =>
              cases stack
              exact ⟨frames ++ upper, base, (List.append_assoc _ _ _).symm, home,
                fun _ => calls (List.cons_ne_nil _ _)⟩
        · change Based (Function.update before.callStack mover (frames ++ rest) thread) worker
          rwa [Function.update_of_ne same]

theorem worker_index_lt (reachable : (shopSystem pool).Reachable state) {thread : Thread}
    {frame : Frame Shop program.bits} (member : frame ∈ state.callStack thread) {shop : Shop} {index : Nat}
    (own : frame.home = some (shop, index)) : index < program.workers shop := by
  revert thread frame
  apply reachable.invariant
  · rintro state rfl thread frame member own
    rcases mem_initialStack member with rfl | ⟨shop', index', role, rfl⟩
    · cases own
    · cases own
      exact pool.inside thread shop index role
  · intro before after _ earlier move thread frame member own
    apply frames_step move (fun _ _ frame => frame.home = some (shop, index) -> index < program.workers shop)
      (fun _ _ member own => earlier member own) _ _ thread frame member own
    · intro thread top rest shared frames _ localStep _ holds next member own
      exact holds (localStep.home_of_mem member own)
    · intro _ _ _ _ _ _ _ _ _ _ _ holds
      exact holds

theorem stopped (reachable : (shopSystem pool).Reachable state) (thread : Thread)
    (frame : Frame Shop program.bits) (member : frame ∈ state.callStack thread) :
    frame.Stopped state.shared := by
  revert thread frame
  apply reachable.invariant
  · rintro state rfl thread frame member
    rcases mem_initialStack member with rfl | ⟨shop, index, _, rfl⟩
    · trivial
    · trivial
  · intro before after _ earlier move
    apply frames_step move (fun state _ frame => frame.Stopped state.shared) earlier
    · rintro thread top rest shared frames _ localStep rfl holds
      exact localStep.stopped holds
    · rintro thread top rest shared frames _ localStep rfl other frame _ holds
      exact holds.stable localStep.stays

/-- Whoever has asked the workers to exit has been called as a destructor. -/
theorem stopping_of_brexit (reachable : (shopSystem pool).Reachable state) {shop : Shop}
    (brexit : state.shared.brexit shop = true) : state.shared.stopping shop = true := by
  induction reachable with
  | initial first =>
      rw [first] at brexit
      cases brexit
  | step earlier move inductionHypothesis =>
      cases move with
      | top thread frame rest shared frames place localStep =>
          rcases localStep.brexit brexit with before | ⟨accepted, rfl, _⟩
          · exact localStep.stays.stopping shop (inductionHypothesis before)
          · have called : Frame.Stopped _ (.stop shop accepted .store) :=
              stopped earlier thread _ (by rw [place]; exact List.mem_cons_self)
            exact localStep.stays.stopping shop called

/-- A shop that is asked to exit has its destructor running, or has lost all its
workers. -/
theorem brexit_cases (reachable : (shopSystem pool).Reachable state) {shop : Shop}
    (brexit : state.shared.brexit shop = true) :
    (Exists fun thread => Exists fun frame =>
      frame ∈ state.callStack thread ∧ frame.shop = some shop ∧ frame.isStop = true) ∨
      forall index, index < program.workers shop -> state.shared.exited shop index = true := by
  induction reachable with
  | initial first =>
      rw [first] at brexit
      cases brexit
  | @step before after earlier move inductionHypothesis =>
      cases move with
      | top thread top rest shared frames place localStep =>
          have atThread := callStack_replaceTop before thread shared (frames ++ rest)
          rcases localStep.brexit brexit with already | ⟨accepted, _, rfl⟩
          · rcases inductionHypothesis already with ⟨other, frame, member, own, stop⟩ | all
            · by_cases same : other = thread
              · subst same
                rw [place] at member
                rcases List.mem_cons.mp member with rfl | below
                · rcases localStep.stop_persists own stop with ⟨next, present, nextOwn, nextStop⟩ | ⟨accepted, rfl⟩
                  · exact Or.inl ⟨other, next, by rw [atThread]; exact List.mem_append_left _ present,
                      nextOwn, nextStop⟩
                  · have done : Frame.Stopped before.shared (.stop shop accepted .finished) :=
                      stopped earlier other _ (by rw [place]; exact List.mem_cons_self)
                    exact Or.inr (fun index below => localStep.stays.exited shop index (done.2.2 index below))
                · exact Or.inl ⟨other, frame, by rw [atThread]; exact List.mem_append_right _ below, own, stop⟩
              · have kept := callStack_replaceTop_of_ne before same shared (frames ++ rest)
                exact Or.inl ⟨other, frame, by rw [kept]; exact member, own, stop⟩
            · exact Or.inr (fun index below => localStep.stays.exited shop index (all index below))
          · exact Or.inl ⟨thread, _, by rw [atThread]; exact List.mem_append_left _ (List.mem_singleton_self _),
              rfl, rfl⟩

/-- Once the destructor of a shop has been called, the other users of the shop
are its workers. -/
theorem isStop_of_stopping (reachable : (shopSystem pool).Reachable state) {shop : Shop} (thread : Thread)
    (frame : Frame Shop program.bits) (member : frame ∈ state.callStack thread)
    (stopping : state.shared.stopping shop = true) (foreign : ¬ pool.Serves thread shop)
    (uses : frame.shop = some shop) : frame.isStop = true := by
  revert thread frame stopping
  apply reachable.invariant
  · rintro state rfl thread frame _ impossible
    cases impossible
  · intro before after _ earlier move
    apply frames_step move (fun state thread frame => state.shared.stopping shop = true ->
      ¬ pool.Serves thread shop -> frame.shop = some shop -> frame.isStop = true)
      earlier
    · rintro thread top rest shared frames place localStep rfl holds next member stopping foreign uses
      rcases localStep.uses member uses with ⟨own, keeps⟩ | running | serves | stop
      · rcases localStep.stopping stopping with already | unused
        · exact keeps (holds already foreign own)
        · exact absurd own (unused thread foreign top (by rw [place]; exact List.mem_cons_self))
      · cases running.symm.trans stopping
      · exact absurd serves foreign
      · exact stop
    · rintro thread top rest shared frames place localStep rfl other frame elsewhere holds stopping foreign uses
      rcases localStep.stopping stopping with already | unused
      · exact holds already foreign uses
      · exact absurd uses (unused other foreign frame (mem_of_elsewhere place elsewhere))

variable [Fintype Thread]

omit [DecidableEq Thread] in
theorem initial_lives_le_one (pool : Pool program Thread) (worker : Shop × Nat) :
    (Stacked.mk (Shared.fresh : Shared program) pool.initialStack).total (Frame.lives worker) ≤ 1 := by
  classical
  have roles : (Stacked.mk (Shared.fresh : Shared program) pool.initialStack).total (Frame.lives worker) =
      census (fun role => if role = some worker then 1 else 0) pool.role := by
    apply census_congr
    intro thread
    change weigh (Frame.lives worker) (pool.initialStack thread) = _
    unfold Pool.initialStack
    cases pool.role thread with
    | none => rfl
    | some own => rfl
  rw [roles, census_indicator, Finset.card_le_one]
  intro first firstServes second secondServes
  exact pool.distinct first second worker (Finset.mem_filter.mp firstServes).2
    (Finset.mem_filter.mp secondServes).2

/-- A worker has a frame in its loop or has left it, but not both. -/
theorem lives_bound (reachable : (shopSystem pool).Reachable state) (worker : Shop × Nat) :
    AtMost (Frame.lives worker) (fun _ => 1)
      (fun shared => if shared.exited worker.1 worker.2 = true then 1 else 0) state := by
  apply reachable.invariant
  · rintro state rfl
    exact Nat.le_trans (Nat.le_of_eq (Nat.add_zero _)) (initial_lives_le_one pool worker)
  · intro before after _ earlier move
    apply earlier.step move
    intro thread frame shared frames localStep
    exact localStep.lives worker

theorem exited_eq_false (reachable : (shopSystem pool).Reachable state) {thread : Thread}
    {frame : Frame Shop program.bits} (member : frame ∈ state.callStack thread) {shop : Shop} {index : Nat}
    (own : frame.home = some (shop, index)) (stays : frame.left = false) :
    state.shared.exited shop index = false := by
  have bound := lives_bound reachable (shop, index)
  have counted := weight_le_total (Frame.lives (shop, index)) state member
  rw [Frame.lives_eq_one own stays] at counted
  by_contra exited
  simp only [AtMost, if_pos (eq_true_of_ne_false exited)] at bound
  omega

/-- Nothing is left on the stack of a worker that has exited. -/
theorem callStack_of_exited (reachable : (shopSystem pool).Reachable state) {thread : Thread} {shop : Shop}
    {index : Nat} (role : pool.role thread = some (shop, index)) (exited : state.shared.exited shop index = true) :
    state.callStack thread = [.worker shop index .exited] := by
  rcases based reachable role with ⟨upper, base, stack, home, calls⟩
  have member : base ∈ state.callStack thread := by
    rw [stack]
    exact List.mem_append_right _ (List.mem_singleton_self _)
  have left : base.left = true := by
    by_contra stays
    have alive := exited_eq_false reachable member home (Bool.eq_false_iff.mpr stays)
    cases alive.symm.trans exited
  cases base with
  | worker shop' index' point =>
      cases home
      cases point with
      | exited =>
          cases upper with
          | nil => exact stack
          | cons top upper => cases calls (List.cons_ne_nil _ _)
      | _ => cases left
  | _ => cases left

end Runs

end Shop
end Sweater
