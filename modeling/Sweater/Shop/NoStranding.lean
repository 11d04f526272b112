import Sweater.Shop.JoinCompleteness
import Sweater.Shop.Staff

namespace Sweater
namespace Shop

open Threading
open Spread
open Interleaving
open Interleaving.Stacked

/-!
# No item is stranded while all workers sleep

A queued part keeps its call waiting, so that somebody is still inside
`spread_work`.  A queued item is covered: by a worker that will look into the
queue before it sleeps again, by a token that will wake one, or by the producer
that is about to signal.  Which worker is signalled does not matter, because
every worker drains the whole queue of its shop.
-/

variable {Shop Thread : Type} {program : Program Shop}

/-! ## Who covers the items of a shop -/

/-- Before the next attempt to drain the queue. -/
def WorkerPoint.awake : WorkerPoint -> Bool
  | .drainOwn => true
  | .drainAll => true
  | .completing _ => true
  | .woken => true
  | .wakeLeft => true
  | .wakeRight => true
  | .checkExit => false
  | .sleeping => false
  | .exited => false

/-- Between the `enqueue` and the `notify()` of an accepted item. -/
def FirePoint.signals : FirePoint -> Bool
  | .notify _ enqueueSucceeded => enqueueSucceeded
  | _ => false

/-- One for a frame that will see to the items of a shop. -/
def Frame.covers {bits : Nat} [DecidableEq Shop] (shop : Shop) : Frame Shop bits -> Nat
  | .worker own _ point => if own = shop ∧ point.awake = true then 1 else 0
  | .executing (.worker own _ _) _ _ => if own = shop then 1 else 0
  | .fire own _ point => if own = shop ∧ point.signals = true then 1 else 0
  | _ => 0

/-- The target of a dispatch is a worker of the shop. -/
def Frame.Aimed : Frame Shop program.bits -> Prop
  | .fire shop _ (.enqueue target) => target < program.workers shop
  | .fire shop _ (.notify target _) => target < program.workers shop
  | _ => True

section Steps

variable [DecidableEq Shop] {pool : Pool program Thread} {callStack : Thread -> List (Frame Shop program.bits)}
  {thread : Thread} {shared shared' : Shared program} {frame : Frame Shop program.bits}
  {frames : List (Frame Shop program.bits)}

theorem ShopStep.aimed (move : ShopStep pool callStack thread shared frame shared' frames)
    (aimed : frame.Aimed) : forall next, next ∈ frames -> next.Aimed := by
  cases move with
  | worker move => cases move <;> simp only [List.mem_singleton, forall_eq] <;> trivial
  | execution move =>
      cases move with
      | invoke | finish =>
          simp only [List.mem_singleton, forall_eq]
          trivial
      | arrive host part | discount host serial =>
          simp only [List.mem_singleton, forall_eq]
          cases host <;> trivial
  | fire move =>
      cases move <;> simp only [List.mem_singleton, forall_eq]
      case stick workers | advanceRotor workers => exact Nat.mod_lt _ workers
      case enqueue | refuse => exact aimed
      case addItem shop serial enqueueSucceeded => cases enqueueSucceeded <;> trivial
      case loadRotor | spill | notify | countInFlight => trivial
  | spread move => cases move <;> simp only [List.mem_singleton, forall_eq] <;> trivial
  | stop move => cases move <;> simp only [List.mem_singleton, forall_eq] <;> trivial
  | call move =>
      cases move with
      | fire | spread | stop =>
          simp only [List.mem_cons, List.not_mem_nil, or_false, forall_eq_or_imp, forall_eq]
          exact ⟨trivial, aimed⟩
      | fired | spreadReturn | stopped => exact fun _ impossible => by cases impossible

/-- The frame of a call stays until the call returns. -/
theorem ShopStep.call_persists (move : ShopStep pool callStack thread shared frame shared' frames)
    {call : Nat} (own : frame.call = some call) :
    (Exists fun next => next ∈ frames ∧ next.call = some call ∧ next.shop = frame.shop) ∨
      Exists fun shop => Exists fun locals => frame = .spread shop call locals .finished := by
  cases move with
  | worker move => cases move <;> cases own
  | execution move =>
      cases move with
      | invoke | finish => exact Or.inl ⟨_, List.mem_singleton_self _, own, rfl⟩
      | arrive host part | discount host serial =>
          exact Or.inl ⟨_, List.mem_singleton_self _, (call_resume host).trans own, Frame.shop_resume host⟩
  | fire move => cases move <;> cases own
  | spread move => cases move <;> exact Or.inl ⟨_, List.mem_singleton_self _, own, rfl⟩
  | stop move => cases move <;> cases own
  | call move =>
      cases move with
      | fire | spread | stop =>
          exact Or.inl ⟨frame, List.mem_cons_of_mem _ (List.mem_singleton_self _), own, rfl⟩
      | fired | stopped => cases own
      | spreadReturn shop call' locals =>
          cases own
          exact Or.inr ⟨shop, locals, rfl⟩

/-- A worker sees to the items of its own shop as long as it is awake. -/
theorem WorkerStep.covers (move : WorkerStep program shared frame shared' frames) (shop : Shop) :
    frame.covers shop ≤ weigh (Frame.covers shop) frames ∨
      forall entry, entry ∈ shared'.queue -> entry.shop ≠ shop := by
  cases move with
  | allEmpty own index empty =>
      by_cases same : own = shop
      · subst same
        exact Or.inr empty
      · exact Or.inl (by simp [Frame.covers, same])
  | complete own index drained => cases drained <;> exact Or.inl (Nat.le_refl _)
  | takeOwn | takeAny => exact Or.inl (by simp [Frame.covers, WorkerPoint.awake])
  | wake => exact Or.inl (by simp [Frame.covers, WorkerPoint.awake])
  | _ => exact Or.inl (Nat.le_refl _)

theorem ShopStep.covers (move : ShopStep pool callStack thread shared frame shared' frames)
    (aimed : frame.Aimed) (shop : Shop) :
    frame.covers shop ≤ weigh (Frame.covers shop) frames ∨
      (Exists fun index => index < program.workers shop ∧ 0 < shared'.tokens shop index) ∨
      forall entry, entry ∈ shared'.queue -> entry.shop ≠ shop := by
  cases move with
  | worker move =>
      rcases move.covers shop with kept | empty
      · exact Or.inl kept
      · exact Or.inr (Or.inr empty)
  | execution move =>
      cases move with
      | invoke host work | finish host work => cases host <;> exact Or.inl (Nat.le_refl _)
      | arrive host part | discount host serial =>
          cases host with
          | worker own index drained => exact Or.inl (by simp [Host.resume, Frame.covers, WorkerPoint.awake])
          | caller | thief => exact Or.inl (Nat.zero_le _)
  | fire move =>
      cases move with
      | notify own serial target enqueueSucceeded =>
          by_cases same : own = shop
          · subst same
            refine Or.inr (Or.inl ⟨target, aimed, ?_⟩)
            simp [Shared.signal]
          · exact Or.inl (by simp [Frame.covers, same])
      | _ => exact Or.inl (by simp [Frame.covers, FirePoint.signals])
  | spread move => exact Or.inl (Nat.zero_le _)
  | stop move => cases move <;> exact Or.inl (Nat.zero_le _)
  | call move =>
      cases move with
      | fire | spread | stop => exact Or.inl (by simp)
      | fired | spreadReturn | stopped => exact Or.inl (by simp [Frame.covers, FirePoint.signals])

/-- The producer of an item covers it when it queues it. -/
theorem ShopStep.covers_queued (move : ShopStep pool callStack thread shared frame shared' frames)
    {entry : Entry Shop} (member : entry ∈ shared'.queue) (item : entry.work.isItem = true) :
    entry ∈ shared.queue ∨ 0 < weigh (Frame.covers entry.shop) frames := by
  rcases move.queue member with earlier | ⟨_, held, _, _⟩
  · exact Or.inl earlier
  · cases move with
    | worker move => cases move <;> cases held
    | execution move => cases move <;> cases held
    | fire move =>
        cases move with
        | enqueue shop serial target =>
            rcases List.mem_append.mp member with earlier | new
            · exact Or.inl earlier
            · rw [List.mem_singleton.mp new]
              exact Or.inr (by simp [Frame.covers, FirePoint.signals])
        | _ => exact Or.inl member
    | spread move =>
        rcases List.mem_map.mp held with ⟨part, _, same⟩
        rw [← same] at item
        cases item
    | stop move => cases move <;> cases held
    | call move => cases move <;> exact Or.inl member

/-- Only a worker that wakes up takes a token, and it covers the items instead. -/
theorem ShopStep.tokens (move : ShopStep pool callStack thread shared frame shared' frames) (shop : Shop) :
    (forall index, shared.tokens shop index ≤ shared'.tokens shop index) ∨
      0 < weigh (Frame.covers shop) frames := by
  have signalled : forall own worker index,
      shared.tokens shop index ≤ (shared.signal own worker).tokens shop index := by
    intro own worker index
    simp only [Shared.signal, Function.update_apply]
    split
    · rename_i same
      rw [same, Function.update_apply]
      split
      · rename_i here
        rw [here]
        exact Nat.le_succ _
      · exact Nat.le_refl _
    · exact Nat.le_refl _
  cases move with
  | worker move =>
      cases move with
      | wake own index =>
          by_cases same : own = shop
          · exact Or.inr (by simp [Frame.covers, WorkerPoint.awake, same])
          · refine Or.inl (fun other => ?_)
            simp only [Shared.consume, Function.update_of_ne (Ne.symm same)]
            exact Nat.le_refl _
      | wakeLeft own index | wakeRight own index => exact Or.inl (signalled own _)
      | _ => exact Or.inl (fun _ => Nat.le_refl _)
  | execution move => cases move <;> exact Or.inl (fun _ => Nat.le_refl _)
  | fire move =>
      cases move with
      | notify own serial target => exact Or.inl (signalled own target)
      | _ => exact Or.inl (fun _ => Nat.le_refl _)
  | spread move =>
      cases move with
      | notifyRoot | notifyAll => exact Or.inl (signalled _ _)
      | _ => exact Or.inl (fun _ => Nat.le_refl _)
  | stop move =>
      cases move with
      | notifyAll own accepted worker => exact Or.inl (signalled own worker)
      | _ => exact Or.inl (fun _ => Nat.le_refl _)
  | call move => cases move <;> exact Or.inl (fun _ => Nat.le_refl _)

end Steps

/-! ## Whole runs -/

section Runs

variable [DecidableEq Shop] [Fintype Thread] [DecidableEq Thread] {pool : Pool program Thread}
  {state : Stacked Thread (Frame Shop program.bits) (Shared program)}

omit [Fintype Thread] in
theorem aimed (reachable : (shopSystem pool).Reachable state) (thread : Thread)
    (frame : Frame Shop program.bits) (member : frame ∈ state.callStack thread) : frame.Aimed := by
  revert thread frame
  apply reachable.invariant
  · rintro state rfl thread frame member
    rcases mem_initialStack member with rfl | ⟨shop, index, _, rfl⟩
    · trivial
    · trivial
  · intro before after _ earlier move
    apply frames_step move (fun _ _ frame => frame.Aimed) earlier
    · intro thread top rest shared frames _ localStep _ holds
      exact localStep.aimed holds
    · intro _ _ _ _ _ _ _ _ _ _ _ holds
      exact holds

/-- Somebody will see to the items of a shop, or a token will wake a worker. -/
def Covered (shop : Shop) (state : Stacked Thread (Frame Shop program.bits) (Shared program)) : Prop :=
  0 < state.total (Frame.covers shop) ∨
    Exists fun index => index < program.workers shop ∧ 0 < state.shared.tokens shop index

theorem covered_step {before : Stacked Thread (Frame Shop program.bits) (Shared program)} {thread : Thread}
    {frame : Frame Shop program.bits} {rest frames : List (Frame Shop program.bits)} {shared : Shared program}
    (place : before.callStack thread = frame :: rest)
    (move : ShopStep pool before.callStack thread before.shared frame shared frames) (aimed : frame.Aimed)
    {shop : Shop} (covered : Covered shop before) :
    Covered shop (before.replaceTop thread shared (frames ++ rest)) ∨
      forall entry, entry ∈ shared.queue -> entry.shop ≠ shop := by
  have moved := total_replaceTop (Frame.covers shop) before place shared frames
  have member : frame ∈ before.callStack thread := by rw [place]; exact List.mem_cons_self
  have own := weight_le_total (Frame.covers shop) before member
  rcases move.covers aimed shop with kept | token | empty
  · left
    rcases covered with somebody | ⟨index, below, token⟩
    · exact Or.inl (by omega)
    · rcases move.tokens shop with more | awake
      · exact Or.inr ⟨index, below, Nat.lt_of_lt_of_le token (more index)⟩
      · exact Or.inl (by omega)
  · exact Or.inl (Or.inr token)
  · exact Or.inr empty

/-- Until a shutdown is requested, a queued item is covered. -/
theorem covered_of_queued (reachable : (shopSystem pool).Reachable state) {entry : Entry Shop}
    (queued : entry ∈ state.shared.queue) (item : entry.work.isItem = true)
    (running : state.shared.brexit entry.shop = false) : Covered entry.shop state := by
  induction reachable with
  | initial first =>
      rw [first] at queued
      cases queued
  | @step before after earlier move inductionHypothesis =>
      cases move with
      | top thread frame rest shared frames place localStep =>
          have member : frame ∈ before.callStack thread := by rw [place]; exact List.mem_cons_self
          have stillRunning : before.shared.brexit entry.shop = false := by
            by_contra requested
            have kept := localStep.stays.brexit entry.shop (eq_true_of_ne_false requested)
            cases kept.symm.trans running
          rcases localStep.covers_queued queued item with old | new
          · have covered := inductionHypothesis old stillRunning
            rcases covered_step place localStep (aimed earlier thread frame member) covered with kept | empty
            · exact kept
            · exact absurd rfl (empty entry queued)
          · have moved := total_replaceTop (Frame.covers entry.shop) before place shared frames
            have own := weight_le_total (Frame.covers entry.shop) before member
            exact Or.inl (by omega)

omit [DecidableEq Shop] [Fintype Thread] [DecidableEq Thread] in
/-- Whoever holds a part is the frame of its call. -/
theorem Tracked.call_of_held (tracked : Tracked state) {thread : Thread} {frame : Frame Shop program.bits}
    (member : frame ∈ state.callStack thread) {work : Work} (held : work ∈ frame.held) {call : Nat}
    (part : work.ofCall call = true) : frame.call = some call := by
  have knows := tracked.knows thread frame member
  cases frame with
  | fire shop serial point =>
      simp only [Frame.held] at held
      split at held
      · rw [List.mem_singleton.mp held] at part
        cases part
      · cases held
  | spread shop own locals point =>
      rcases List.mem_map.mp held with ⟨piece, member, rfl⟩
      have same : piece.call = own := by
        cases point with
        | registerSlice worker first registered slices rest => exact knows.2 piece member
        | countSlice worker first registered slices rest => exact knows.2 piece member
        | enqueueParts parts => exact knows.2.2 piece member
        | resetBarrier parts => exact knows.2.2.2 piece member
        | callerCount part =>
            rw [List.mem_singleton.mp member]
            exact knows.1
        | _ => cases member
      rw [← beq_iff_eq.mp part, same]
      rfl
  | outside | worker | executing | stop => cases held

/-- A queued part belongs to a call of the same shop that has not returned. -/
theorem call_of_queued (reachable : (boundedShopSystem pool).Reachable state) {entry : Entry Shop}
    (queued : entry ∈ state.shared.queue) {call : Nat} (part : entry.work.ofCall call = true) :
    Exists fun thread => Exists fun frame => frame ∈ state.callStack thread ∧ frame.call = some call ∧
      frame.shop = some entry.shop := by
  induction reachable with
  | initial first =>
      rw [first.1] at queued
      cases queued
  | @step before after earlier move inductionHypothesis =>
      cases move.1 with
      | top thread top rest shared frames place localStep =>
          have member : top ∈ before.callStack thread := by rw [place]; exact List.mem_cons_self
          have atThread := callStack_replaceTop before thread shared (frames ++ rest)
          -- the frame of the call before the step
          have somebody : Exists fun other => Exists fun frame => frame ∈ before.callStack other ∧
              frame.call = some call ∧ frame.shop = some entry.shop := by
            rcases localStep.queue queued with old | ⟨uses, held, _, _⟩
            · exact inductionHypothesis old
            · exact ⟨thread, top, member, (tracked earlier).call_of_held member held part, uses⟩
          rcases somebody with ⟨other, frame, present, own, uses⟩
          by_cases same : other = thread
          · subst same
            rw [place] at present
            rcases List.mem_cons.mp present with rfl | below
            · rcases localStep.call_persists own with ⟨next, new, nextOwn, nextUses⟩ | ⟨shop, locals, rfl⟩
              · exact ⟨other, next, by rw [atThread]; exact List.mem_append_left _ new, nextOwn,
                  nextUses.trans uses⟩
              · have none := outstanding_of_finished earlier member
                obtain ⟨_, unqueued, _⟩ := settled_of_outstanding earlier.of_within none
                rcases localStep.queue queued with old | ⟨_, held, _, _⟩
                · exact absurd part (List.countP_eq_zero.mp unqueued entry.work (List.mem_map_of_mem old))
                · cases held
            · exact ⟨other, frame, by rw [atThread]; exact List.mem_append_right _ below, own, uses⟩
          · have kept := callStack_replaceTop_of_ne before same shared (frames ++ rest)
            exact ⟨other, frame, by rw [kept]; exact present, own, uses⟩

/-- The shop of a frame that covers it. -/
theorem Frame.shop_of_covers {bits : Nat} {shop : Shop} {frame : Frame Shop bits}
    (covers : 0 < frame.covers shop) : frame.shop = some shop := by
  have same : forall {own : Shop} {awake : Prop} [Decidable (own = shop ∧ awake)],
      0 < (if own = shop ∧ awake then 1 else 0) -> some own = some shop := by
    intro own awake _ positive
    by_cases holds : own = shop ∧ awake
    · rw [holds.1]
    · rw [if_neg holds] at positive
      cases positive
  cases frame with
  | worker own index point => exact same covers
  | executing host work phase =>
      cases host with
      | worker own index drained =>
          simp only [Frame.covers] at covers
          split at covers
          · rename_i equal
            rw [← equal]
            rfl
          · cases covers
      | caller | thief => cases covers
  | fire own serial point => exact same covers
  | outside | spread | stop => cases covers

/-- If every worker of a shop sleeps without a token, and nobody else is inside
the shop, then nothing is left in its queue and no shutdown is under way. -/
theorem no_stranded_item (reachable : (boundedShopSystem pool).Reachable state) (shop : Shop)
    (staffed : 0 < program.workers shop)
    (asleep : forall thread index, pool.role thread = some (shop, index) ->
      state.callStack thread = [.worker shop index .sleeping] ∧ state.shared.tokens shop index = 0)
    (nobody : forall thread, ¬ pool.Serves thread shop ->
      forall frame, frame ∈ state.callStack thread -> frame.shop ≠ some shop) :
    (forall entry, entry ∈ state.shared.queue -> entry.shop ≠ shop) ∧ state.shared.brexit shop = false := by
  have earlier := reachable.of_within
  have sleeping : forall thread frame, frame ∈ state.callStack thread -> frame.shop = some shop ->
      Exists fun index => pool.role thread = some (shop, index) ∧ frame = .worker shop index .sleeping := by
    intro thread frame member uses
    by_cases serves : pool.Serves thread shop
    · rcases serves with ⟨index, role⟩
      rw [(asleep thread index role).1] at member
      exact ⟨index, role, List.mem_singleton.mp member⟩
    · exact absurd uses (nobody thread serves frame member)
  have running : state.shared.brexit shop = false := by
    by_contra requested
    rcases brexit_cases earlier (eq_true_of_ne_false requested) with
      ⟨thread, frame, member, uses, stop⟩ | gone
    · rcases sleeping thread frame member uses with ⟨index, _, rfl⟩
      cases stop
    · rcases pool.staffed shop 0 staffed with ⟨thread, role⟩
      have left := callStack_of_exited earlier role (gone 0 staffed)
      rw [(asleep thread 0 role).1] at left
      cases left
  refine ⟨?_, running⟩
  intro entry queued same
  subst same
  cases work : entry.work with
  | item serial =>
      have item : entry.work.isItem = true := by rw [work]; rfl
      rcases covered_of_queued earlier queued item running with somebody | ⟨index, below, token⟩
      · rcases (total_pos_iff _ state).mp somebody with ⟨thread, frame, member, covers⟩
        rcases sleeping thread frame member (Frame.shop_of_covers covers) with ⟨index, _, rfl⟩
        simp [Frame.covers, WorkerPoint.awake] at covers
      · rcases pool.staffed entry.shop index below with ⟨thread, role⟩
        rw [(asleep thread index role).2] at token
        exact absurd token (Nat.lt_irrefl 0)
  | part piece =>
      have part : entry.work.ofCall piece.call = true := by
        rw [work]
        exact beq_self_eq_true piece.call
      rcases call_of_queued reachable queued part with ⟨thread, frame, member, own, uses⟩
      rcases sleeping thread frame member uses with ⟨index, _, rfl⟩
      cases own

end Runs

/-! ## A short run -/

/-- The worker executes an item that was fired while it slept, wakes up once
more for its token and sleeps again. -/
theorem no_stranded_item_single :
    Exists fun state => (boundedShopSystem (smallPool Unit)).Reachable state ∧
      state.shared.accepted = [((), 0)] ∧ (forall entry, entry ∈ state.shared.queue -> entry.shop ≠ ()) ∧
      state.shared.brexit () = false := by
  have start : (shopSystem (smallPool Unit)).Reachable ⟨Shared.fresh, (smallPool Unit).initialStack⟩ :=
    .initial rfl
  have empty := advance start none rfl (.worker (.ownEmpty () 0 (fun _ queued => absurd queued List.not_mem_nil)))
  have empty := advance empty none rfl (.worker (.allEmpty () 0 (fun _ queued => absurd queued List.not_mem_nil)))
  have asleep := advance empty none rfl (.worker (.stay () 0 rfl))
  have called := advance asleep (some ()) rfl (.call (.fire .outside () rfl (Or.inl rfl)))
  have loaded := advance called (some ()) rfl (.fire (.loadRotor () 0))
  have chosen := advance loaded (some ()) rfl (.fire (.stick () 0 _ (by decide)))
  have queued := advance chosen (some ()) rfl (.fire (.enqueue () 0 _))
  have notified := advance queued (some ()) rfl (.fire (.notify () 0 _ _))
  have added := advance notified (some ()) rfl (.fire (.addItem () 0 _))
  have counted := advance added (some ()) rfl (.fire (.countInFlight () 0))
  have fired := advance counted (some ()) rfl (.call (.fired () 0 _))
  have woken := advance fired none rfl (.worker (.wake () 0 (by decide)))
  have propagated := advance woken none rfl (.worker (.propagate () 0 (by decide)))
  have left := advance propagated none rfl (.worker (.noLeft () 0 (by decide)))
  have right := advance left none rfl (.worker (.noRight () 0 (by decide)))
  have taken := advance right none rfl (.worker (.takeOwn () 0 [] _ [] rfl rfl rfl))
  have invoked := advance taken none rfl (.execution (.invoke _ _))
  have finished := advance invoked none rfl (.execution (.finish _ _))
  have discounted := advance finished none rfl (.execution (.discount _ 0))
  have completed := advance discounted none rfl (.worker (.complete () 0 true))
  have empty := advance completed none rfl (.worker (.ownEmpty () 0 (fun _ queued => absurd queued List.not_mem_nil)))
  have empty := advance empty none rfl (.worker (.allEmpty () 0 (fun _ queued => absurd queued List.not_mem_nil)))
  have asleep := advance empty none rfl (.worker (.stay () 0 rfl))
  have bounded := boundedShopSystem_of_few asleep (by decide)
  refine ⟨_, bounded, rfl, no_stranded_item bounded () (by decide) ?_ ?_⟩
  · rintro (_ | ⟨⟩) index role
    · cases role
      exact ⟨rfl, rfl⟩
    · cases role
  · rintro (_ | ⟨⟩) foreign frame member
    · exact absurd ⟨0, rfl⟩ foreign
    · cases List.mem_singleton.mp member
      exact fun impossible => by cases impossible

end Shop
end Sweater
