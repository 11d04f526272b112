import Sweater.Shop.Effort
import Sweater.Spread.ExactTiling

namespace Sweater
namespace Shop

open Threading
open Spread
open Interleaving
open Interleaving.Stacked

/-!
# Calls of `spread_work` get on

In a detecting run of a single shop, as long as a call has not returned, some
thread has a step that eases, so that the calls can always be finished.

Why there is such a step: a blocked call waits for a part that is queued or
being executed.  A queued part is attended to.  The frame that executes a part
is on top of its stack, and gets on, or it is below a newer call.  The newest
call of all is therefore not blocked.

Without the detection this fails.  A worker that executes an item which is not
counted yet takes its nested call for the first one, leaves a part in the queue
and spins; if a stealing caller executes that part and calls `spread_work`
itself, it waits for the worker.
-/

variable {Thread : Type} {program : Program Unit}

section Steps

variable {pool : Pool program Thread} {callStack : Thread -> List (Frame Unit program.bits)}
  {thread : Thread} {shared shared' : Shared program} {frame : Frame Unit program.bits}
  {frames : List (Frame Unit program.bits)}

/-! ## The counter of the shop -/

/-- A refused bulk is the only way for parts to be refused. -/
theorem ShopStep.refused_eq (move : ShopStep pool callStack thread shared frame shared' frames)
    (unrefused : forall shop call locals parts, frame ≠ .spread shop call locals (.resetBarrier parts)) :
    shared'.refused = shared.refused := by
  cases move with
  | worker move => cases move <;> rfl
  | execution move => cases move <;> rfl
  | fire move =>
      cases move with
      | refuse => simp [Shared.refused, Work.isItem]
      | _ => rfl
  | spread move =>
      cases move with
      | resetBarrier => exact absurd rfl (unrefused _ _ _ _)
      | _ => rfl
  | stop move => cases move <;> rfl
  | call move => cases move <;> rfl

/-- The steps of a single shop keep the balance of its counter; what a refused
bulk has announced is counted for ever. -/
theorem ShopStep.exchanges_refused (move : ShopStep pool callStack thread shared frame shared' frames) (announces : frame.Announces)
    (kept : shared'.lost = shared.lost) :
    shared'.workItems () + BitVec.ofNat program.bits (weigh (Frame.uncounts ()) frames + frame.owes () +
        (shared.queued () + shared.refused)) =
      shared.workItems () + BitVec.ofNat program.bits (frame.uncounts () + weigh (Frame.owes ()) frames +
        (shared'.queued () + shared'.refused)) := by
  by_cases resets : Exists fun shop => Exists fun call => Exists fun locals => Exists fun parts =>
      frame = .spread shop call locals (.resetBarrier parts)
  · rcases resets with ⟨shop, call, locals, parts, rfl⟩
    cases move with
    | spread move =>
        cases move with
        | resetBarrier =>
            have all : (shared.dropped ++ parts.map Work.part).countP (fun work => !work.isItem) =
                shared.dropped.countP (fun work => !work.isItem) + parts.length := by
              rw [List.countP_append, List.countP_map, Nat.add_left_cancel_iff, List.countP_eq_length]
              exact fun _ _ => rfl
            refine congrArg (fun sum => shared.workItems () + BitVec.ofNat program.bits sum) ?_
            rw [weigh_cons, weigh_cons, owes_spread, owes_spread, SpreadPoint.announced_toCaller]
            change 0 + 0 + (if () = () then parts.length else 0) + (shared.queued () + shared.refused) =
              0 + ((if () = () then 0 else 0) + 0) + (shared.queued () +
                (shared.dropped ++ parts.map Work.part).countP (fun work => !work.isItem))
            rw [all, if_pos rfl, if_pos rfl, Shared.refused]
            omega
    | call move =>
        cases move with
        | fire _ _ calls | spread _ _ _ _ calls | stop _ _ calls => cases calls
    | worker move | execution move | fire move | stop move => cases move
  · have unrefused : forall shop call locals parts, frame ≠ .spread shop call locals (.resetBarrier parts) :=
      fun shop call locals parts same => resets ⟨shop, call, locals, parts, same⟩
    have exchanged : Exchanges () shared frame shared' frames := move.exchanges announces kept unrefused ()
    rw [move.refused_eq unrefused, ← Nat.add_assoc, ← Nat.add_assoc, BitVec.ofNat_add _ shared.refused,
      BitVec.ofNat_add _ shared.refused, ← BitVec.add_assoc, ← BitVec.add_assoc]
    exact congrArg (fun word => word + BitVec.ofNat program.bits shared.refused) exchanged

end Steps

/-! ## Runs of a single shop -/

section Runs

variable [Fintype Thread] [DecidableEq Thread] {pool : Pool program Thread}
  {state : Stacked Thread (Frame Unit program.bits) (Shared program)}

/-- In an orderly run the shop stays open, and no slice gets lost. -/
theorem running_of_detecting (reachable : (detectingSystem pool).Reachable state) :
    state.shared.stopping () = false ∧ state.shared.lost = [] := by
  apply reachable.invariant
  · rintro state ⟨rfl, _⟩
    exact ⟨rfl, rfl⟩
  · intro before after _ earlier move
    rcases move with ⟨⟨_, orderly, _⟩, _⟩
    rw [orderly.running, orderly.queued]
    exact earlier

theorem brexit_of_detecting (reachable : (detectingSystem pool).Reachable state) :
    state.shared.brexit () = false := by
  by_contra requested
  have stopping := stopping_of_brexit (shopSystem_of_detecting reachable) (eq_true_of_ne_false requested)
  cases stopping.symm.trans (running_of_detecting reachable).1

theorem itemsBalanced_of_detecting (reachable : (detectingSystem pool).Reachable state) :
    BalancedWord (fun shared => shared.workItems ()) (Frame.uncounts ()) (Frame.owes ())
      (fun shared => shared.queued () + shared.refused) state := by
  apply reachable.invariant
  · rintro state ⟨rfl, _⟩
    have late := initial_total_eq_zero pool Shared.fresh (Frame.uncounts ()) rfl (fun _ _ => rfl)
    have early := initial_total_eq_zero pool Shared.fresh (Frame.owes ()) rfl (fun _ _ => rfl)
    rw [BalancedWord, late, early]
    rfl
  · intro before after earlier balanced move
    rcases move with ⟨⟨step, orderly, _⟩, _⟩
    apply balanced.step step
    rintro thread frame rest shared frames place localStep rfl
    have run := shopSystem_of_detecting earlier
    exact localStep.exchanges_refused (announces run thread frame (by rw [place]; exact List.mem_cons_self))
      orderly.queued

/-- A state of a detecting run in which no thread can ease. -/
structure Standstill (pool : Pool program Thread)
    (state : Stacked Thread (Frame Unit program.bits) (Shared program)) : Prop where
  reachable : (detectingSystem pool).Reachable state
  staffed : 0 < program.workers ()
  representable : program.workers () + 1 < 2 ^ program.bits
  stuck : forall thread frame rest, state.callStack thread = frame :: rest ->
    ¬ CanEase pool state.callStack thread state.shared frame

namespace Standstill

variable {thread : Thread} {frame top : Frame Unit program.bits} {rest : List (Frame Unit program.bits)}

theorem run (standstill : Standstill pool state) : (shopSystem pool).Reachable state :=
  shopSystem_of_detecting standstill.reachable

/-- The plan of a call is defined. -/
theorem plans (standstill : Standstill pool state) {call : Nat} {locals : SpreadLocals}
    {itemsInShop : BitVec program.bits}
    (member : .spread () call locals (.loadDivision itemsInShop) ∈ state.callStack thread) :
    Exists fun plan => Exists fun exact_ =>
      spreadWork ⟨program.workerThreads (), itemsInShop, state.shared.division, decide (pool.Serves thread ()),
        program.singleCorePlatform⟩ locals.iterations locals.parallelizable = some (plan, exact_) := by
  have wide : 8 ≤ program.bits := by
    unfold Program.bits
    cases program.concurrency <;> decide
  have narrow : program.bits ≤ 16 := by
    unfold Program.bits
    cases program.concurrency <;> decide
  have known : locals.queueAndWait = false ∧ locals.immediate = false ∧ locals.iterations ≠ 0 :=
    decided standstill.run thread _ member
  have divided := divides standstill.run
  have divisible := standstill.reachable.inside.divisible thread () call locals _ member
  have workers : program.workerThreads () ≠ 0 := by
    intro none
    have staffed := standstill.staffed
    rw [Program.workers, none] at staffed
    exact absurd staffed (Nat.lt_irrefl 0)
  rcases spreadWork_returns wide narrow ⟨program.workerThreads (), itemsInShop, state.shared.division,
    decide (pool.Serves thread ()), program.singleCorePlatform⟩ locals.iterations locals.parallelizable known.2.2
    divisible standstill.representable (Or.inl workers) divided.1 divided.2 with ⟨plan, planned, _⟩
  exact ⟨plan, true, planned⟩

/-- What may be on top of a stack when nothing gets on. -/
theorem top_cases (standstill : Standstill pool state) (place : state.callStack thread = top :: rest) :
    top = .outside ∨ (Exists fun index => Exists fun point => top = .worker () index point) ∨
      Exists fun call => Exists fun locals => Exists fun point =>
        top = .spread () call locals point ∧ point.Blocked pool thread state.shared call := by
  have member : top ∈ state.callStack thread := by rw [place]; exact List.mem_cons_self
  have stuck := standstill.stuck thread top rest place
  cases top with
  | outside => exact Or.inl rfl
  | worker shop index point => exact Or.inr (Or.inl ⟨index, point, rfl⟩)
  | executing host work phase => exact absurd (canEase_executing host work phase) stuck
  | fire shop serial point => exact absurd (canEase_fire standstill.staffed serial point) stuck
  | spread shop call locals point =>
      refine Or.inr (Or.inr ⟨call, locals, point, rfl, ?_⟩)
      by_contra free
      apply stuck
      apply canEase_spread call locals point free
      rintro itemsInShop rfl
      exact standstill.plans member
  | stop shop accepted point =>
      have called : Frame.Stopped state.shared (.stop shop accepted point) := stopped standstill.run thread _ member
      have stopping : state.shared.stopping () = true := by
        cases point with
        | store => exact called
        | notifyAll | joinAll | finished => exact called.1
      cases stopping.symm.trans (running_of_detecting standstill.reachable).1

/-- Below the top of a stack there is user code, and above it a blocked call. -/
theorem below_cases (standstill : Standstill pool state) (place : state.callStack thread = top :: rest)
    (below : frame ∈ rest) : frame.mayCall = true ∧
      Exists fun call => Exists fun locals => Exists fun point =>
        top = .spread () call locals point ∧ point.Blocked pool thread state.shared call := by
  constructor
  · have suspended := suspended standstill.run thread
    rw [place] at suspended
    exact suspended frame below
  · have order := called standstill.run thread
    rw [place] at order
    have above := (List.pairwise_cons.mp order).1 frame below
    rcases standstill.top_cases place with rfl | ⟨index, point, rfl⟩ | blocked
    · exact absurd rfl above.1
    · cases above.2
    · exact blocked

/-- Any frame is on top of its stack or below a blocked call. -/
theorem frame_cases (standstill : Standstill pool state) (member : frame ∈ state.callStack thread) :
    (Exists fun rest => state.callStack thread = frame :: rest) ∨
      (frame.mayCall = true ∧ Exists fun call => Exists fun locals => Exists fun point => Exists fun rest =>
        state.callStack thread = .spread () call locals point :: rest ∧ frame ∈ rest ∧
          point.Blocked pool thread state.shared call) := by
  cases place : state.callStack thread with
  | nil =>
      rw [place] at member
      cases member
  | cons top rest =>
      rw [place] at member
      rcases List.mem_cons.mp member with rfl | below
      · exact Or.inl ⟨rest, rfl⟩
      · rcases standstill.below_cases place below with ⟨mayCall, call, locals, point, rfl, blocked⟩
        exact Or.inr ⟨mayCall, call, locals, point, rest, rfl, below, blocked⟩

/-- Nobody is firing an item. -/
theorem not_firing (standstill : Standstill pool state) {serial : Nat} {point : FirePoint} :
    .fire () serial point ∉ state.callStack thread := by
  intro member
  rcases standstill.frame_cases member with ⟨rest, place⟩ | ⟨mayCall, _⟩
  · exact standstill.stuck thread _ rest place (canEase_fire standstill.staffed serial point)
  · cases mayCall

/-- A call of a worker is not blocked: the worker is executing a work that has
been counted. -/
theorem not_blocked_worker (standstill : Standstill pool state) {call : Nat} {locals : SpreadLocals}
    {point : SpreadPoint program.bits} (place : state.callStack thread = .spread () call locals point :: rest)
    (serves : pool.Serves thread ()) : ¬ point.Blocked pool thread state.shared call := by
  intro blocked
  have own := inline standstill.reachable thread serves _ (by rw [place]; exact List.mem_cons_self)
  cases point with
  | loadItems =>
      have uncounted : state.total (Frame.uncounts ()) = 0 := by
        rw [total_eq_zero_iff]
        intro other frame member
        cases frame with
        | fire shop serial point => exact absurd member standstill.not_firing
        | _ => rfl
      have balanced := itemsBalanced_of_detecting standstill.reachable
      have sized := standstill.reachable.inside.items ()
      have zero : BitVec.ofNat program.bits (outstandingWorks () state + state.shared.refused) = 0 := by
        rw [BalancedWord, uncounted, blocked.2] at balanced
        rw [outstandingWorks, Nat.add_assoc, ← balanced]
        exact BitVec.add_zero _
      have none : outstandingWorks () state + state.shared.refused = 0 := by
        have value := congrArg BitVec.toNat zero
        rw [BitVec.toNat_ofNat, Nat.mod_eq_of_lt sized] at value
        exact value
      rcases serves with ⟨index, role⟩
      rcases based standstill.run role with ⟨upper, base, stack, home, calls⟩
      have counted := weight_le_total (Frame.owes ()) state
        (by rw [stack]; exact List.mem_append_right _ (List.mem_singleton_self _) : base ∈ state.callStack thread)
      have executing : base.owes () = 1 := by
        cases base with
        | executing host work phase => rfl
        | worker shop index' point =>
            cases upper with
            | nil =>
                rw [place] at stack
                cases stack
            | cons top upper => cases calls (List.cons_ne_nil _ _)
        | _ => cases home
      rw [outstandingWorks] at none
      omega
  | spinning | waiting => exact own
  | _ => exact blocked

/-- With something in the queue every worker sleeps without a token. -/
theorem asleep (standstill : Standstill pool state) (some : state.shared.queue ≠ []) {index : Nat}
    (role : pool.role thread = Option.some ((), index)) :
    state.callStack thread = [.worker () index .sleeping] ∧ state.shared.tokens () index = 0 := by
  have running := brexit_of_detecting standstill.reachable
  rcases based standstill.run role with ⟨upper, base, stack, home, calls⟩
  cases upper with
  | cons top upper =>
      have inside : base ∈ upper ++ [base] := List.mem_append_right _ (List.mem_singleton_self _)
      rcases standstill.below_cases stack inside with ⟨_, call, locals, point, rfl, blocked⟩
      exact absurd blocked (standstill.not_blocked_worker stack ⟨index, role⟩)
  | nil =>
      have stuck := standstill.stuck thread base [] stack
      cases base with
      | worker shop index' point =>
          cases home
          have stays : point ≠ .exited := by
            rintro rfl
            have left := brexit_of_left standstill.run
              (by rw [stack]; exact List.mem_singleton_self _ : _ ∈ state.callStack thread)
            cases left.symm.trans running
          have without : point = .sleeping ∧ ¬ 0 < state.shared.tokens () index := by
            by_contra free
            apply stuck
            apply canEase_worker index running stays some
            intro sleeping
            by_contra none
            exact free ⟨sleeping, none⟩
          rw [stack, without.1]
          exact ⟨rfl, Nat.eq_zero_of_not_pos without.2⟩
      | executing host work phase => exact absurd (canEase_executing host work phase) stuck
      | _ => cases home

/-- Nobody covers what is in the queue. -/
theorem not_covered (standstill : Standstill pool state) (some : state.shared.queue ≠ []) : ¬ Covered () state := by
  rintro (somebody | ⟨index, below, token⟩)
  · rcases (total_pos_iff _ state).mp somebody with ⟨thread, frame, member, covers⟩
    have sleeps : forall {worker : Unit × Nat}, frame.home = Option.some worker ->
        frame = .worker () worker.2 .sleeping := by
      intro worker home
      have alone := (standstill.asleep some (role_of_home standstill.run member home)).1
      rw [alone] at member
      exact List.mem_singleton.mp member
    cases frame with
    | fire shop serial point => exact standstill.not_firing member
    | worker shop index point =>
        rw [sleeps rfl] at covers
        cases covers
    | executing host work phase =>
        cases host with
        | worker shop index own => cases sleeps rfl
        | caller | thief => cases covers
    | outside | spread | stop => cases covers
  · rcases pool.staffed () index below with ⟨thread, role⟩
    rw [(standstill.asleep some role).2] at token
    exact absurd token (Nat.lt_irrefl 0)

/-- A frame below the top shows a newer call than those it mentions. -/
theorem newer_of_below (standstill : Standstill pool state) {call : Nat} {locals : SpreadLocals}
    {point : SpreadPoint program.bits} (place : state.callStack thread = .spread () call locals point :: rest)
    (below : frame ∈ rest) {mentioned : Nat} (mentions : frame.Mentions mentioned) :
    Exists fun thread => Exists fun newest => Exists fun call =>
      newest ∈ state.callStack thread ∧ newest.call = some call ∧ mentioned < call := by
  have order := newer standstill.run thread
  rw [place] at order
  exact ⟨thread, _, call, by rw [place]; exact List.mem_cons_self, rfl,
    (List.pairwise_cons.mp order).1 frame below call mentioned rfl mentions⟩

/-- A part of a call is being executed by a frame below a newer call. -/
theorem newer_of_carried (standstill : Standstill pool state) {call : Nat} (member : frame ∈ state.callStack thread)
    (carries : 0 < frame.carries (Work.ofCall call)) :
    Exists fun thread => Exists fun newest => Exists fun newestCall =>
      newest ∈ state.callStack thread ∧ newest.call = some newestCall ∧ call < newestCall := by
  rcases standstill.frame_cases member with ⟨rest, place⟩ | ⟨_, newest, locals, point, rest, place, below, _⟩
  · rcases standstill.top_cases place with rfl | ⟨index, point, rfl⟩ | ⟨own, locals, point, rfl, blocked⟩
    · cases carries
    · cases carries
    · cases point with
      | loadItems | spinning | waiting => cases carries
      | _ => exact absurd blocked id
  · exact standstill.newer_of_below place below (Or.inr carries)

/-- A part of a call is in the queue although nobody covers the queue: the call
has been suspended by a newer one. -/
theorem newer_of_queued (standstill : Standstill pool state) {call : Nat} {entry : Entry Unit}
    (queued : entry ∈ state.shared.queue) (part : entry.work.ofCall call = true) :
    Exists fun thread => Exists fun newest => Exists fun newestCall =>
      newest ∈ state.callStack thread ∧ newest.call = some newestCall ∧ call < newestCall := by
  rcases attended standstill.staffed standstill.reachable queued with covered | ⟨own, ofOwn, attends⟩
  · exact absurd covered (standstill.not_covered (List.ne_nil_of_mem queued))
  · have same : own = call := by
      cases work : entry.work with
      | item serial =>
          rw [work] at part
          cases part
      | part piece =>
          rw [work] at part ofOwn
          exact (beq_iff_eq.mp ofOwn).symm.trans (beq_iff_eq.mp part)
    subst same
    rcases (total_pos_iff _ state).mp attends with ⟨thread, frame, member, positive⟩
    rcases standstill.frame_cases member with ⟨rest, place⟩ | ⟨_, newest, locals, point, rest, place, below, _⟩
    · rcases standstill.top_cases place with rfl | ⟨index, point, rfl⟩ | ⟨other, locals, point, rfl, blocked⟩
      · cases positive
      · cases positive
      · cases point with
        | loadItems | spinning | waiting =>
            rw [attends_eq_zero rfl rfl] at positive
            cases positive
        | _ => exact absurd blocked id
    · have mentions : frame.Mentions own := by
        left
        cases frame with
        | executing host work phase =>
            have picked : forall {other : Nat} {locals : SpreadLocals},
                0 < (if other = own ∧ locals.steals = true then 1 else 0) -> some other = some own := by
              intro other locals positive
              by_cases holds : other = own ∧ locals.steals = true
              · rw [holds.1]
              · rw [if_neg holds] at positive
                cases positive
            cases host with
            | worker => cases positive
            | caller | thief => exact picked positive
        | spread shop other locals point =>
            by_cases holds : other = own ∧ (locals.steals && point.stealsLater || point.signalsNext) = true
            · rw [← holds.1]
              rfl
            · rw [attends_spread, if_neg holds] at positive
              cases positive
        | _ => cases positive
      exact standstill.newer_of_below place below mentions

/-- Every call is blocked by a newer one. -/
theorem newer_call (standstill : Standstill pool state) {call : Nat} (member : frame ∈ state.callStack thread)
    (own : frame.call = some call) :
    Exists fun thread => Exists fun newest => Exists fun newestCall =>
      newest ∈ state.callStack thread ∧ newest.call = some newestCall ∧ call < newestCall := by
  rcases standstill.frame_cases member with ⟨rest, place⟩ | ⟨_, newest, locals, point, rest, place, below, _⟩
  · rcases standstill.top_cases place with rfl | ⟨index, point, rfl⟩ | ⟨own', locals, point, rfl, blocked⟩
    · cases own
    · cases own
    · cases own
      have outstanding : 0 < state.shared.outstanding call := by
        have counter : (state.shared.barrier call).counter ≠ 0 := by
          intro zero
          cases point with
          | loadItems =>
              by_cases serves : pool.Serves thread ()
              · exact standstill.not_blocked_worker place serves blocked
              · exact serves blocked.1
          | spinning =>
              have arrived := everyoneArrived_of_counter zero
              cases arrived.symm.trans blocked
          | waiting => exact blocked zero
          | _ => exact blocked
        have counts := (tracked (boundedShopSystem_of_detecting standstill.reachable)).counts call
        rw [Nat.pos_iff_ne_zero]
        intro none
        rw [none] at counts
        exact counter counts
      have carried := (accounted (Work.ofCall call) standstill.run).carried
      rw [(running_of_detecting standstill.reachable).2, List.countP_nil] at carried
      unfold Shared.outstanding Shared.made at outstanding
      rcases Nat.eq_zero_or_pos (state.total (Frame.carries (Work.ofCall call))) with none | some
      · have queued : 0 < (state.shared.queue.map Entry.work).countP (Work.ofCall call) := by omega
        rcases List.countP_pos_iff.mp queued with ⟨work, among, part⟩
        rcases List.mem_map.mp among with ⟨entry, present, rfl⟩
        exact standstill.newer_of_queued present part
      · rcases (total_pos_iff _ state).mp some with ⟨other, frame, present, carries⟩
        exact standstill.newer_of_carried present carries
  · exact standstill.newer_of_below place below (Or.inl own)

/-- There is no call that has not returned. -/
theorem no_call (standstill : Standstill pool state) (member : frame ∈ state.callStack thread) : frame.call = none := by
  have bounded : forall distance call, state.shared.nextCall - call = distance ->
      forall thread frame, frame ∈ state.callStack thread -> frame.call ≠ some call := by
    intro distance
    induction distance using Nat.strong_induction_on with
    | _ distance inductionHypothesis =>
        rintro call rfl thread frame member own
        rcases standstill.newer_call member own with ⟨thread', frame', call', member', own', later⟩
        have started := call_lt_nextCall standstill.run member' own'
        exact inductionHypothesis (state.shared.nextCall - call') (by omega) call' rfl thread' frame' member' own'
  cases own : frame.call with
  | none => rfl
  | some call => exact absurd own (bounded _ call rfl thread frame member)

end Standstill

end Runs

end Shop
end Sweater
