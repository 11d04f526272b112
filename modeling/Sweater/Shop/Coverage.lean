import Sweater.Shop.OrderlyRuns
import Sweater.Spread.ExactTiling

namespace Sweater
namespace Shop

open Machine
open Threading
open Spread
open Interleaving
open Interleaving.Stacked

/-!
# A call that returns has executed each iteration once

What a call has created, less what the shared queue has refused, and what it is
still going to create cover each of its iterations once.  At the end nothing is
left to create, and nothing is outstanding.  This does not depend on the success
of any enqueue: a call whose slices have been lost does not return at all.
-/

variable {Shop Thread : Type} {program : Program Shop}

/-! ## Covering an iteration -/

/-- A part of the given call that executes the given iteration. -/
def Work.covers (call iteration : Nat) : Work -> Bool
  | item _ => false
  | part piece => piece.call == call && Chunk.contains iteration piece.chunk

theorem ofCall_of_covers {call iteration : Nat} {work : Work} (covers : work.covers call iteration = true) :
    work.ofCall call = true := by
  cases work with
  | item serial => cases covers
  | part piece => exact (Bool.and_eq_true_iff.mp covers).1

theorem countP_covers_le (works : List Work) (call iteration : Nat) :
    works.countP (Work.covers call iteration) ≤ works.countP (Work.ofCall call) :=
  List.countP_mono_left (fun _ _ => ofCall_of_covers)

theorem countP_covers_parts {call : Nat} {parts : List Part} (own : forall part, part ∈ parts -> part.call = call)
    (iteration : Nat) : (parts.map Work.part).countP (Work.covers call iteration) =
      (parts.map Part.chunk).countP (Chunk.contains iteration) := by
  rw [List.countP_map, List.countP_map]
  apply List.countP_congr
  intro part member
  have same : (part.call == call) = true := beq_iff_eq.mpr (own part member)
  simp only [Function.comp_apply, Work.covers, same, Bool.true_and]

theorem partsOf_chunks (call serial : Nat) (chunks : List Chunk) :
    (partsOf call serial chunks).map Part.chunk = chunks := by
  induction chunks generalizing serial with
  | nil => rfl
  | cons chunk rest inductionHypothesis => exact congrArg (List.cons chunk) (inductionHypothesis (serial + 1))

/-- One for an iteration of a call, none for any other number. -/
def share (iterations : BitVec 32) (iteration : Nat) : Nat :=
  if iteration < iterations.toNat then 1 else 0

theorem countP_callerChunk (callerEnd : BitVec 32) (iteration : Nat) :
    (Plan.callerChunk callerEnd).countP (Chunk.contains iteration) = share callerEnd iteration := by
  rw [countP_contains (tiles_callerChunk callerEnd)]
  simp only [Nat.zero_le, true_and, share]

theorem countP_plan {plan : Plan program.bits} {situation : Situation program.bits} {iterations : BitVec 32}
    (exact_ : plan.Exact situation iterations) (iteration : Nat) :
    (plan.chunks iterations true).countP (Chunk.contains iteration) = share iterations iteration := by
  rw [countP_contains (exact_.tiles true)]
  simp only [Nat.zero_le, true_and, share]

/-! ## What a call is still going to create -/

/-- The chunks that a call has planned and not yet made a part of. -/
def SpreadPoint.remaining {bits : Nat} (locals : SpreadLocals) : SpreadPoint bits -> List Chunk
  | .registerSlice _ _ _ slices rest =>
      slices ++ rest.flatMap Dispatch.slices ++ Plan.callerChunk locals.callerEnd
  | .countSlice _ _ _ slices rest =>
      slices ++ rest.flatMap Dispatch.slices ++ Plan.callerChunk locals.callerEnd
  | .notifyRoot _ rest => rest.flatMap Dispatch.slices ++ Plan.callerChunk locals.callerEnd
  | .countParts chunks => chunks ++ Plan.callerChunk locals.callerEnd
  | .initializeBarrier chunks => chunks ++ Plan.callerChunk locals.callerEnd
  | .enqueueParts _ => Plan.callerChunk locals.callerEnd
  | .notifyAll _ => Plan.callerChunk locals.callerEnd
  | .initializeEmpty => Plan.callerChunk locals.callerEnd
  | .callerRegister => Plan.callerChunk locals.callerEnd
  | _ => []

theorem remaining_toCaller (locals : SpreadLocals) :
    (SpreadPoint.toCaller locals : SpreadPoint program.bits).remaining locals = Plan.callerChunk locals.callerEnd := by
  unfold SpreadPoint.toCaller
  by_cases some : locals.callerEnd ≠ 0
  · rw [if_pos some]
    rfl
  · rw [if_neg some, Plan.callerChunk, if_neg some]
    rfl

theorem remaining_nextDispatch (locals : SpreadLocals) (first : Bool) (rest : List (Dispatch program.bits)) :
    (SpreadPoint.nextDispatch locals first rest).remaining locals =
      rest.flatMap Dispatch.slices ++ Plan.callerChunk locals.callerEnd := by
  cases rest with
  | nil => exact remaining_toCaller locals
  | cons dispatch rest =>
      rw [List.flatMap_cons]
      rfl

theorem countP_startPlan {plan : Plan program.bits} {situation : Situation program.bits} {locals : SpreadLocals}
    (exact_ : plan.Exact situation locals.iterations) (iteration : Nat) :
    ((startPlan program locals plan).2.remaining (startPlan program locals plan).1).countP (Chunk.contains iteration) =
      share locals.iterations iteration := by
  rw [← countP_plan exact_ iteration]
  cases plan with
  | nothing => rfl
  | inCaller iterations => rfl
  | toWorkers callerEnd sliceDiv dispatches =>
      simp only [startPlan, Plan.chunks]
      rw [remaining_nextDispatch { locals with callerEnd := callerEnd }, List.countP_append, List.countP_append,
        Nat.add_comm]
  | toQueue queueAndWait callerEnd chunks =>
      simp only [startPlan, Plan.chunks, or_true, if_true]
      by_cases none : chunks = []
      · rw [if_pos none, none, List.append_nil]
        rfl
      · rw [if_neg none]
        simp only [SpreadPoint.remaining]
        rw [List.countP_append, List.countP_append, Nat.add_comm]

/-! ## What a frame knows about the iterations of its call -/

/-- The parts created so far, less those refused, and the chunks that remain
contain each iteration once. -/
def Shared.Shares (shared : Shared program) (call : Nat) (iterations : BitVec 32) (remaining : List Chunk) : Prop :=
  forall iteration, shared.created.countP (Work.covers call iteration) + remaining.countP (Chunk.contains iteration) =
    share iterations iteration + shared.dropped.countP (Work.covers call iteration)

/-- The parts created so far are the given ones, and none has been refused. -/
def Shared.Offers (shared : Shared program) (call : Nat) (parts : List Part) : Prop :=
  forall iteration, shared.created.countP (Work.covers call iteration) =
      (parts.map Work.part).countP (Work.covers call iteration) ∧
    shared.dropped.countP (Work.covers call iteration) = 0

def SpreadPoint.Shares (shared : Shared program) (call : Nat) (locals : SpreadLocals) :
    SpreadPoint program.bits -> Prop
  | .loadItems | .loadDivision _ => True
  | .enqueueParts parts =>
      shared.Offers call parts ∧ shared.Shares call locals.iterations (Plan.callerChunk locals.callerEnd)
  | .resetBarrier parts => shared.Offers call parts
  | point => shared.Shares call locals.iterations (point.remaining locals)

def Frame.Shares (shared : Shared program) : Frame Shop program.bits -> Prop
  | .spread _ call locals point => point.Shares shared call locals
  | .executing (.caller _ call locals) _ _ => shared.Shares call locals.iterations []
  | .executing (.thief _ call locals) _ _ => shared.Shares call locals.iterations []
  | _ => True

theorem Frame.Shares.stable {shared shared' : Shared program} {frame : Frame Shop program.bits}
    (covers : frame.Shares shared)
    (kept : forall call, frame.call = some call -> forall iteration,
      shared'.created.countP (Work.covers call iteration) = shared.created.countP (Work.covers call iteration) ∧
        shared'.dropped.countP (Work.covers call iteration) = shared.dropped.countP (Work.covers call iteration)) :
    frame.Shares shared' := by
  have shares : forall {call : Nat} {iterations : BitVec 32} {remaining : List Chunk}, frame.call = some call ->
      shared.Shares call iterations remaining -> shared'.Shares call iterations remaining := by
    intro call iterations remaining own holds iteration
    rw [(kept call own iteration).1, (kept call own iteration).2]
    exact holds iteration
  have offers : forall {call : Nat} {parts : List Part}, frame.call = some call ->
      shared.Offers call parts -> shared'.Offers call parts := by
    intro call parts own holds iteration
    rw [(kept call own iteration).1, (kept call own iteration).2]
    exact holds iteration
  cases frame with
  | spread shop call locals point =>
      cases point with
      | loadItems | loadDivision => trivial
      | enqueueParts parts => exact ⟨offers rfl covers.1, shares rfl covers.2⟩
      | resetBarrier parts => exact offers rfl covers
      | _ => exact shares rfl covers
  | executing host work phase =>
      cases host with
      | worker => trivial
      | caller | thief => exact shares rfl covers
  | _ => trivial

/-! ## One step -/

theorem SpreadPoint.shares_toCaller {shared : Shared program} {call : Nat} {locals : SpreadLocals}
    (shares : shared.Shares call locals.iterations (Plan.callerChunk locals.callerEnd)) :
    (SpreadPoint.toCaller locals).Shares shared call locals := by
  unfold SpreadPoint.toCaller
  by_cases some : locals.callerEnd ≠ 0
  · rw [if_pos some]
    exact shares
  · rw [Plan.callerChunk, if_neg some] at shares
    rw [if_neg some]
    exact shares

theorem SpreadPoint.shares_nextDispatch {shared : Shared program} {call : Nat} {locals : SpreadLocals}
    {rest : List (Dispatch program.bits)} (first : Bool)
    (shares : shared.Shares call locals.iterations
      (rest.flatMap Dispatch.slices ++ Plan.callerChunk locals.callerEnd)) :
    (SpreadPoint.nextDispatch locals first rest).Shares shared call locals := by
  cases rest with
  | nil => exact shares_toCaller shares
  | cons dispatch rest =>
      rw [List.flatMap_cons] at shares
      exact shares

theorem SpreadPoint.shares_toJoin {shared : Shared program} {call : Nat} {locals : SpreadLocals}
    (shares : shared.Shares call locals.iterations []) :
    (SpreadPoint.toJoin locals : SpreadPoint program.bits).Shares shared call locals := by
  unfold SpreadPoint.toJoin
  split <;> exact shares

theorem SpreadPoint.shares_startPlan {shared : Shared program} {call : Nat} {locals : SpreadLocals}
    {plan : Plan program.bits}
    (shares : shared.Shares call locals.iterations
      ((startPlan program locals plan).2.remaining (startPlan program locals plan).1)) :
    (startPlan program locals plan).2.Shares shared call (startPlan program locals plan).1 := by
  cases plan with
  | nothing | inCaller iterations => exact shares
  | toWorkers callerEnd sliceDiv dispatches =>
      simp only [startPlan, remaining_nextDispatch { locals with callerEnd := callerEnd }] at shares
      exact shares_nextDispatch true shares
  | toQueue queueAndWait callerEnd chunks =>
      simp only [startPlan] at shares ⊢
      by_cases none : chunks = []
      · rw [if_pos none] at shares ⊢
        exact shares
      · rw [if_neg none] at shares ⊢
        exact shares

/-- A part that is made of a remaining chunk. -/
theorem Shared.Shares.create {shared shared' : Shared program} {call : Nat} {iterations : BitVec 32}
    {remaining later : List Chunk} (parts : List Part) (shares : shared.Shares call iterations remaining)
    (own : forall part, part ∈ parts -> part.call = call)
    (created : shared'.created = shared.created ++ parts.map Work.part) (dropped : shared'.dropped = shared.dropped)
    (made : remaining.Perm (parts.map Part.chunk ++ later)) : shared'.Shares call iterations later := by
  intro iteration
  have before := shares iteration
  rw [made.countP_eq, List.countP_append] at before
  rw [created, dropped, List.countP_append, countP_covers_parts own]
  omega

section Steps

variable [DecidableEq Shop] {pool : Pool program Thread} {callStack : Thread -> List (Frame Shop program.bits)}
  {thread : Thread} {shared shared' : Shared program} {frame : Frame Shop program.bits}
  {frames : List (Frame Shop program.bits)}

theorem ShopStep.covers_eq (move : ShopStep pool callStack thread shared frame shared' frames)
    (knows : frame.Knows shared) {call : Nat} (other : frame.call ≠ some call) (iteration : Nat) :
    shared'.created.countP (Work.covers call iteration) = shared.created.countP (Work.covers call iteration) ∧
      shared'.dropped.countP (Work.covers call iteration) = shared.dropped.countP (Work.covers call iteration) := by
  have foreign : forall works : List Work, works.countP (Work.ofCall call) = 0 ->
      works.countP (Work.covers call iteration) = 0 := by
    intro works none
    exact Nat.eq_zero_of_le_zero (none ▸ countP_covers_le works call iteration)
  constructor
  · obtain ⟨added, created, _, owned⟩ := move.creates
    have none : added.countP (Work.covers call iteration) = 0 := by
      rw [List.countP_eq_zero]
      intro work member covers
      exact other (owned work member call (ofCall_of_covers covers))
    rw [created, List.countP_append, none, Nat.add_zero]
  · cases move with
    | worker move => cases move <;> rfl
    | execution move => cases move <;> rfl
    | fire move =>
        cases move with
        | refuse =>
            change (shared.dropped ++ [_]).countP _ = _
            rw [List.countP_append]
            rfl
        | _ => rfl
    | spread move =>
        cases move with
        | resetBarrier parts =>
            have own := knows.2.2.2
            have different : call ≠ _ := fun same => other (congrArg some same.symm)
            change (shared.dropped ++ _).countP _ = _
            rw [List.countP_append, foreign _ (countP_ofCall_other different own)]
            rfl
        | _ => rfl
    | stop move => cases move <;> rfl
    | call move => cases move <;> rfl

/-- The steps of a call keep its shares: a part is created for a remaining chunk,
and after a refusal of the parts the caller takes all iterations. -/
theorem SpreadStep.shares {recursive : Bool} (move : SpreadStep program recursive shared frame shared' frames)
    (knows : frame.Knows shared) (covers : frame.Shares shared)
    (sound : forall call iteration,
      shared.dropped.countP (Work.covers call iteration) ≤ shared.created.countP (Work.covers call iteration))
    (tiles : forall shop call locals itemsInShop plan exact_,
      frame = .spread shop call locals (.loadDivision itemsInShop) ->
      spreadWork ⟨program.workerThreads shop, itemsInShop, shared.division, recursive, program.singleCorePlatform⟩
        locals.iterations locals.parallelizable = some (plan, exact_) ->
      forall iteration, ((startPlan program locals plan).2.remaining (startPlan program locals plan).1).countP
        (Chunk.contains iteration) = share locals.iterations iteration) :
    forall next, next ∈ frames -> next.Shares shared' := by
  have unmade : forall {call : Nat}, shared.made call = 0 -> forall iteration,
      shared.created.countP (Work.covers call iteration) = 0 ∧
        shared.dropped.countP (Work.covers call iteration) = 0 := by
    intro call none iteration
    have created := countP_covers_le shared.created call iteration
    have dropped := sound call iteration
    unfold Shared.made at none
    omega
  cases move <;> simp only [List.mem_singleton, forall_eq]
  case loadItems => trivial
  case plan shop call locals itemsInShop plan exact planned =>
    apply SpreadPoint.shares_startPlan
    intro iteration
    rw [tiles shop call locals itemsInShop plan exact rfl planned iteration]
    change shared.created.countP _ + _ = _ + shared.dropped.countP _
    rw [(unmade knows.2 iteration).1, (unmade knows.2 iteration).2, Nat.add_comm]
  case registerSlice shop call locals worker first registered chunk slices rest =>
    refine Shared.Shares.create [⟨shared.created.length, call, chunk⟩] covers ?_ rfl rfl (List.Perm.refl _)
    exact fun part member => by rw [List.mem_singleton.mp member]
  case enqueueSlices first registered rest | refuseSlices first registered rest _ =>
    cases first with
    | true => exact covers
    | false => exact SpreadPoint.shares_nextDispatch false covers
  case notifyRoot => exact SpreadPoint.shares_nextDispatch false covers
  case initializeBarrier shop call locals chunks =>
    have own := partsOf_call call shared.created.length chunks
    have made : (chunks ++ Plan.callerChunk locals.callerEnd).Perm
        ((partsOf call shared.created.length chunks).map Part.chunk ++ Plan.callerChunk locals.callerEnd) := by
      rw [partsOf_chunks]
    refine ⟨fun iteration => ⟨?_, (unmade knows.2 iteration).2⟩, Shared.Shares.create _ covers own rfl rfl made⟩
    change (shared.created ++ _).countP _ = _
    rw [List.countP_append, (unmade knows.2 iteration).1, Nat.zero_add]
  case enqueueParts => exact covers.2
  case refuseParts => exact covers.1
  case notifiedAll | initializeEmpty => exact SpreadPoint.shares_toCaller covers
  case resetBarrier shop call locals parts =>
    apply SpreadPoint.shares_toCaller
    intro iteration
    change shared.created.countP _ + _ = _ + (shared.dropped ++ _).countP _
    rw [List.countP_append, (covers iteration).1, (covers iteration).2, countP_callerChunk, Nat.zero_add, Nat.add_comm]
  case callerRegister shop call locals =>
    intro iteration
    have before := covers iteration
    have whole : [Work.part ⟨shared.created.length, call, ⟨0, locals.callerEnd⟩⟩].countP (Work.covers call iteration) =
        share locals.callerEnd iteration := by
      simp [List.countP_cons, Work.covers, Chunk.contains, share]
    rw [SpreadPoint.remaining, countP_callerChunk] at before
    change (shared.created ++ _).countP _ + _ = _
    rw [List.countP_append, whole]
    exact before
  case callerComplete shop call locals => cases locals.immediate <;> exact covers
  case stealSkip | stealEmpty => exact SpreadPoint.shares_toJoin covers
  case spinOver shop call locals isStalled arrived => cases isStalled <;> exact covers
  all_goals exact covers

theorem ShopStep.shares (move : ShopStep pool callStack thread shared frame shared' frames)
    (knows : frame.Knows shared) (covers : frame.Shares shared) (fresh : shared.made shared.nextCall = 0)
    (sound : forall call iteration,
      shared.dropped.countP (Work.covers call iteration) ≤ shared.created.countP (Work.covers call iteration))
    (tiles : forall shop call locals itemsInShop plan exact_,
      frame = .spread shop call locals (.loadDivision itemsInShop) ->
      spreadWork ⟨program.workerThreads shop, itemsInShop, shared.division, decide (pool.Serves thread shop),
        program.singleCorePlatform⟩ locals.iterations locals.parallelizable = some (plan, exact_) ->
      forall iteration, ((startPlan program locals plan).2.remaining (startPlan program locals plan).1).countP
        (Chunk.contains iteration) = share locals.iterations iteration) :
    forall next, next ∈ frames -> next.Shares shared' := by
  cases move with
  | worker move => cases move <;> simp only [List.mem_singleton, forall_eq] <;> trivial
  | execution move =>
      cases move <;> simp only [List.mem_singleton, forall_eq]
      case invoke host work | finish host work => cases host <;> exact covers
      case arrive host part | discount host serial => cases host <;> exact covers
  | fire move => cases move <;> simp only [List.mem_singleton, forall_eq] <;> trivial
  | @spread _ _ _ shop call locals point _ _ move =>
      apply move.shares knows covers sound
      rintro shop' call' locals' itemsInShop plan exact_ same planned
      cases same
      exact tiles shop call locals itemsInShop plan exact_ rfl planned
  | stop move => cases move <;> simp only [List.mem_singleton, forall_eq] <;> trivial
  | call move =>
      cases move with
      | fire frame shop =>
          simp only [List.mem_cons, List.not_mem_nil, or_false, forall_eq_or_imp, forall_eq]
          refine ⟨trivial, covers.stable (fun call _ iteration => ⟨?_, rfl⟩)⟩
          change (shared.created ++ [_]).countP _ = _
          rw [List.countP_append]
          rfl
      | stop frame shop =>
          simp only [List.mem_cons, List.not_mem_nil, or_false, forall_eq_or_imp, forall_eq]
          exact ⟨trivial, covers.stable (fun _ _ _ => ⟨rfl, rfl⟩)⟩
      | spread frame shop iterations parallelizable =>
          simp only [List.mem_cons, List.not_mem_nil, or_false, forall_eq_or_imp, forall_eq]
          refine ⟨?_, covers.stable (fun _ _ _ => ⟨rfl, rfl⟩)⟩
          by_cases none : iterations = 0
          · rw [if_pos none]
            intro iteration
            have created := countP_covers_le shared.created shared.nextCall iteration
            have dropped := sound shared.nextCall iteration
            have nothing : share iterations iteration = 0 := by
              rw [none]
              rfl
            change shared.created.countP _ + 0 = share iterations iteration + shared.dropped.countP _
            rw [nothing]
            unfold Shared.made at fresh
            omega
          · rw [if_neg none]
            trivial
      | fired | spreadReturn | stopped => exact fun _ impossible => by cases impossible

end Steps

/-! ## Whole runs -/

section Runs

variable [DecidableEq Shop] [Fintype Thread] [DecidableEq Thread] {pool : Pool program Thread}
  {state : Stacked Thread (Frame Shop program.bits) (Shared program)}

/-- The runs in which no counter reaches the range of its type. -/
def sizedSystem (pool : Pool program Thread) :
    System (Stacked Thread (Frame Shop program.bits) (Shared program)) :=
  (shopSystem pool).within Sized

theorem sizedSystem_of_stepsWhere {admitted : Stacked Thread (Frame Shop program.bits) (Shared program) ->
      Stacked Thread (Frame Shop program.bits) (Shared program) -> Prop}
    (reachable : (((shopSystem pool).stepsWhere admitted).within Sized).Reachable state) :
    (sizedSystem pool).Reachable state := by
  induction reachable with
  | initial first => exact .initial first
  | step _ move inductionHypothesis => exact .step inductionHypothesis ⟨move.1.1, move.2⟩

theorem boundedShopSystem_of_sized (reachable : (sizedSystem pool).Reachable state) :
    (boundedShopSystem pool).Reachable state := by
  induction reachable with
  | initial first => exact .initial ⟨first.1, first.2.barriers⟩
  | step _ move inductionHypothesis => exact .step inductionHypothesis ⟨move.1, move.2.barriers⟩

/-- The plan of a call covers each of its iterations once. -/
theorem plan_covers (staffed : forall shop, 0 < program.workers shop)
    (representable : forall shop, program.workers shop + 1 < 2 ^ program.bits)
    (reachable : (sizedSystem pool).Reachable state) {thread : Thread} {shop : Shop} {call : Nat}
    {locals : SpreadLocals} {itemsInShop : BitVec program.bits}
    (member : .spread shop call locals (.loadDivision itemsInShop) ∈ state.callStack thread)
    {plan : Plan program.bits} {exact_ : Bool}
    (planned : spreadWork ⟨program.workerThreads shop, itemsInShop, state.shared.division,
      decide (pool.Serves thread shop), program.singleCorePlatform⟩ locals.iterations locals.parallelizable =
        some (plan, exact_)) (iteration : Nat) :
    ((startPlan program locals plan).2.remaining (startPlan program locals plan).1).countP
      (Chunk.contains iteration) = share locals.iterations iteration := by
  have wide : 8 ≤ program.bits := by
    unfold Program.bits
    cases program.concurrency <;> decide
  have narrow : program.bits ≤ 16 := by
    unfold Program.bits
    cases program.concurrency <;> decide
  have known : locals.queueAndWait = false ∧ locals.immediate = false ∧ locals.iterations ≠ 0 :=
    decided reachable.of_within thread _ member
  have divided := divides reachable.of_within
  have divisible := reachable.inside.divisible thread shop call locals _ member
  have workers : program.workerThreads shop ≠ 0 := by
    intro none
    have some := staffed shop
    rw [Program.workers, none] at some
    exact absurd some (Nat.lt_irrefl 0)
  rcases spreadWork_returns wide narrow ⟨program.workerThreads shop, itemsInShop, state.shared.division,
    decide (pool.Serves thread shop), program.singleCorePlatform⟩ locals.iterations locals.parallelizable known.2.2
    divisible (representable shop) (Or.inl workers) divided.1 divided.2 with ⟨plan', planned', exact'⟩
  cases planned'.symm.trans planned
  exact countP_startPlan exact' iteration

theorem shares (staffed : forall shop, 0 < program.workers shop)
    (representable : forall shop, program.workers shop + 1 < 2 ^ program.bits)
    (reachable : (sizedSystem pool).Reachable state) (thread : Thread) (frame : Frame Shop program.bits)
    (member : frame ∈ state.callStack thread) : frame.Shares state.shared := by
  revert thread frame
  apply reachable.invariant
  · rintro state ⟨rfl, _⟩ thread frame member
    rcases mem_initialStack member with rfl | ⟨shop, index, _, rfl⟩
    · trivial
    · trivial
  · intro before after earlier holds move
    have bounded := boundedShopSystem_of_sized earlier
    have run := bounded.of_within
    have knows := (tracked bounded).knows
    apply frames_step move.1 (fun state _ frame => frame.Shares state.shared) holds
    · rintro thread top rest shared frames place localStep rfl covers
      have member : top ∈ before.callStack thread := by rw [place]; exact List.mem_cons_self
      apply localStep.shares (knows thread top member) covers (made_eq_zero run (Nat.le_refl _))
      · intro call iteration
        have carried := (accounted (Work.covers call iteration) run).carried
        omega
      · rintro shop call locals itemsInShop plan exact_ rfl planned iteration
        exact plan_covers staffed representable earlier member planned iteration
    · rintro thread top rest shared frames place localStep rfl other frame elsewhere covers
      have member : top ∈ before.callStack thread := by rw [place]; exact List.mem_cons_self
      apply covers.stable
      intro call own iteration
      exact localStep.covers_eq (knows thread top member) (call_ne_of_elsewhere run place elsewhere own) iteration

/-- When a call of `spread_work` is about to return, the work has been executed
exactly once for each of its iterations, whatever enqueues have failed. -/
theorem executed_once_of_finished (staffed : forall shop, 0 < program.workers shop)
    (representable : forall shop, program.workers shop + 1 < 2 ^ program.bits)
    (reachable : (sizedSystem pool).Reachable state) {thread : Thread} {shop : Shop} {call : Nat}
    {locals : SpreadLocals} (returning : .spread shop call locals .finished ∈ state.callStack thread)
    (iteration : Nat) :
    state.shared.invoked.countP (Work.covers call iteration) = (if iteration < locals.iterations.toNat then 1 else 0) ∧
      state.shared.finished.countP (Work.covers call iteration) =
        (if iteration < locals.iterations.toNat then 1 else 0) := by
  have bounded := boundedShopSystem_of_sized reachable
  have run := bounded.of_within
  obtain ⟨noFrame, notQueued, notLost⟩ := settled_of_outstanding run (outstanding_of_finished bounded returning)
  have shares : state.shared.Shares call locals.iterations [] :=
    shares staffed representable reachable thread _ returning
  have carried := total_le_total state (Frame.carries_le (fun work =>
    (ofCall_of_covers : work.covers call iteration = true -> work.ofCall call = true)))
  have queued := countP_covers_le (state.shared.queue.map Entry.work) call iteration
  have lost := countP_covers_le state.shared.lost call iteration
  have account := accounted (Work.covers call iteration) run
  obtain ⟨creation, invocation, completion⟩ := account
  have shared := shares iteration
  rw [List.countP_nil, share] at shared
  rw [total_carries] at carried
  simp only [Stacked.Balanced, Shared.placed] at creation invocation completion
  omega

end Runs

end Shop
end Sweater
