import Sweater.Shop.Refusals

namespace Sweater
namespace Shop

open Machine
open Machine.Checked
open Threading
open Spread
open Interleaving
open Interleaving.Stacked

/-!
# A bulk that the queue refuses

Before `spread_work` offers its parts to the shared queue in one `enqueue_bulk`
it has added their number to `work_items_` and initialised the completion
barrier with it.  When the queue refuses, the barrier is initialised a second
time, with zero, and the caller executes everything as one part of its own,
which it counts and completes.  Nothing takes the refused parts off
`work_items_` again.

What a call has done to `work_items_` can no longer be read off a state when
the call has returned, and so it is noted by an observer: each `fetch_add` for
the call that makes it, and each `work_completed()` for the call whose part has
been left.
-/

variable {Shop Thread : Type} {program : Program Shop}

/-! ## How many parts a bulk has -/

/-- A number of parts that `hardware_concurrency_t` holds, and not none. -/
def Countable (bits count : Nat) : Prop := 0 < count ∧ count < 2 ^ bits

theorem Countable.ofNat_ne_zero {bits count : Nat} (countable : Countable bits count) :
    BitVec.ofNat bits count ≠ 0 := by
  intro zero
  have same := congrArg BitVec.toNat zero
  rw [BitVec.toNat_ofNat, Nat.mod_eq_of_lt countable.2] at same
  exact Nat.ne_of_gt countable.1 (same.trans BitVec.toNat_zero)

/-- The barrier holds the number as well. -/
theorem Countable.setWidth_ne_zero {count : Nat} (countable : Countable program.bits count) :
    (BitVec.ofNat program.bits count).setWidth program.counterBits ≠ 0 := by
  intro zero
  apply countable.ofNat_ne_zero
  apply BitVec.eq_of_toNat_eq
  have same := congrArg BitVec.toNat zero
  rw [Machine.toNat_setWidth_of_le (program.barrierKind.bits_le_counterBits program.concurrency)] at same
  exact same.trans (BitVec.toNat_zero.trans BitVec.toNat_zero.symm)

/-- As many parts are filled as `work_part` counts. -/
theorem fillParts_count {bits : Nat} (iteration : BitVec 32) (numberOfParts : BitVec bits)
    (iterationsPerPart partsWithExtraIteration : BitVec 32) :
    Ensures (fillParts iteration numberOfParts iterationsPerPart partsWithExtraIteration)
      (fun filled => filled.parts.length < 2 ^ bits) := by
  have counted : Ensures (fillParts iteration numberOfParts iterationsPerPart partsWithExtraIteration)
      (fun filled => filled.parts.length = filled.workPart.toNat ∧
        decide (filled.workPart < numberOfParts) = false) := by
    refine ensures_loop _ (fun state : Filling bits => state.parts.length = state.workPart.toNat) ?_ _ _ ?_
    · intro state counted more
      have below : state.workPart < numberOfParts := of_decide_eq_true more
      refine ensures_bind (ensures_true _) (fun partIterations _ => ?_)
      refine ensures_bind (ensures_true _) (fun endIteration _ => ?_)
      refine ensures_bind (ensures_true _) (fun _ _ => ?_)
      refine ensures_bind (ensures_add _ _) (fun workPart next => ensures_pure ?_)
      have room : state.workPart.toNat + 1 < 2 ^ bits :=
        Nat.lt_of_le_of_lt (BitVec.lt_def.mp below) numberOfParts.isLt
      rw [List.length_append, List.length_singleton, counted, next, Machine.toNat_add_one _ room]
    · rw [List.length_nil, BitVec.ofNat_eq_ofNat, BitVec.toNat_zero]
  intro filled exact same
  rw [(counted filled exact same).1]
  exact filled.workPart.isLt

/-- Whatever the plan for the shared queue is, its parts can be counted. -/
theorem spreadWork_count {bits : Nat} (situation : Situation bits) (iterations parallelizable : BitVec 32) :
    Ensures (spreadWork situation iterations parallelizable)
      (fun plan => forall queueAndWait callerEnd chunks, plan = .toQueue queueAndWait callerEnd chunks ->
        chunks.length < 2 ^ bits) := by
  rw [spreadWork_eq]
  by_cases none : iterations = 0
  · rw [if_pos none]
    exact ensures_pure (by simp)
  rw [if_neg none]
  split
  · exact ensures_pure (by simp)
  refine ensures_bind (ensures_true _) (fun division _ => ?_)
  unfold dispatch
  split
  · refine ensures_bind (ensures_true _) (fun final _ => ?_)
    exact ensures_bind (ensures_true _) (fun _ _ => ensures_pure (by simp))
  split
  · refine ensures_bind (fillParts_count _ _ _ _) (fun filled few => ?_)
    refine ensures_bind (ensures_true _) (fun _ _ => ensures_pure ?_)
    rintro queueAndWait callerEnd chunks same
    cases same
    exact few
  · refine ensures_bind (ensures_true _) (fun _ _ => ensures_pure ?_)
    rintro queueAndWait callerEnd chunks same
    cases same
    exact Nat.two_pow_pos bits

/-! ## The observer -/

/-- The call that a work is a part of. -/
def Work.owner : Work -> Option Nat
  | item _ => none
  | part piece => some piece.call

/-- What the observer knows of each call. -/
structure Audit (Thread : Type) (bits : Nat) where
  /-- what has been added to `work_items_` for a call, less what has been taken
  off it for the parts of the call -/
  contribution : Nat -> BitVec bits
  /-- the call whose part a thread has left last -/
  left : Thread -> Option Nat
  /-- the call has dispatched parts to the workers, or the queue has accepted its bulk -/
  dispatched : Nat -> Bool
  /-- the bulk of the call that the queue has refused -/
  refused : Nat -> Option (List Part)
  /-- the call has called `initialize()` on a barrier whose counter was not zero -/
  reinitialized : Nat -> Bool
  returned : Nat -> Bool

namespace Audit

variable {bits : Nat}

/-- Nothing has happened yet. -/
def blank : Audit Thread bits where
  contribution := fun _ => 0
  left := fun _ => none
  dispatched := fun _ => false
  refused := fun _ => none
  reinitialized := fun _ => false
  returned := fun _ => false

/-- `work_items_.fetch_add( items )` for a call. -/
def add (audit : Audit Thread bits) (call : Nat) (items : BitVec bits) : Audit Thread bits :=
  { audit with contribution := Function.update audit.contribution call (audit.contribution call + items) }

/-- `work_completed()` after what the thread has left last. -/
def complete (audit : Audit Thread bits) (thread : Thread) : Audit Thread bits :=
  match audit.left thread with
  | none => audit
  | some call => audit.add call (-1)

def dispatch (audit : Audit Thread bits) (call : Nat) : Audit Thread bits :=
  { audit with dispatched := Function.update audit.dispatched call true }

/-- `BOOST_ASSERT_MSG( counter_ == 0, "Already initialized" )` -/
def assertUnused (audit : Audit Thread program.bits) (shared : Shared program) (call : Nat) :
    Audit Thread program.bits :=
  { audit with
    reinitialized := Function.update audit.reinitialized call
      (audit.reinitialized call || (shared.barrier call).counter != 0) }

/-- The observer knows the bulk to be refused by where the call goes on. -/
def offer (audit : Audit Thread bits) (call : Nat) (parts : List Part) :
    List (Frame Shop bits) -> Audit Thread bits
  | [.spread _ _ _ (.resetBarrier _)] =>
      { audit with refused := Function.update audit.refused call (some parts) }
  | _ => audit.dispatch call

/-- What the observer notes when a thread makes a step. -/
def watch [DecidableEq Thread] (audit : Audit Thread program.bits) (thread : Thread) (shared : Shared program)
    (frame : Frame Shop program.bits) (frames : List (Frame Shop program.bits)) : Audit Thread program.bits :=
  match frame with
  | .worker _ _ (.completing _) => audit.complete thread
  | .executing _ work .leaving => { audit with left := Function.update audit.left thread work.owner }
  | .spread _ call _ (.registerSlice _ _ _ _ _) => audit.dispatch call
  | .spread _ call _ (.countSlice _ _ _ _ _) => audit.add call 1
  | .spread _ call _ (.countParts chunks) => audit.add call (BitVec.ofNat program.bits chunks.length)
  | .spread _ call _ (.initializeBarrier _) => audit.assertUnused shared call
  | .spread _ call _ (.enqueueParts parts) => audit.offer call parts frames
  | .spread _ call _ (.resetBarrier _) => audit.assertUnused shared call
  | .spread _ call _ .initializeEmpty => audit.assertUnused shared call
  | .spread _ call _ (.callerCount _) => audit.add call 1
  | .spread _ _ _ .callerCompleting => audit.complete thread
  | .spread _ _ _ .stealCompleting => audit.complete thread
  | .spread _ call _ .finished => { audit with returned := Function.update audit.returned call true }
  | _ => audit

/-- What a failed bulk enqueue should leave: `initialize()` has only been called
on unused barriers, and nothing of the call remains in `work_items_`. -/
def AsItWas (audit : Audit Thread bits) (call : Nat) : Prop :=
  audit.reinitialized call = false ∧ audit.contribution call = 0

end Audit

variable [DecidableEq Shop] [DecidableEq Thread]

/-- The shops, with the observer. -/
def auditedSystem (pool : Pool program Thread) :
    System (Stacked Thread (Frame Shop program.bits) (Shared program × Audit Thread program.bits)) where
  initial := fun state => state = ⟨(Shared.fresh, Audit.blank), pool.initialStack⟩
  step := Stacked.Step (Noted (ShopStep pool) Audit.watch)

variable {pool : Pool program Thread}

theorem shopSystem_of_audited
    {state : Stacked Thread (Frame Shop program.bits) (Shared program × Audit Thread program.bits)}
    (reachable : (auditedSystem pool).Reachable state) : (shopSystem pool).Reachable state.unwatched := by
  apply reachable.simulates
  · rintro state rfl
    rfl
  · intro before after _ move
    exact move.unwatched

/-! ## What is known about a call -/

/-- The barrier of a call and its part of `work_items_`, while nobody else has
anything to do with them. -/
structure Booked (shared : Shared program) (audit : Audit Thread program.bits) (call counter contribution : Nat) :
    Prop where
  counter : (shared.barrier call).counter = (BitVec.ofNat program.bits counter).setWidth program.counterBits
  contribution : audit.contribution call = BitVec.ofNat program.bits contribution
  reserved : audit.dispatched call = false

/-- A refused bulk whose parts are still counted, besides `own` parts of the caller. -/
structure Unsettled {bits : Nat} (audit : Audit Thread bits) (call own : Nat) (parts : List Part) : Prop where
  refused : audit.refused call = some parts
  countable : Countable bits parts.length
  contribution : audit.contribution call = BitVec.ofNat bits (parts.length + own)
  reinitialized : audit.reinitialized call = true
  reserved : audit.dispatched call = false

/-- No bulk was refused, or it is still counted. -/
def Audit.Verdict {bits : Nat} (audit : Audit Thread bits) (call own : Nat) : Prop :=
  audit.refused call = none ∨ Exists fun parts => Unsettled audit call own parts

/-- A work that others may execute. -/
def Audit.Public {bits : Nat} (audit : Audit Thread bits) (owner : Option Nat) : Prop :=
  forall call, owner = some call -> audit.dispatched call = true

/-- What holds at each point of a call. -/
def SpreadPoint.Audited (shared : Shared program) (audit : Audit Thread program.bits) (thread : Thread) (call : Nat) :
    SpreadPoint program.bits -> Prop
  | .loadItems | .loadDivision _ => audit.refused call = none ∧ Booked shared audit call 0 0
  | .countParts chunks =>
      audit.refused call = none ∧ Countable program.bits chunks.length ∧ Booked shared audit call 0 0
  | .initializeBarrier chunks =>
      audit.refused call = none ∧ Countable program.bits chunks.length ∧ Booked shared audit call 0 chunks.length
  | .enqueueParts parts =>
      audit.refused call = none ∧ Countable program.bits parts.length ∧ (forall part, part ∈ parts -> part.call = call) ∧
        Booked shared audit call parts.length parts.length
  | .resetBarrier parts =>
      audit.refused call = some parts ∧ Countable program.bits parts.length ∧
        Booked shared audit call parts.length parts.length
  | .registerSlice _ _ registered _ _ | .countSlice _ _ registered _ _ =>
      audit.refused call = none ∧ forall part, part ∈ registered -> part.call = call
  | .notifyRoot _ _ | .initializeEmpty => audit.refused call = none
  | .callerCount part => part.call = call ∧ audit.Verdict call 0
  | .callerCompleting => audit.left thread = some call ∧ audit.Verdict call 1
  | .stealCompleting => audit.Public (audit.left thread) ∧ audit.Verdict call 0
  | _ => audit.Verdict call 0

/-- What holds of each frame of a thread. -/
def Frame.Audited (shared : Shared program) (audit : Audit Thread program.bits) (thread : Thread) :
    Frame Shop program.bits -> Prop
  | .spread _ call _ point => point.Audited shared audit thread call
  | .executing (.caller _ call _) work _ => work.owner = some call ∧ audit.Verdict call 1
  | .executing (.thief _ call _) work _ => audit.Public work.owner ∧ audit.Verdict call 0
  | .executing (.worker _ _ _) work _ => audit.Public work.owner
  | .worker _ _ (.completing _) => audit.Public (audit.left thread)
  | _ => True

/-! ## What the observer changes -/

section Notes

variable {bits : Nat} {audit audit' : Audit Thread bits} {call own own' : Nat} {parts : List Part}

omit [DecidableEq Thread] in
/-- A refused bulk stays unsettled, while the caller counts its own part and
completes it. -/
theorem Unsettled.moved (unsettled : Unsettled audit call own parts) (refused : audit'.refused call = audit.refused call)
    (contribution : audit'.contribution call + BitVec.ofNat bits own = audit.contribution call + BitVec.ofNat bits own')
    (reinitialized : audit'.reinitialized call = audit.reinitialized call)
    (reserved : audit'.dispatched call = audit.dispatched call) : Unsettled audit' call own' parts where
  refused := refused.trans unsettled.refused
  countable := unsettled.countable
  contribution := by
    rw [unsettled.contribution, BitVec.ofNat_add] at contribution
    rw [BitVec.ofNat_add]
    linear_combination contribution
  reinitialized := reinitialized.trans unsettled.reinitialized
  reserved := reserved.trans unsettled.reserved

omit [DecidableEq Thread] in
theorem Audit.Verdict.moved (verdict : audit.Verdict call own) (refused : audit'.refused call = audit.refused call)
    (contribution : audit'.contribution call + BitVec.ofNat bits own = audit.contribution call + BitVec.ofNat bits own')
    (reinitialized : audit'.reinitialized call = audit.reinitialized call)
    (reserved : audit'.dispatched call = audit.dispatched call) : audit'.Verdict call own' := by
  rcases verdict with none | ⟨parts, unsettled⟩
  · exact Or.inl (refused.trans none)
  · exact Or.inr ⟨parts, unsettled.moved refused contribution reinitialized reserved⟩

omit [DecidableEq Thread] in
@[simp] theorem Audit.add_self (audit : Audit Thread bits) (call : Nat) (items : BitVec bits) :
    (audit.add call items).contribution call = audit.contribution call + items :=
  Function.update_self _ _ _

omit [DecidableEq Thread] in
theorem Audit.add_of_ne (audit : Audit Thread bits) {call other : Nat} (different : other ≠ call) (items : BitVec bits) :
    (audit.add call items).contribution other = audit.contribution other :=
  Function.update_of_ne different _ _

omit [DecidableEq Thread] in
/-- Completing only changes a contribution. -/
theorem Audit.complete_eq (audit : Audit Thread bits) (thread : Thread) :
    Exists fun contribution => audit.complete thread = { audit with contribution := contribution } := by
  unfold Audit.complete
  cases audit.left thread with
  | none => exact ⟨audit.contribution, rfl⟩
  | some call => exact ⟨_, rfl⟩

omit [DecidableEq Shop] [DecidableEq Thread] in
theorem Audit.assertUnused_self (audit : Audit Thread program.bits) (shared : Shared program) (call : Nat) :
    (audit.assertUnused shared call).reinitialized call =
      (audit.reinitialized call || (shared.barrier call).counter != 0) :=
  Function.update_self _ _ _

omit [DecidableEq Shop] in
theorem Shared.barrier_onBarrier (shared : Shared program) (call : Nat)
    (operation : Barrier program.counterBits -> Barrier program.counterBits) :
    (shared.onBarrier call operation).barrier call = operation (shared.barrier call) :=
  Function.update_self _ _ _

omit [DecidableEq Thread] in
@[simp] theorem Audit.complete_refused (audit : Audit Thread bits) (thread : Thread) :
    (audit.complete thread).refused = audit.refused := by
  rcases audit.complete_eq thread with ⟨contribution, same⟩
  rw [same]

omit [DecidableEq Thread] in
@[simp] theorem Audit.complete_dispatched (audit : Audit Thread bits) (thread : Thread) :
    (audit.complete thread).dispatched = audit.dispatched := by
  rcases audit.complete_eq thread with ⟨contribution, same⟩
  rw [same]

omit [DecidableEq Thread] in
@[simp] theorem Audit.complete_reinitialized (audit : Audit Thread bits) (thread : Thread) :
    (audit.complete thread).reinitialized = audit.reinitialized := by
  rcases audit.complete_eq thread with ⟨contribution, same⟩
  rw [same]

omit [DecidableEq Thread] in
/-- Completing a part of another call leaves a contribution alone. -/
theorem Audit.complete_of_ne (audit : Audit Thread bits) {thread : Thread} {call : Nat}
    (different : audit.left thread ≠ some call) :
    (audit.complete thread).contribution call = audit.contribution call := by
  unfold Audit.complete
  cases leftIs : audit.left thread with
  | none => rfl
  | some other =>
      apply audit.add_of_ne
      rintro rfl
      exact different leftIs

end Notes

/-! ## One step of a frame -/

section Steps

variable {callStack : Thread -> List (Frame Shop program.bits)} {thread : Thread} {shared shared' : Shared program}
  {frame : Frame Shop program.bits} {frames : List (Frame Shop program.bits)} {audit : Audit Thread program.bits}

/-- Every frame that a step leaves is audited, by what the observer then knows. -/
def KeepsAudit (thread : Thread) (shared : Shared program) (audit : Audit Thread program.bits)
    (frame : Frame Shop program.bits) (shared' : Shared program) (frames : List (Frame Shop program.bits)) : Prop :=
  forall next, next ∈ frames -> next.Audited shared' (audit.watch thread shared frame frames) thread

omit [DecidableEq Shop] in
theorem KeepsAudit.single {next : Frame Shop program.bits}
    (audited : next.Audited shared' (audit.watch thread shared frame [next]) thread) :
    KeepsAudit thread shared audit frame shared' [next] := by
  intro other member
  rw [List.mem_singleton.mp member]
  exact audited

/-- What is in the queue is for everybody. -/
def QueueAudited (shared : Shared program) (audit : Audit Thread program.bits) : Prop :=
  forall entry, entry ∈ shared.queue -> audit.Public entry.work.owner

omit [DecidableEq Shop] [DecidableEq Thread] in
theorem QueueAudited.taken {front back : List (Entry Shop)} {entry : Entry Shop} (queue : QueueAudited shared audit)
    (place : shared.queue = front ++ entry :: back) : audit.Public entry.work.owner :=
  queue entry (by rw [place]; exact List.mem_append_right _ List.mem_cons_self)

theorem WorkerStep.audited (move : WorkerStep program shared frame shared' frames)
    (queue : QueueAudited shared audit) : KeepsAudit thread shared audit frame shared' frames := by
  cases move with
  | takeOwn shop index front entry back place | takeAny shop index front entry back place =>
      exact .single (queue.taken place)
  | complete shop index own => cases own <;> exact .single trivial
  | _ => exact .single trivial

omit [DecidableEq Shop] in
theorem ExecutionStep.audited (move : ExecutionStep program shared frame shared' frames)
    (now : frame.Audited shared audit thread) : KeepsAudit thread shared audit frame shared' frames := by
  cases move with
  | invoke host work | finish host work => cases host <;> exact .single now
  | arrive host part =>
      apply KeepsAudit.single
      have leftNow : (audit.watch thread shared (.executing host (.part part) .leaving) [host.resume]).left thread =
          some part.call := Function.update_self _ _ _
      cases host with
      | worker shop index own =>
          intro call owner
          exact now call (leftNow.symm.trans owner)
      | caller shop call locals => exact ⟨leftNow.trans now.1, now.2.moved rfl rfl rfl rfl⟩
      | thief shop call locals =>
          refine ⟨?_, now.2.moved rfl rfl rfl rfl⟩
          intro other owner
          exact now.1 other (leftNow.symm.trans owner)
  | discount host serial =>
      apply KeepsAudit.single
      have leftNow : (audit.watch thread shared (.executing host (.item serial) .leaving) [host.resume]).left thread =
          none := Function.update_self _ _ _
      cases host with
      | worker shop index own =>
          intro call owner
          cases leftNow.symm.trans owner
      | caller shop call locals => cases now.1
      | thief shop call locals =>
          refine ⟨?_, now.2.moved rfl rfl rfl rfl⟩
          intro other owner
          cases leftNow.symm.trans owner

omit [DecidableEq Shop] [DecidableEq Thread] in
/-- After the dispatch. -/
theorem SpreadPoint.audited_toCaller {call : Nat} {locals : SpreadLocals} (verdict : audit.Verdict call 0) :
    (toCaller locals : SpreadPoint program.bits).Audited shared audit thread call := by
  unfold SpreadPoint.toCaller
  split <;> exact verdict

omit [DecidableEq Shop] [DecidableEq Thread] in
theorem SpreadPoint.audited_toJoin {call : Nat} {locals : SpreadLocals} (verdict : audit.Verdict call 0) :
    (toJoin locals : SpreadPoint program.bits).Audited shared audit thread call := by
  unfold SpreadPoint.toJoin
  split <;> exact verdict

omit [DecidableEq Shop] [DecidableEq Thread] in
theorem SpreadPoint.audited_nextDispatch {call : Nat} {locals : SpreadLocals} {first : Bool}
    {rest : List (Dispatch program.bits)} (none : audit.refused call = none) :
    (nextDispatch locals first rest).Audited shared audit thread call := by
  cases rest with
  | nil => exact audited_toCaller (Or.inl none)
  | cons dispatch rest => exact ⟨none, nofun⟩

omit [DecidableEq Shop] [DecidableEq Thread] in
theorem SpreadPoint.audited_startPlan {call : Nat} {locals : SpreadLocals} {plan : Plan program.bits}
    (none : audit.refused call = none) (booked : Booked shared audit call 0 0)
    (few : forall queueAndWait callerEnd chunks, plan = .toQueue queueAndWait callerEnd chunks ->
      chunks.length < 2 ^ program.bits) :
    (startPlan program locals plan).2.Audited shared audit thread call := by
  cases plan with
  | nothing | inCaller iterations => exact Or.inl none
  | toWorkers callerEnd sliceDiv dispatches => exact audited_nextDispatch none
  | toQueue queueAndWait callerEnd chunks =>
      simp only [startPlan]
      by_cases empty : chunks = []
      · rw [if_pos empty]
        exact none
      · rw [if_neg empty]
        exact ⟨none, ⟨List.length_pos_iff.mpr empty, few queueAndWait callerEnd chunks rfl⟩, booked⟩

theorem SpreadStep.audited {recursive : Bool} (move : SpreadStep program recursive shared frame shared' frames)
    (queue : QueueAudited shared audit) (now : frame.Audited shared audit thread) :
    KeepsAudit thread shared audit frame shared' frames := by
  cases move with
  | loadItems shop call locals => exact .single now
  | plan shop call locals itemsInShop plan exact_ planned =>
      apply KeepsAudit.single
      refine SpreadPoint.audited_startPlan now.1 ?_ (spreadWork_count _ _ _ plan exact_ planned)
      refine ⟨?_, now.2.contribution, now.2.reserved⟩
      rw [Shared.barrier_onBarrier]
      exact now.2.counter
  | registerSlice shop call locals worker first registered chunk slices rest =>
      apply KeepsAudit.single
      refine ⟨now.1, ?_⟩
      intro part member
      rcases List.mem_append.mp member with earlier | fresh
      · exact now.2 part earlier
      · rw [List.mem_singleton.mp fresh]
  | countSlice shop call locals worker first registered slices rest => exact .single now
  | enqueueSlices shop call locals worker first registered rest
  | refuseSlices shop call locals worker first registered rest =>
      apply KeepsAudit.single
      cases first with
      | true => exact now.1
      | false => exact SpreadPoint.audited_nextDispatch now.1
  | notifyRoot shop call locals worker rest => exact .single (SpreadPoint.audited_nextDispatch now)
  | countParts shop call locals chunks =>
      apply KeepsAudit.single
      refine ⟨now.1, now.2.1, now.2.2.counter, ?_, now.2.2.reserved⟩
      change (audit.add call _).contribution call = _
      rw [Audit.add_self, now.2.2.contribution, BitVec.zero_add]
  | initializeBarrier shop call locals chunks =>
      apply KeepsAudit.single
      have length := partsOf_length call shared.created.length chunks
      refine ⟨now.1, by rw [length]; exact now.2.1, partsOf_call _ _ _, ?_, ?_, now.2.2.reserved⟩
      · rw [length]
        exact congrArg Barrier.counter (shared.barrier_onBarrier call
          (fun barrier => barrier.initializeWith (BitVec.ofNat program.bits chunks.length)))
      · rw [length]
        exact now.2.2.contribution
  | enqueueParts shop call locals parts => exact .single (Or.inl now.1)
  | refuseParts shop call locals parts =>
      apply KeepsAudit.single
      exact ⟨Function.update_self _ _ _, now.2.1, now.2.2.2.counter, now.2.2.2.contribution, now.2.2.2.reserved⟩
  | notifyAll shop call locals worker => exact .single now
  | notifiedAll shop call locals worker => exact .single (SpreadPoint.audited_toCaller now)
  | resetBarrier shop call locals parts =>
      apply KeepsAudit.single
      apply SpreadPoint.audited_toCaller
      refine Or.inr ⟨parts, now.1, now.2.1, now.2.2.contribution, ?_, now.2.2.reserved⟩
      apply (audit.assertUnused_self shared call).trans
      rw [now.2.2.counter, bne_iff_ne.mpr now.2.1.setWidth_ne_zero, Bool.or_true]
  | initializeEmpty shop call locals => exact .single (SpreadPoint.audited_toCaller (Or.inl now))
  | callerRegister shop call locals => exact .single ⟨rfl, now⟩
  | callerCount shop call locals part =>
      apply KeepsAudit.single
      refine ⟨congrArg some now.1, now.2.moved rfl ?_ rfl rfl⟩
      change (audit.add call 1).contribution call + _ = _
      rw [Audit.add_self, BitVec.add_zero]
      rfl
  | callerComplete shop call locals =>
      apply KeepsAudit.single
      have verdict : (audit.complete thread).Verdict call 0 := by
        apply now.2.moved (by simp) _ (by simp) (by simp)
        have completed : audit.complete thread = audit.add call (-1) := by rw [Audit.complete, now.1]
        rw [completed, Audit.add_self, BitVec.add_assoc]
        exact congrArg (audit.contribution call + ·) (BitVec.add_left_neg _)
      cases locals.immediate <;> exact verdict
  | stealBegin shop call locals => exact .single now
  | stealSkip shop call locals | stealEmpty shop call locals => exact .single (SpreadPoint.audited_toJoin now)
  | steal shop call locals front entry back place => exact .single ⟨queue.taken place, now⟩
  | stealComplete shop call locals =>
      apply KeepsAudit.single
      change (audit.complete thread).Verdict call 0
      rcases now.2 with none | ⟨parts, unsettled⟩
      · exact Or.inl ((congrFun (audit.complete_refused thread) call).trans none)
      · refine Or.inr ⟨parts, unsettled.moved (by simp) ?_ (by simp) (by simp)⟩
        have other : audit.left thread ≠ some call := by
          intro own
          have taken := now.1 call own
          rw [unsettled.reserved] at taken
          cases taken
        rw [audit.complete_of_ne other]
  | spinOver shop call locals isStalled => cases isStalled <;> exact .single now
  | _ => exact .single now

/-- A call that has not begun. -/
structure Audit.Unknown (audit : Audit Thread program.bits) (call : Nat) : Prop where
  refused : audit.refused call = none
  contribution : audit.contribution call = 0
  dispatched : audit.dispatched call = false
  returned : audit.returned call = false

theorem CallStep.audited (move : CallStep pool callStack thread shared frame shared' frames)
    (unknown : audit.Unknown shared.nextCall) (now : frame.Audited shared audit thread) :
    KeepsAudit thread shared audit frame shared' frames := by
  have same : frame.mayCall = true -> audit.watch thread shared frame frames = audit ∧
      frame.Audited shared' audit thread := by
    intro mayCall
    cases frame with
    | outside => exact ⟨rfl, trivial⟩
    | executing host work phase =>
        cases phase with
        | running => cases host <;> exact ⟨rfl, now⟩
        | fetched | leaving => cases mayCall
    | worker | fire | spread | stop => cases mayCall
  cases move with
  | fire frame shop mayCall | stop frame shop mayCall =>
      intro next member
      rw [(same mayCall).1]
      rcases List.mem_cons.mp member with rfl | below
      · trivial
      · rw [List.mem_singleton.mp below]
        exact (same mayCall).2
  | spread frame shop iterations parallelizable mayCall =>
      intro next member
      rw [(same mayCall).1]
      rcases List.mem_cons.mp member with rfl | below
      · by_cases none : iterations = 0
        · rw [if_pos none]
          exact Or.inl unknown.refused
        · rw [if_neg none]
          refine ⟨unknown.refused, ?_, unknown.contribution, unknown.dispatched⟩
          exact congrArg Barrier.counter (shared.barrier_onBarrier shared.nextCall
            (fun _ => Barrier.construct (0 : BitVec program.bits)))
      · rw [List.mem_singleton.mp below]
        exact (same mayCall).2
  | fired | spreadReturn | stopped => exact nofun

theorem ShopStep.audited (move : ShopStep pool callStack thread shared frame shared' frames)
    (queue : QueueAudited shared audit) (unknown : audit.Unknown shared.nextCall)
    (now : frame.Audited shared audit thread) : KeepsAudit thread shared audit frame shared' frames := by
  cases move with
  | worker move => exact move.audited queue
  | execution move => exact move.audited now
  | fire move => cases move <;> exact .single trivial
  | spread move => exact move.audited queue now
  | stop move => cases move <;> exact .single trivial
  | call move => exact move.audited unknown now

/-! ## The other frames -/

/-- What the observer knows of a call from the steps of its own frame. -/
structure Audit.Agrees (audit audit' : Audit Thread program.bits) (call : Nat) : Prop where
  refused : audit'.refused call = audit.refused call
  reinitialized : audit'.reinitialized call = audit.reinitialized call
  dispatched : audit'.dispatched call = audit.dispatched call
  returned : audit'.returned call = audit.returned call

omit [DecidableEq Shop] [DecidableEq Thread] in
theorem Audit.agrees_complete (audit : Audit Thread program.bits) (thread : Thread) (call : Nat) :
    audit.Agrees (audit.complete thread) call := by
  rcases audit.complete_eq thread with ⟨contribution, same⟩
  rw [same]
  exact ⟨rfl, rfl, rfl, rfl⟩

omit [DecidableEq Shop] [DecidableEq Thread] in
theorem Audit.agrees_offer (audit : Audit Thread program.bits) {call other : Nat} (different : call ≠ other)
    (parts : List Part) : audit.Agrees (audit.offer other parts frames) call := by
  unfold Audit.offer
  split
  · exact ⟨Function.update_of_ne different _ _, rfl, rfl, rfl⟩
  · exact ⟨rfl, rfl, Function.update_of_ne different _ _, rfl⟩

omit [DecidableEq Shop] in
/-- A step of another frame is none of the call's. -/
theorem Audit.agrees_watch {call : Nat} (other : frame.call ≠ some call) :
    audit.Agrees (audit.watch thread shared frame frames) call := by
  cases frame with
  | outside | fire | stop => exact ⟨rfl, rfl, rfl, rfl⟩
  | worker shop index point =>
      cases point with
      | completing => exact audit.agrees_complete thread call
      | _ => exact ⟨rfl, rfl, rfl, rfl⟩
  | executing host work phase => cases phase <;> exact ⟨rfl, rfl, rfl, rfl⟩
  | spread shop own locals point =>
      have different : call ≠ own := fun same => other (congrArg some same.symm)
      cases point with
      | registerSlice => exact ⟨rfl, rfl, Function.update_of_ne different _ _, rfl⟩
      | initializeBarrier | resetBarrier | initializeEmpty =>
          exact ⟨rfl, Function.update_of_ne different _ _, rfl, rfl⟩
      | enqueueParts parts => exact audit.agrees_offer different parts
      | callerCompleting | stealCompleting => exact audit.agrees_complete thread call
      | finished => exact ⟨rfl, rfl, rfl, Function.update_of_ne different _ _⟩
      | _ => exact ⟨rfl, rfl, rfl, rfl⟩

omit [DecidableEq Shop] in
/-- Nobody else adds anything for a call, and nobody completes a part of a call
that has not been dispatched. -/
theorem Audit.contribution_watch {call : Nat} (now : frame.Audited shared audit thread)
    (other : frame.call ≠ some call) (reserved : audit.dispatched call = false) :
    (audit.watch thread shared frame frames).contribution call = audit.contribution call := by
  have elsewhere : audit.Public (audit.left thread) ->
      (audit.complete thread).contribution call = audit.contribution call := by
    intro everybody
    apply audit.complete_of_ne
    intro own
    rw [everybody call own] at reserved
    cases reserved
  cases frame with
  | outside | fire | stop => rfl
  | worker shop index point =>
      cases point with
      | completing => exact elsewhere now
      | _ => rfl
  | executing host work phase => cases phase <;> rfl
  | spread shop own locals point =>
      have different : call ≠ own := fun same => other (congrArg some same.symm)
      cases point with
      | countSlice | countParts | callerCount => exact audit.add_of_ne different _
      | enqueueParts parts =>
          change (audit.offer own parts frames).contribution call = _
          unfold Audit.offer
          split <;> rfl
      | callerCompleting =>
          apply audit.complete_of_ne
          rw [now.1]
          exact fun same => different (Option.some.inj same).symm
      | stealCompleting => exact elsewhere now.1
      | _ => rfl

omit [DecidableEq Thread] in
/-- Nobody else uses the barrier of a call that has not been dispatched. -/
theorem ShopStep.barrier_eq (move : ShopStep pool callStack thread shared frame shared' frames) {call : Nat}
    (now : frame.Audited shared audit thread) (other : frame.call ≠ some call) (begun : call ≠ shared.nextCall)
    (reserved : audit.dispatched call = false) : shared'.barrier call = shared.barrier call := by
  cases move with
  | worker move => cases move <;> rfl
  | execution move =>
      cases move with
      | arrive host part =>
          have different : call ≠ part.call := by
            intro same
            have everybody : audit.Public (some part.call) -> False := by
              intro everybody
              rw [everybody call (congrArg some same.symm)] at reserved
              cases reserved
            cases host with
            | worker => exact everybody now
            | caller shop own locals => exact other (now.1.symm.trans (congrArg some same.symm))
            | thief => exact everybody now.1
          exact Function.update_of_ne different _ _
      | _ => rfl
  | fire move => cases move <;> rfl
  | spread move =>
      cases move with
      | plan | registerSlice | initializeBarrier | resetBarrier | initializeEmpty | callerRegister =>
          exact Function.update_of_ne (fun same => other (congrArg some same.symm)) _ _
      | _ => rfl
  | stop move => cases move <;> rfl
  | call move =>
      cases move with
      | spread => exact Function.update_of_ne begun _ _
      | _ => rfl

omit [DecidableEq Shop] in
/-- What has been dispatched stays so. -/
theorem Audit.dispatched_watch {call : Nat} (dispatched : audit.dispatched call = true) :
    (audit.watch thread shared frame frames).dispatched call = true := by
  have sets : forall own, (audit.dispatch own).dispatched call = true := by
    intro own
    by_cases same : call = own
    · rw [same]
      exact Function.update_self _ _ _
    · exact (Function.update_of_ne same _ _).trans dispatched
  cases frame with
  | outside | fire | stop => exact dispatched
  | worker shop index point =>
      cases point with
      | completing => exact (congrFun (audit.complete_dispatched thread) call).trans dispatched
      | _ => exact dispatched
  | executing host work phase => cases phase <;> exact dispatched
  | spread shop own locals point =>
      cases point with
      | registerSlice => exact sets own
      | enqueueParts parts =>
          change (audit.offer own parts frames).dispatched call = true
          unfold Audit.offer
          split
          · exact dispatched
          · exact sets own
      | callerCompleting | stealCompleting => exact (congrFun (audit.complete_dispatched thread) call).trans dispatched
      | _ => exact dispatched

omit [DecidableEq Shop] in
theorem Audit.Public.watch {owner : Option Nat} (everybody : audit.Public owner) :
    (audit.watch thread shared frame frames).Public owner :=
  fun call own => Audit.dispatched_watch (everybody call own)

omit [DecidableEq Shop] [DecidableEq Thread] in
@[simp] theorem Audit.complete_left (audit : Audit Thread program.bits) (thread : Thread) :
    (audit.complete thread).left = audit.left := by
  rcases audit.complete_eq thread with ⟨contribution, same⟩
  rw [same]

omit [DecidableEq Shop] in
/-- What a thread has left last is changed by its own steps. -/
theorem Audit.left_watch {other : Thread} (different : other ≠ thread) :
    (audit.watch thread shared frame frames).left other = audit.left other := by
  cases frame with
  | outside | fire | stop => rfl
  | worker shop index point =>
      cases point with
      | completing => exact congrFun (audit.complete_left thread) other
      | _ => rfl
  | executing host work phase =>
      cases phase with
      | leaving => exact Function.update_of_ne different _ _
      | _ => rfl
  | spread shop own locals point =>
      cases point with
      | enqueueParts parts =>
          change (audit.offer own parts frames).left other = _
          unfold Audit.offer
          split <;> rfl
      | callerCompleting | stealCompleting => exact congrFun (audit.complete_left thread) other
      | _ => rfl

omit [DecidableEq Shop] [DecidableEq Thread] in
theorem Audit.Verdict.stable {audit' : Audit Thread program.bits} {call own : Nat} (verdict : audit.Verdict call own)
    (agrees : audit.Agrees audit' call)
    (contribution : audit.dispatched call = false -> audit'.contribution call = audit.contribution call) :
    audit'.Verdict call own := by
  rcases verdict with none | ⟨parts, unsettled⟩
  · exact Or.inl (agrees.refused.trans none)
  · refine Or.inr ⟨parts, unsettled.moved agrees.refused ?_ agrees.reinitialized agrees.dispatched⟩
    rw [contribution unsettled.reserved]

/-- What is known of a frame survives the steps of other frames. -/
theorem Frame.Audited.stable {other : Thread} {below : Frame Shop program.bits}
    (audited : below.Audited shared audit other)
    (move : ShopStep pool callStack thread shared frame shared' frames) (now : frame.Audited shared audit thread)
    (apart : forall call, below.call = some call -> frame.call ≠ some call ∧ call ≠ shared.nextCall)
    (waits : other ≠ thread ∨ below.mayCall = true) :
    below.Audited shared' (audit.watch thread shared frame frames) other := by
  have verdicts : forall call own, below.call = some call -> audit.Verdict call own ->
      (audit.watch thread shared frame frames).Verdict call own := by
    intro call own belongs verdict
    have another := (apart call belongs).1
    exact verdict.stable (Audit.agrees_watch another) (Audit.contribution_watch now another)
  have refusals : forall call, below.call = some call ->
      (audit.watch thread shared frame frames).refused call = audit.refused call :=
    fun call belongs => (Audit.agrees_watch (apart call belongs).1).refused
  have books : forall call counter contribution, below.call = some call ->
      Booked shared audit call counter contribution ->
      Booked shared' (audit.watch thread shared frame frames) call counter contribution := by
    intro call counter contribution belongs booked
    have another := apart call belongs
    refine ⟨?_, ?_, ?_⟩
    · rw [move.barrier_eq now another.1 another.2 booked.reserved]
      exact booked.counter
    · exact (Audit.contribution_watch now another.1 booked.reserved).trans booked.contribution
    · exact (Audit.agrees_watch another.1).dispatched.trans booked.reserved
  have lefts : below.mayCall = false ->
      (audit.watch thread shared frame frames).left other = audit.left other := by
    intro busy
    apply Audit.left_watch
    rcases waits with different | mayCall
    · exact different
    · rw [busy] at mayCall
      cases mayCall
  cases below with
  | outside | fire | stop => trivial
  | worker shop index point =>
      cases point with
      | completing =>
          change Audit.Public _ _
          rw [lefts rfl]
          exact Audit.Public.watch audited
      | _ => trivial
  | executing host work phase =>
      cases host with
      | worker => exact Audit.Public.watch audited
      | caller shop call locals => exact ⟨audited.1, verdicts call 1 rfl audited.2⟩
      | thief shop call locals => exact ⟨Audit.Public.watch audited.1, verdicts call 0 rfl audited.2⟩
  | spread shop call locals point =>
      cases point with
      | loadItems | loadDivision => exact ⟨(refusals call rfl).trans audited.1, books call _ _ rfl audited.2⟩
      | countParts | initializeBarrier | resetBarrier =>
          exact ⟨(refusals call rfl).trans audited.1, audited.2.1, books call _ _ rfl audited.2.2⟩
      | enqueueParts =>
          exact ⟨(refusals call rfl).trans audited.1, audited.2.1, audited.2.2.1, books call _ _ rfl audited.2.2.2⟩
      | registerSlice | countSlice => exact ⟨(refusals call rfl).trans audited.1, audited.2⟩
      | notifyRoot | initializeEmpty => exact (refusals call rfl).trans audited
      | callerCount => exact ⟨audited.1, verdicts call 0 rfl audited.2⟩
      | callerCompleting => exact ⟨(lefts rfl).trans audited.1, verdicts call 1 rfl audited.2⟩
      | stealCompleting =>
          refine ⟨?_, verdicts call 0 rfl audited.2⟩
          rw [lefts rfl]
          exact Audit.Public.watch audited.1
      | _ => exact verdicts call 0 rfl audited

omit [DecidableEq Shop] in
/-- A call has returned from its last point. -/
theorem Audit.returned_watch {call : Nat}
    (returned : (audit.watch thread shared frame frames).returned call = true) :
    audit.returned call = true ∨ Exists fun shop => Exists fun locals => frame = .spread shop call locals .finished := by
  by_cases own : frame.call = some call
  · cases frame with
    | outside | fire | stop | worker => cases own
    | executing host work phase => cases phase <;> exact Or.inl returned
    | spread shop call' locals point =>
        cases own
        cases point with
        | enqueueParts parts =>
            change (audit.offer call parts frames).returned call = true at returned
            unfold Audit.offer at returned
            split at returned <;> exact Or.inl returned
        | callerCompleting | stealCompleting =>
            exact Or.inl ((audit.agrees_complete thread call).returned.symm.trans returned)
        | finished => exact Or.inr ⟨shop, locals, rfl⟩
        | _ => exact Or.inl returned
  · exact Or.inl ((Audit.agrees_watch own).returned.symm.trans returned)

omit [DecidableEq Thread] in
theorem ShopStep.frames_of_finished {shop : Shop} {call : Nat} {locals : SpreadLocals}
    (move : ShopStep pool callStack thread shared (.spread shop call locals .finished) shared' frames) :
    frames = [] := by
  cases move with
  | worker move | execution move | fire move | spread move | stop move => cases move
  | call move =>
      cases move with
      | fire _ _ mayCall | spread _ _ _ _ mayCall | stop _ _ mayCall => cases mayCall
      | spreadReturn => rfl

/-! ## The queue -/

omit [DecidableEq Shop] in
theorem QueueAudited.kept (queue : QueueAudited shared audit)
    (fewer : forall entry, entry ∈ shared'.queue -> entry ∈ shared.queue) :
    QueueAudited shared' (audit.watch thread shared frame frames) :=
  fun entry member => (queue entry (fewer entry member)).watch

omit [DecidableEq Shop] in
/-- The parts of a call are queued when it dispatches them. -/
theorem QueueAudited.grown (queue : QueueAudited shared audit) {call : Nat} {entries : List (Entry Shop)}
    (grows : shared'.queue = shared.queue ++ entries)
    (new : forall entry, entry ∈ entries -> entry.work.owner = none ∨ entry.work.owner = some call)
    (dispatches : (audit.watch thread shared frame frames).dispatched call = true) :
    QueueAudited shared' (audit.watch thread shared frame frames) := by
  intro entry member
  rw [grows] at member
  rcases List.mem_append.mp member with earlier | fresh
  · exact (queue entry earlier).watch
  · intro other own
    rcases new entry fresh with none | same
    · rw [none] at own
      cases own
    · rw [same] at own
      rw [← Option.some.inj own]
      exact dispatches

omit [DecidableEq Shop] [DecidableEq Thread] in
theorem owner_of_parts {call : Nat} {shop : Shop} {token : Option Nat} {parts : List Part}
    (own : forall part, part ∈ parts -> part.call = call) (entry : Entry Shop)
    (member : entry ∈ parts.map (fun part => (⟨shop, token, .part part⟩ : Entry Shop))) :
    entry.work.owner = none ∨ entry.work.owner = some call := by
  rcases List.mem_map.mp member with ⟨part, queued, rfl⟩
  exact Or.inr (congrArg some (own part queued))

theorem ShopStep.queueAudited (move : ShopStep pool callStack thread shared frame shared' frames)
    (queue : QueueAudited shared audit) (now : frame.Audited shared audit thread) :
    QueueAudited shared' (audit.watch thread shared frame frames) := by
  have taken : forall front entry back, shared.queue = front ++ entry :: back -> shared'.queue = front ++ back ->
      QueueAudited shared' (audit.watch thread shared frame frames) := by
    intro front entry back before after
    apply queue.kept
    intro other member
    rw [after] at member
    rw [before]
    rcases List.mem_append.mp member with earlier | later
    · exact List.mem_append_left _ earlier
    · exact List.mem_append_right _ (List.mem_cons_of_mem _ later)
  cases move with
  | worker move =>
      cases move with
      | takeOwn shop index front entry back place | takeAny shop index front entry back place =>
          exact taken front entry back place rfl
      | _ => exact queue.kept (fun _ member => member)
  | execution move => cases move <;> exact queue.kept (fun _ member => member)
  | fire move =>
      cases move with
      | enqueue shop serial target =>
          intro entry member
          rcases List.mem_append.mp member with earlier | new
          · exact queue entry earlier
          · rw [List.mem_singleton.mp new]
            exact nofun
      | _ => exact queue.kept (fun _ member => member)
  | spread move =>
      cases move with
      | enqueueSlices shop call locals worker first registered rest =>
          exact queue.grown rfl (owner_of_parts now.2) (Function.update_self _ _ _)
      | enqueueParts shop call locals parts =>
          exact queue.grown rfl (owner_of_parts now.2.2.1) (Function.update_self _ _ _)
      | steal shop call locals front entry back place => exact taken front entry back place rfl
      | _ => exact queue.kept (fun _ member => member)
  | stop move => cases move <;> exact queue.kept (fun _ member => member)
  | call move => cases move <;> exact queue.kept (fun _ member => member)

end Steps

/-! ## Whole runs -/

section Runs

variable [Fintype Thread]
  {state before after : Stacked Thread (Frame Shop program.bits) (Shared program × Audit Thread program.bits)}

/-- What the observer can rely on. -/
structure WellAudited
    (state : Stacked Thread (Frame Shop program.bits) (Shared program × Audit Thread program.bits)) : Prop where
  frames : forall thread frame, frame ∈ state.callStack thread ->
    frame.Audited state.shared.1 state.shared.2 thread
  queue : QueueAudited state.shared.1 state.shared.2
  unknown : forall call, state.shared.1.nextCall ≤ call -> state.shared.2.Unknown call
  gone : forall thread frame, frame ∈ state.callStack thread -> forall call, frame.call = some call ->
    state.shared.2.returned call = false
  returned : forall call, state.shared.2.returned call = true -> state.shared.2.Verdict call 0

/-- A call that has not begun has no frame. -/
theorem call_ne_of_unused (reachable : (auditedSystem pool).Reachable before) {thread : Thread}
    {frame : Frame Shop program.bits} (member : frame ∈ before.callStack thread) {call : Nat}
    (unused : before.shared.1.nextCall ≤ call) : frame.call ≠ some call := by
  intro own
  exact absurd (call_lt_nextCall (shopSystem_of_audited reachable) member own) (Nat.not_lt_of_le unused)

theorem frames_audited (reachable : (auditedSystem pool).Reachable before) (audited : WellAudited before)
    (move : (auditedSystem pool).step before after) (thread : Thread) (frame : Frame Shop program.bits)
    (member : frame ∈ after.callStack thread) : frame.Audited after.shared.1 after.shared.2 thread := by
  have earlier := shopSystem_of_audited reachable
  revert thread frame
  apply frames_step move (fun state thread frame => frame.Audited state.shared.1 state.shared.2 thread) audited.frames
  · rintro thread top rest ⟨shared, audit⟩ frames place ⟨localStep, rfl⟩ rfl now
    exact localStep.audited audited.queue (audited.unknown _ (Nat.le_refl _)) now
  · rintro thread top rest ⟨shared, audit⟩ frames place ⟨localStep, rfl⟩ rfl other frame elsewhere knows
    have onTop : top ∈ before.callStack thread := by rw [place]; exact List.mem_cons_self
    apply knows.stable localStep (audited.frames thread top onTop)
    · intro call own
      have begun := call_lt_nextCall earlier (mem_of_elsewhere place elsewhere) own
      exact ⟨call_ne_of_elsewhere earlier place elsewhere own, Nat.ne_of_lt begun⟩
    · rcases elsewhere with ⟨rfl, below⟩ | ⟨different, _⟩
      · right
        apply suspended earlier other
        change frame ∈ (before.callStack other).tail
        rw [place]
        exact below
      · exact Or.inl different

theorem wellAudited_step (reachable : (auditedSystem pool).Reachable before) (audited : WellAudited before)
    (move : (auditedSystem pool).step before after) : WellAudited after := by
  have framesAfter := frames_audited reachable audited move
  cases move with
  | top thread top rest watched frames place localStep =>
      obtain ⟨shared, audit⟩ := watched
      obtain ⟨localStep, rfl⟩ := localStep
      have onTop : top ∈ before.callStack thread := by rw [place]; exact List.mem_cons_self
      have now := audited.frames thread top onTop
      refine ⟨framesAfter, localStep.queueAudited audited.queue now, ?_, ?_, ?_⟩
      · intro call unused
        have unusedBefore := Nat.le_trans localStep.nextCall_le unused
        have unknown := audited.unknown call unusedBefore
        have other := call_ne_of_unused reachable onTop unusedBefore
        have agrees : before.shared.2.Agrees (before.shared.2.watch thread before.shared.1 top frames) call :=
          Audit.agrees_watch other
        exact ⟨agrees.refused.trans unknown.refused,
          (Audit.contribution_watch now other unknown.dispatched).trans unknown.contribution,
          agrees.dispatched.trans unknown.dispatched, agrees.returned.trans unknown.returned⟩
      · intro other frame member call own
        apply Bool.eq_false_of_not_eq_true
        intro returned
        have lasts : forall thread frame, frame ∈ before.callStack thread -> frame.call = some call ->
            Exists fun shop => Exists fun locals => top = .spread shop call locals .finished := by
          intro thread frame present belongs
          rcases Audit.returned_watch returned with past | finished
          · rw [audited.gone thread frame present call belongs] at past
            cases past
          · exact finished
        rcases mem_replaceTop place member with ⟨rfl, new⟩ | elsewhere
        · rcases localStep.frames_cases with rfl | ⟨next, rfl, same⟩ | ⟨called, rfl, _, fresh⟩
          · cases new
          · rw [List.mem_singleton.mp new] at own
            rcases lasts other top onTop (same.symm.trans own) with ⟨shop, locals, rfl⟩
            cases localStep.frames_of_finished
          · rcases List.mem_cons.mp new with rfl | below
            · rcases fresh with none | beginning
              · rw [none] at own
                cases own
              · rw [beginning] at own
                have unused := Nat.le_of_eq (Option.some.inj own)
                rcases Audit.returned_watch returned with past | ⟨shop, locals, rfl⟩
                · rw [(audited.unknown call unused).returned] at past
                  cases past
                · exact call_ne_of_unused reachable onTop unused rfl
            · rw [List.mem_singleton.mp below] at own
              rcases lasts other top onTop own with ⟨shop, locals, rfl⟩
              cases localStep.frames_of_finished
        · rcases lasts other frame (mem_of_elsewhere place elsewhere) own with ⟨shop, locals, rfl⟩
          exact call_ne_of_elsewhere (shopSystem_of_audited reachable) place elsewhere own rfl
      · intro call returned
        rcases Audit.returned_watch returned with past | ⟨shop, locals, rfl⟩
        · have other : top.call ≠ some call := by
            intro own
            rw [audited.gone thread top onTop call own] at past
            cases past
          exact (audited.returned call past).stable (Audit.agrees_watch other) (Audit.contribution_watch now other)
        · exact Audit.Verdict.moved now rfl rfl rfl rfl

theorem wellAudited (reachable : (auditedSystem pool).Reachable state) : WellAudited state := by
  apply reachable.invariant
  · rintro state rfl
    refine ⟨?_, nofun, fun _ _ => ⟨rfl, rfl, rfl, rfl⟩, ?_, nofun⟩
    · intro thread frame member
      rcases mem_initialStack member with rfl | ⟨shop, index, _, rfl⟩ <;> trivial
    · intro thread frame member call own
      rfl
  · intro before after earlier audited move
    exact wellAudited_step earlier audited move

end Runs

/-! ## A run -/

theorem advance_audited
    {state : Stacked Thread (Frame Shop program.bits) (Shared program × Audit Thread program.bits)}
    (reachable : (auditedSystem pool).Reachable state) (thread : Thread) {frame : Frame Shop program.bits}
    {rest frames : List (Frame Shop program.bits)} {shared : Shared program}
    (place : state.callStack thread = frame :: rest)
    (move : ShopStep pool state.callStack thread state.shared.1 frame shared frames) :
    (auditedSystem pool).Reachable (state.replaceTop thread
      (shared, state.shared.2.watch thread state.shared.1 frame frames) (frames ++ rest)) :=
  .step reachable (.top thread frame rest _ frames place ⟨move, rfl⟩)

/-- A call for one iteration in the smallest shop, while two fired items are
queued.  Its bulk is refused, the caller executes the iteration, and the call
has returned. -/
theorem refused_bulk_run : Exists fun state =>
    (auditedSystem (singlePool refusingProgram rfl Unit)).Reachable state ∧
      state.shared.2.refused 0 = some [⟨2, 0, ⟨0, 1⟩⟩] ∧ state.shared.2.returned 0 = true ∧
        state.shared.2.contribution 0 = 1 := by
  have start : (auditedSystem (singlePool refusingProgram rfl Unit)).Reachable
      ⟨(Shared.fresh, Audit.blank), (singlePool refusingProgram rfl Unit).initialStack⟩ := .initial rfl
  have fires := advance_audited start (some ()) rfl (.call (.fire .outside () rfl (Or.inl rfl)))
  have loaded := advance_audited fires (some ()) rfl (.fire (.loadRotor () _))
  have sticks := advance_audited loaded (some ()) rfl (.fire (.stick () _ _ Nat.zero_lt_one))
  have queued := advance_audited sticks (some ()) rfl (.fire (.enqueue () _ _))
  have notified := advance_audited queued (some ()) rfl (.fire (.notify () _ _ _))
  have added := advance_audited notified (some ()) rfl (.fire (.addItem () _ _))
  have counted := advance_audited added (some ()) rfl (.fire (.countInFlight () _))
  have fired := advance_audited counted (some ()) rfl (.call (.fired () _ _))
  have fires' := advance_audited fired (some ()) rfl (.call (.fire .outside () rfl (Or.inl rfl)))
  have loaded' := advance_audited fires' (some ()) rfl (.fire (.loadRotor () _))
  have sticks' := advance_audited loaded' (some ()) rfl (.fire (.stick () _ _ Nat.zero_lt_one))
  have queued' := advance_audited sticks' (some ()) rfl (.fire (.enqueue () _ _))
  have notified' := advance_audited queued' (some ()) rfl (.fire (.notify () _ _ _))
  have added' := advance_audited notified' (some ()) rfl (.fire (.addItem () _ _))
  have counted' := advance_audited added' (some ()) rfl (.fire (.countInFlight () _))
  have fired' := advance_audited counted' (some ()) rfl (.call (.fired () _ _))
  have called := advance_audited fired' (some ()) rfl (.call (.spread .outside () 1 1 rfl (Or.inl rfl)))
  have looked := advance_audited called (some ()) rfl (.spread (.loadItems () _ _))
  have planned := advance_audited looked (some ()) rfl
    (.spread (.plan () _ _ _ _ _ (planned_of plan_bulk rfl rfl rfl rfl rfl)))
  have announced := advance_audited planned (some ()) rfl (.spread (.countParts () _ _ _))
  have expected := advance_audited announced (some ()) rfl (.spread (.initializeBarrier () _ _ _))
  have refused := advance_audited expected (some ()) rfl (.spread (.refuseParts () _ _ _ rfl))
  have reset := advance_audited refused (some ()) rfl (.spread (.resetBarrier () _ _ _))
  have registered := advance_audited reset (some ()) rfl (.spread (.callerRegister () _ _))
  have own := advance_audited registered (some ()) rfl (.spread (.callerCount () _ _ _))
  have invoked := advance_audited own (some ()) rfl (.execution (.invoke _ _))
  have finished := advance_audited invoked (some ()) rfl (.execution (.finish _ _))
  have arrived := advance_audited finished (some ()) rfl (.execution (.arrive _ _))
  have completed := advance_audited arrived (some ()) rfl (.spread (.callerComplete () _ _))
  have skipped := advance_audited completed (some ()) rfl (.spread (.stealSkip () _ _))
  have waited := advance_audited skipped (some ()) rfl (.spread (.waitOver () _ _ rfl))
  have returned := advance_audited waited (some ()) rfl (.call (.spreadReturn () _ _))
  exact ⟨_, returned, rfl, rfl, rfl⟩

/-! ## What a refused bulk leaves -/

/-- A refused bulk does not leave the accounting as it was, for any call of any
run.  Before `initialize( 0 )` the barrier still holds the refused parts, so that
the assertion of `initialize()` fails; and once the call has returned, all of
them are still counted in `work_items_`. -/
theorem refused_bulk_never_settles [Fintype Thread] (pool : Pool program Thread)
    (state : Stacked Thread (Frame Shop program.bits) (Shared program × Audit Thread program.bits))
    (reachable : (auditedSystem pool).Reachable state) :
    (forall thread shop call locals parts,
      .spread shop call locals (.resetBarrier parts) ∈ state.callStack thread ->
        (state.shared.1.barrier call).counter ≠ 0) ∧
    forall call parts, state.shared.2.refused call = some parts -> state.shared.2.returned call = true ->
      ¬ state.shared.2.AsItWas call ∧ state.shared.2.reinitialized call = true ∧
        state.shared.2.contribution call = BitVec.ofNat program.bits parts.length ∧
        BitVec.ofNat program.bits parts.length ≠ 0 := by
  have audited := wellAudited reachable
  constructor
  · intro thread shop call locals parts member
    have now := audited.frames thread _ member
    rw [now.2.2.counter]
    exact now.2.1.setWidth_ne_zero
  · intro call parts refused returned
    rcases audited.returned call returned with none | ⟨parts', unsettled⟩
    · rw [none] at refused
      cases refused
    · have same : parts' = parts := Option.some.inj (unsettled.refused.symm.trans refused)
      subst same
      have nonzero := unsettled.countable.ofNat_ne_zero
      refine ⟨fun settled => ?_, unsettled.reinitialized, unsettled.contribution, nonzero⟩
      cases unsettled.reinitialized.symm.trans settled.1

theorem refused_bulk_never_settles_single : Exists fun state =>
    (auditedSystem (singlePool refusingProgram rfl Unit)).Reachable state ∧
      state.shared.2.contribution 0 = BitVec.ofNat 16 1 ∧ ¬ state.shared.2.AsItWas 0 := by
  rcases refused_bulk_run with ⟨state, reachable, refused, returned, _⟩
  have traces := (refused_bulk_never_settles _ state reachable).2 0 _ refused returned
  exact ⟨state, reachable, traces.2.2.1, traces.1⟩

/-- With two fired items in a shop of one worker, the refused bulk of a call for
one iteration remains counted. -/
theorem refused_bulk_stays_counted :
    ¬ forall state, (auditedSystem (singlePool refusingProgram rfl Unit)).Reachable state ->
      forall call parts, state.shared.2.refused call = some parts -> state.shared.2.returned call = true ->
        state.shared.2.AsItWas call := by
  intro settles
  rcases refused_bulk_run with ⟨state, reachable, refused, returned, remains⟩
  have settled := (settles state reachable 0 _ refused returned).2
  rw [remains] at settled
  cases settled

end Shop
end Sweater
