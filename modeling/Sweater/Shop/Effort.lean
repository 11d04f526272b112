import Sweater.Shop.Attendance

namespace Sweater
namespace Shop

open Threading
open Spread
open Interleaving
open Interleaving.Stacked

/-!
# The effort that is left

A step eases if it brings the calls of `spread_work` nearer to their ends: it
makes the plan of a call known, or lowers the effort that the frames and the
queued works still stand for.  Another poll of a barrier does not ease, and
neither does a call from user code.

Whoever executes a work or fires an item can ease, and so can every call that
is not blocked, and every worker that finds something in the queue.
-/

variable {Thread : Type} {program : Program Unit}

/-! ## The remaining effort -/

/-- The slices of the dispatches that are still to come. -/
def dispatchEffort {bits : Nat} (rest : List (Dispatch bits)) : Nat :=
  (rest.map (fun dispatch => 30 + 100 * dispatch.slices.length)).sum

/-- What a call has still to do when its plan is known; a queued work counts
for eighty. -/
def SpreadPoint.effort {bits : Nat} (workers : Nat) : SpreadPoint bits -> Nat
  | .loadItems => 10
  | .loadDivision _ => 0
  | .registerSlice _ _ registered slices rest =>
      150 + 80 * registered.length + 100 * slices.length + dispatchEffort rest
  | .countSlice _ _ registered slices rest =>
      160 + 80 * registered.length + 100 * slices.length + dispatchEffort rest
  | .notifyRoot _ rest => 140 + dispatchEffort rest
  | .countParts chunks => 170 + 10 * workers + 80 * chunks.length
  | .initializeBarrier chunks => 160 + 10 * workers + 80 * chunks.length
  | .enqueueParts parts => 150 + 10 * workers + 80 * parts.length
  | .notifyAll worker => 140 + 10 * (workers - worker)
  | .resetBarrier _ => 140
  | .initializeEmpty => 140
  | .callerRegister => 130
  | .callerCount _ => 120
  | .callerCompleting => 80
  | .testQueue => 70
  | .steal => 60
  | .stealCompleting => 70
  | .join => 50
  | .spinning => 40
  | .waiting => 40
  | .stalled => 30
  | .raiseDivision _ => 20
  | .finished => 10

def FirePoint.effort : FirePoint -> Nat
  | .loadRotor => 160
  | .testBacklog _ => 150
  | .advanceRotor => 140
  | .enqueue _ => 130
  | .notify _ _ => 40
  | .addItem _ => 30
  | .countInFlight => 20
  | .finished _ => 10

/-- How far a worker is from looking into the queue. -/
def WorkerPoint.effort : WorkerPoint -> Nat
  | .completing _ => 10
  | .checkExit => 7
  | .sleeping => 6
  | .woken => 5
  | .wakeLeft => 4
  | .wakeRight => 3
  | .drainOwn => 2
  | .drainAll => 1
  | .exited => 0

def Phase.effort : Phase -> Nat
  | .fetched => 30
  | .running => 20
  | .leaving => 10

/-- Where a work goes on when it has been left. -/
def Host.effort : Host Unit -> Nat
  | .worker _ _ _ => 10
  | .caller _ _ _ => 80
  | .thief _ _ _ => 70

def Frame.effort {bits : Nat} (workers : Nat) : Frame Unit bits -> Nat
  | .worker _ _ point => point.effort
  | .executing host _ phase => host.effort + phase.effort
  | .fire _ _ point => point.effort
  | .spread _ _ _ point => point.effort workers
  | _ => 0

/-- One for a call whose plan is not known yet. -/
def Frame.unplanned {bits : Nat} : Frame Unit bits -> Nat
  | .spread _ _ _ .loadItems => 1
  | .spread _ _ _ (.loadDivision _) => 1
  | _ => 0

@[simp] theorem effort_resume {bits : Nat} (workers : Nat) (host : Host Unit) :
    (host.resume : Frame Unit bits).effort workers = host.effort := by
  cases host <;> rfl

@[simp] theorem unplanned_resume {bits : Nat} (host : Host Unit) :
    (host.resume : Frame Unit bits).unplanned = 0 := by
  cases host <;> rfl

theorem effort_toCaller (program : Program Unit) (workers : Nat) (locals : SpreadLocals) :
    (SpreadPoint.toCaller locals : SpreadPoint program.bits).effort workers ≤ 130 := by
  unfold SpreadPoint.toCaller
  split
  · exact Nat.le_refl _
  · exact (by decide : 70 ≤ 130)

theorem effort_nextDispatch (workers : Nat) (locals : SpreadLocals) (first : Bool)
    (rest : List (Dispatch program.bits)) :
    (SpreadPoint.nextDispatch locals first rest).effort workers ≤ 130 + dispatchEffort rest := by
  cases rest with
  | nil => exact effort_toCaller program workers locals
  | cons dispatch rest =>
      simp only [SpreadPoint.nextDispatch, SpreadPoint.effort, dispatchEffort, List.map_cons, List.sum_cons,
        List.length_nil]
      omega

/-! ## Steps that ease -/

section Steps

variable {pool : Pool program Thread} {callStack : Thread -> List (Frame Unit program.bits)}
  {thread : Thread} {shared shared' : Shared program} {frame : Frame Unit program.bits}
  {frames : List (Frame Unit program.bits)}

/-- The plan of a call becomes known, or the effort gets less. -/
def Lowers (shared : Shared program) (frame : Frame Unit program.bits) (shared' : Shared program)
    (frames : List (Frame Unit program.bits)) : Prop :=
  weigh Frame.unplanned frames < frame.unplanned ∨
    weigh Frame.unplanned frames = frame.unplanned ∧
      weigh (Frame.effort (program.workers ())) frames + 80 * shared'.queue.length <
        frame.effort (program.workers ()) + 80 * shared.queue.length

/-- A step of an orderly run that begins no call and lowers the effort. -/
structure Eases (pool : Pool program Thread) (callStack : Thread -> List (Frame Unit program.bits))
    (thread : Thread) (shared : Shared program) (frame : Frame Unit program.bits) (shared' : Shared program)
    (frames : List (Frame Unit program.bits)) : Prop where
  move : ShopStep pool callStack thread shared frame shared' frames
  lowers : Lowers shared frame shared' frames
  running : shared'.stopping = shared.stopping
  queued : shared'.lost = shared.lost
  calls : shared'.nextCall = shared.nextCall
  items : shared'.created.countP Work.isItem = shared.created.countP Work.isItem
  emptiness : forall call locals, frame = .spread () call locals .testQueue ->
    frames ≠ [.spread () call locals .join]
  detection : forall call locals, frame = .spread () call locals .loadItems -> pool.Serves thread () ->
    shared.workItems () ≠ 0

/-- The frame on top of the thread has a step that eases. -/
def CanEase (pool : Pool program Thread) (callStack : Thread -> List (Frame Unit program.bits)) (thread : Thread)
    (shared : Shared program) (frame : Frame Unit program.bits) : Prop :=
  Exists fun shared' => Exists fun frames => Eases pool callStack thread shared frame shared' frames

/-- A step that does not begin with one of the points of a call that need care. -/
theorem CanEase.of_move (move : ShopStep pool callStack thread shared frame shared' frames)
    (lowers : Lowers shared frame shared' frames) (running : shared'.stopping = shared.stopping)
    (queued : shared'.lost = shared.lost) (calls : shared'.nextCall = shared.nextCall)
    (items : shared'.created.countP Work.isItem = shared.created.countP Work.isItem)
    (plain : forall call locals, frame ≠ .spread () call locals .testQueue ∧
      frame ≠ .spread () call locals .loadItems) :
    CanEase pool callStack thread shared frame :=
  ⟨shared', frames,
    { move, lowers, running, queued, calls, items
      emptiness := fun call locals same => absurd same (plain call locals).1
      detection := fun call locals same => absurd same (plain call locals).2 }⟩

/-- Whoever executes a work can go on. -/
theorem canEase_executing (host : Host Unit) (work : Work) (phase : Phase) :
    CanEase pool callStack thread shared (.executing host work phase) := by
  cases phase with
  | fetched =>
      refine .of_move (.execution (.invoke host work)) (Or.inr ⟨rfl, ?_⟩) rfl rfl rfl rfl (by simp)
      simp [Frame.effort, Phase.effort]
  | running =>
      refine .of_move (.execution (.finish host work)) (Or.inr ⟨rfl, ?_⟩) rfl rfl rfl rfl (by simp)
      simp [Frame.effort, Phase.effort]
  | leaving =>
      have lowers : forall shared' : Shared program, shared'.queue = shared.queue ->
          Lowers shared (.executing host work .leaving) shared' [host.resume] := by
        intro shared' same
        refine Or.inr ⟨?_, ?_⟩
        · rw [weigh_cons, unplanned_resume]
          rfl
        · rw [weigh_cons, effort_resume, same]
          simp [Frame.effort, Phase.effort]
      cases work with
      | item serial =>
          exact .of_move (.execution (.discount host serial)) (lowers _ rfl) rfl rfl rfl rfl (by simp)
      | part part =>
          exact .of_move (.execution (.arrive host part)) (lowers _ rfl) rfl rfl rfl rfl (by simp)

/-- Whoever fires an item can go on. -/
theorem canEase_fire (staffed : 0 < program.workers ()) (serial : Nat) (point : FirePoint) :
    CanEase pool callStack thread shared (.fire () serial point) := by
  cases point with
  | loadRotor =>
      refine .of_move (.fire (.loadRotor () serial)) (Or.inr ⟨rfl, ?_⟩) rfl rfl rfl rfl (by simp)
      simp [Frame.effort, FirePoint.effort]
  | testBacklog rotor =>
      refine .of_move (.fire (.stick () serial rotor staffed)) (Or.inr ⟨rfl, ?_⟩) rfl rfl rfl rfl (by simp)
      simp [Frame.effort, FirePoint.effort]
  | advanceRotor =>
      refine .of_move (.fire (.advanceRotor () serial staffed)) (Or.inr ⟨rfl, ?_⟩) rfl rfl rfl rfl (by simp)
      simp [Frame.effort, FirePoint.effort]
  | enqueue target =>
      refine .of_move (.fire (.enqueue () serial target)) (Or.inr ⟨rfl, ?_⟩) rfl rfl rfl rfl (by simp)
      simp [Frame.effort, FirePoint.effort]
      omega
  | notify target enqueueSucceeded =>
      refine .of_move (.fire (.notify () serial target enqueueSucceeded)) (Or.inr ⟨rfl, ?_⟩) rfl rfl rfl rfl (by simp)
      simp [Frame.effort, FirePoint.effort, Shared.signal]
  | addItem enqueueSucceeded =>
      refine .of_move (.fire (.addItem () serial enqueueSucceeded)) (Or.inr ⟨rfl, ?_⟩) rfl rfl rfl rfl (by simp)
      cases enqueueSucceeded <;> simp [Frame.effort, FirePoint.effort, Shared.addItems]
  | countInFlight =>
      refine .of_move (.fire (.countInFlight () serial)) (Or.inr ⟨rfl, ?_⟩) rfl rfl rfl rfl (by simp)
      simp [Frame.effort, FirePoint.effort]
  | finished enqueueSucceeded =>
      refine .of_move (.call (.fired () serial enqueueSucceeded)) (Or.inr ⟨rfl, ?_⟩) rfl rfl rfl rfl (by simp)
      simp [Frame.effort, FirePoint.effort]

/-- A worker of a shop that is not being destroyed, with something in the queue,
can go on unless it sleeps without a token. -/
theorem canEase_worker (index : Nat) {point : WorkerPoint} (running : shared.brexit () = false)
    (stays : point ≠ .exited) (some : shared.queue ≠ [])
    (wakes : point = .sleeping -> 0 < shared.tokens () index) :
    CanEase pool callStack thread shared (.worker () index point) := by
  cases point with
  | drainOwn =>
      by_cases own : Exists fun entry => entry ∈ shared.queue ∧ entry.token = Option.some index
      · rcases own with ⟨entry, member, token⟩
        rcases List.append_of_mem member with ⟨front, back, place⟩
        refine .of_move (.worker (.takeOwn () index front entry back place rfl token)) (Or.inr ⟨rfl, ?_⟩)
          rfl rfl rfl rfl (by simp)
        simp [Frame.effort, WorkerPoint.effort, Host.effort, Phase.effort, place]
        omega
      · refine .of_move (.worker (.ownEmpty () index ?_)) (Or.inr ⟨rfl, ?_⟩) rfl rfl rfl rfl (by simp)
        · exact fun entry member _ token => own ⟨entry, member, token⟩
        · simp [Frame.effort, WorkerPoint.effort]
  | drainAll =>
      rcases List.exists_mem_of_ne_nil _ some with ⟨entry, member⟩
      rcases List.append_of_mem member with ⟨front, back, place⟩
      refine .of_move (.worker (.takeAny () index front entry back place rfl)) (Or.inr ⟨rfl, ?_⟩)
        rfl rfl rfl rfl (by simp)
      simp [Frame.effort, WorkerPoint.effort, Host.effort, Phase.effort, place]
      omega
  | completing own =>
      refine .of_move (.worker (.complete () index own)) (Or.inr ⟨rfl, ?_⟩) rfl rfl rfl rfl (by simp)
      cases own <;> simp [Frame.effort, WorkerPoint.effort, Shared.completeItem]
  | checkExit =>
      refine .of_move (.worker (.stay () index running)) (Or.inr ⟨rfl, ?_⟩) rfl rfl rfl rfl (by simp)
      simp [Frame.effort, WorkerPoint.effort]
  | sleeping =>
      refine .of_move (.worker (.wake () index (wakes rfl))) (Or.inr ⟨rfl, ?_⟩) rfl rfl rfl rfl (by simp)
      simp [Frame.effort, WorkerPoint.effort, Shared.consume]
  | woken =>
      by_cases idle : shared.workItems () = 0
      · refine .of_move (.worker (.idle () index idle)) (Or.inr ⟨rfl, ?_⟩) rfl rfl rfl rfl (by simp)
        simp [Frame.effort, WorkerPoint.effort]
      · refine .of_move (.worker (.propagate () index idle)) (Or.inr ⟨rfl, ?_⟩) rfl rfl rfl rfl (by simp)
        simp [Frame.effort, WorkerPoint.effort]
  | wakeLeft =>
      by_cases below : (2 * index + 1) % 2 ^ program.bits < program.workers ()
      · refine .of_move (.worker (.wakeLeft () index below)) (Or.inr ⟨rfl, ?_⟩) rfl rfl rfl rfl (by simp)
        simp [Frame.effort, WorkerPoint.effort, Shared.signal]
      · refine .of_move (.worker (.noLeft () index (Nat.not_lt.mp below))) (Or.inr ⟨rfl, ?_⟩) rfl rfl rfl rfl
          (by simp)
        simp [Frame.effort, WorkerPoint.effort]
  | wakeRight =>
      by_cases below : (2 * index + 2) % 2 ^ program.bits < program.workers ()
      · refine .of_move (.worker (.wakeRight () index below)) (Or.inr ⟨rfl, ?_⟩) rfl rfl rfl rfl (by simp)
        simp [Frame.effort, WorkerPoint.effort, Shared.signal]
      · refine .of_move (.worker (.noRight () index (Nat.not_lt.mp below))) (Or.inr ⟨rfl, ?_⟩) rfl rfl rfl rfl
          (by simp)
        simp [Frame.effort, WorkerPoint.effort]
  | exited => exact absurd rfl stays

/-- What keeps a call from going on. -/
def SpreadPoint.Blocked (pool : Pool program Thread) (thread : Thread) (shared : Shared program) (call : Nat) :
    SpreadPoint program.bits -> Prop
  | .loadItems => pool.Serves thread () ∧ shared.workItems () = 0
  | .spinning => (shared.barrier call).everyoneArrived program.bits = false
  | .waiting => (shared.barrier call).counter ≠ 0
  | _ => False

/-- A step of a call that is past its plan. -/
theorem CanEase.of_spread {call : Nat} {locals locals' : SpreadLocals} {point next : SpreadPoint program.bits}
    (move : SpreadStep program (decide (pool.Serves thread ())) shared (.spread () call locals point) shared'
      [.spread () call locals' next])
    (planned : (Frame.spread () call locals point).unplanned = 0)
    (chosen : (Frame.spread () call locals' next).unplanned = 0)
    (lowers : next.effort (program.workers ()) + 80 * shared'.queue.length <
      point.effort (program.workers ()) + 80 * shared.queue.length)
    (running : shared'.stopping = shared.stopping) (queued : shared'.lost = shared.lost)
    (calls : shared'.nextCall = shared.nextCall)
    (items : shared'.created.countP Work.isItem = shared.created.countP Work.isItem)
    (plain : point ≠ .testQueue) : CanEase pool callStack thread shared (.spread () call locals point) := by
  refine .of_move (.spread move) (Or.inr ⟨?_, ?_⟩) running queued calls items ?_
  · rw [weigh_cons, weigh_nil, planned, chosen]
  · rw [weigh_cons, weigh_nil]
    exact lowers
  · intro other others
    constructor
    · rintro same
      cases same
      exact plain rfl
    · rintro same
      cases same
      cases planned

theorem unplanned_toCaller (call : Nat) (locals locals' : SpreadLocals) :
    (Frame.spread () call locals (.toCaller locals') : Frame Unit program.bits).unplanned = 0 := by
  unfold SpreadPoint.toCaller
  split <;> rfl

theorem unplanned_nextDispatch (call : Nat) (locals locals' : SpreadLocals) (first : Bool)
    (rest : List (Dispatch program.bits)) :
    (Frame.spread () call locals (.nextDispatch locals' first rest)).unplanned = 0 := by
  cases rest with
  | nil => exact unplanned_toCaller call locals locals'
  | cons dispatch rest => rfl

theorem unplanned_startPlan (call : Nat) (locals locals' : SpreadLocals) (plan : Plan program.bits) :
    (Frame.spread () call locals (startPlan program locals' plan).2).unplanned = 0 := by
  cases plan with
  | nothing | inCaller iterations => rfl
  | toWorkers callerEnd sliceDiv dispatches => exact unplanned_nextDispatch _ _ _ true dispatches
  | toQueue queueAndWait callerEnd chunks =>
      simp only [startPlan]
      split <;> rfl

theorem countP_isItem_parts (works : List Work) (parts : List Part) :
    (works ++ parts.map Work.part).countP Work.isItem = works.countP Work.isItem := by
  rw [List.countP_append, List.countP_map, Nat.add_eq_left, List.countP_eq_zero]
  exact fun _ _ impossible => by cases impossible

/-- The points of `dispatch_workers`. -/
theorem canEase_dispatch (call : Nat) (locals : SpreadLocals) (worker : Nat) (first : Bool)
    (registered : List Part) (slices : List Chunk) (rest : List (Dispatch program.bits)) :
    CanEase pool callStack thread shared
        (.spread () call locals (.registerSlice worker first registered slices rest)) ∧
      CanEase pool callStack thread shared
        (.spread () call locals (.countSlice worker first registered slices rest)) ∧
      CanEase pool callStack thread shared (.spread () call locals (.notifyRoot worker rest)) := by
  refine ⟨?_, ?_, ?_⟩
  · cases slices with
    | nil =>
        refine .of_spread (.enqueueSlices () call locals worker first registered rest) rfl ?_ ?_ rfl rfl rfl rfl (by simp)
        · cases first with
          | true => rfl
          | false => exact unplanned_nextDispatch call locals locals false rest
        · have next := effort_nextDispatch (program.workers ()) locals false rest
          cases first <;> simp [SpreadPoint.effort] at next ⊢ <;> omega
    | cons chunk slices =>
        refine .of_spread (.registerSlice () call locals worker first registered chunk slices rest) rfl rfl ?_
          rfl rfl rfl (countP_isItem_parts _ [_]) (by simp)
        simp [SpreadPoint.effort, Shared.onBarrier]
        omega
  · refine .of_spread (.countSlice () call locals worker first registered slices rest) rfl rfl ?_ rfl rfl rfl rfl (by simp)
    simp [SpreadPoint.effort, Shared.addItems]
  · refine .of_spread (.notifyRoot () call locals worker rest) rfl
      (unplanned_nextDispatch call locals locals false rest) ?_ rfl rfl rfl rfl (by simp)
    have next := effort_nextDispatch (program.workers ()) locals false rest
    exact Nat.add_lt_add_right (Nat.lt_of_le_of_lt next (Nat.add_lt_add_right (by decide : 130 < 140) _)) _

/-- The points of the shared `enqueue_bulk`. -/
theorem canEase_bulk (call : Nat) (locals : SpreadLocals) (chunks : List Chunk) (parts : List Part) (worker : Nat) :
    CanEase pool callStack thread shared (.spread () call locals (.countParts chunks)) ∧
      CanEase pool callStack thread shared (.spread () call locals (.initializeBarrier chunks)) ∧
      CanEase pool callStack thread shared (.spread () call locals (.enqueueParts parts)) ∧
      CanEase pool callStack thread shared (.spread () call locals (.notifyAll worker)) ∧
      CanEase pool callStack thread shared (.spread () call locals (.resetBarrier parts)) ∧
      CanEase pool callStack thread shared (.spread () call locals .initializeEmpty) := by
  refine ⟨?_, ?_, ?_, ?_, ?_, ?_⟩
  · refine .of_spread (.countParts () call locals chunks) rfl rfl ?_ rfl rfl rfl rfl (by simp)
    simp [SpreadPoint.effort, Shared.addItems]
  · refine .of_spread (.initializeBarrier () call locals chunks) rfl rfl ?_ rfl rfl rfl
      (countP_isItem_parts _ _) (by simp)
    simp [SpreadPoint.effort, Shared.onBarrier, partsOf_length]
  · refine .of_spread (.enqueueParts () call locals parts) rfl rfl ?_ rfl rfl rfl rfl (by simp)
    simp [SpreadPoint.effort]
    omega
  · have next := effort_toCaller program (program.workers ()) locals
    by_cases below : worker < program.workers ()
    · refine .of_spread (.notifyAll () call locals worker below) rfl rfl ?_ rfl rfl rfl rfl (by simp)
      simp only [SpreadPoint.effort, Shared.signal]
      omega
    · refine .of_spread (.notifiedAll () call locals worker (Nat.not_lt.mp below)) rfl
        (unplanned_toCaller call locals locals) ?_ rfl rfl rfl rfl (by simp)
      exact Nat.add_lt_add_right (Nat.lt_of_le_of_lt next
        (Nat.lt_of_lt_of_le (by decide : 130 < 140) (Nat.le_add_right _ _))) _
  · refine .of_spread (.resetBarrier () call locals parts) rfl (unplanned_toCaller _ _ _) ?_ rfl rfl rfl rfl (by simp)
    have next := effort_toCaller program (program.workers ())
      { locals with callerEnd := locals.iterations, enqueueSucceeded := false }
    exact Nat.add_lt_add_right (Nat.lt_of_le_of_lt next (by decide : 130 < 140)) _
  · refine .of_spread (.initializeEmpty () call locals) rfl (unplanned_toCaller _ _ _) ?_ rfl rfl rfl rfl (by simp)
    have next := effort_toCaller program (program.workers ()) locals
    exact Nat.add_lt_add_right (Nat.lt_of_le_of_lt next (by decide : 130 < 140)) _

/-- The points between the dispatch and the join. -/
theorem canEase_caller (call : Nat) (locals : SpreadLocals) (part : Part) :
    CanEase pool callStack thread shared (.spread () call locals .callerRegister) ∧
      CanEase pool callStack thread shared (.spread () call locals (.callerCount part)) ∧
      CanEase pool callStack thread shared (.spread () call locals .callerCompleting) := by
  refine ⟨?_, ?_, ?_⟩
  · refine .of_spread (.callerRegister () call locals) rfl rfl ?_ rfl rfl rfl (countP_isItem_parts _ [_]) (by simp)
    simp [SpreadPoint.effort, Shared.onBarrier]
  · refine .of_move (.spread (.callerCount () call locals part)) (Or.inr ⟨rfl, ?_⟩) rfl rfl rfl rfl (by simp)
    simp [Frame.effort, SpreadPoint.effort, Host.effort, Phase.effort, Shared.addItems]
  · refine .of_spread (.callerComplete () call locals) rfl ?_ ?_ rfl rfl rfl rfl (by simp)
    · cases locals.immediate <;> rfl
    · cases locals.immediate <;> simp [SpreadPoint.effort, Shared.completeItem]

/-- The points of the stealing loop. -/
theorem canEase_steal (call : Nat) (locals : SpreadLocals) :
    CanEase pool callStack thread shared (.spread () call locals .testQueue) ∧
      CanEase pool callStack thread shared (.spread () call locals .steal) ∧
      CanEase pool callStack thread shared (.spread () call locals .stealCompleting) := by
  refine ⟨?_, ?_, ?_⟩
  · cases waits : locals.queueAndWait with
    | false =>
        refine ⟨shared, _,
          { move := .spread (.stealBegin () call locals waits)
            lowers := Or.inr ⟨rfl, ?_⟩
            running := rfl
            queued := rfl
            calls := rfl
            items := rfl
            emptiness := by simp
            detection := by simp }⟩
        simp [Frame.effort, SpreadPoint.effort]
    | true =>
        have next : (SpreadPoint.toJoin locals : SpreadPoint program.bits) = .waiting := by
          rw [SpreadPoint.toJoin, waits]
          rfl
        refine ⟨shared, _,
          { move := .spread (.stealSkip () call locals)
            lowers := ?_
            running := rfl
            queued := rfl
            calls := rfl
            items := rfl
            emptiness := ?_
            detection := by simp }⟩
        · rw [next]
          exact Or.inr ⟨rfl, by simp [Frame.effort, SpreadPoint.effort]⟩
        · rw [next]
          simp
  · by_cases empty : shared.queue = []
    · refine .of_spread (.stealEmpty () call locals ?_) rfl ?_ ?_ rfl rfl rfl rfl (by simp)
      · intro entry member
        rw [empty] at member
        cases member
      · unfold SpreadPoint.toJoin
        split <;> rfl
      · unfold SpreadPoint.toJoin
        split <;> simp [SpreadPoint.effort]
    · rcases List.exists_mem_of_ne_nil _ empty with ⟨entry, member⟩
      rcases List.append_of_mem member with ⟨front, back, place⟩
      refine .of_move (.spread (.steal () call locals front entry back place rfl)) (Or.inr ⟨rfl, ?_⟩)
        rfl rfl rfl rfl (by simp)
      simp [Frame.effort, SpreadPoint.effort, Host.effort, Phase.effort, place]
      omega
  · refine .of_spread (.stealComplete () call locals) rfl rfl ?_ rfl rfl rfl rfl (by simp)
    simp [SpreadPoint.effort, Shared.completeItem]

/-- The points of the join. -/
theorem canEase_join (call : Nat) (locals : SpreadLocals) (current : BitVec 8) :
    CanEase pool callStack thread shared (.spread () call locals .join) ∧
      CanEase pool callStack thread shared (.spread () call locals .stalled) ∧
      CanEase pool callStack thread shared (.spread () call locals (.raiseDivision current)) ∧
      CanEase pool callStack thread shared (.spread () call locals .finished) := by
  refine ⟨?_, ?_, ?_, ?_⟩
  · cases arrived : (shared.barrier call).everyoneArrived program.bits with
    | true =>
        refine .of_spread (.joined () call locals arrived) rfl rfl ?_ rfl rfl rfl rfl (by simp)
        simp [SpreadPoint.effort]
    | false =>
        refine .of_spread (.joinSpin () call locals arrived) rfl rfl ?_ rfl rfl rfl rfl (by simp)
        simp [SpreadPoint.effort]
  · refine .of_spread (.loadStalled () call locals) rfl rfl ?_ rfl rfl rfl rfl (by simp)
    simp [SpreadPoint.effort]
  · by_cases raise : current.toNat < stealingDivisionMax ∧ shared.division = current
    · refine .of_spread (.raiseDivision () call locals current raise.1 raise.2) rfl rfl ?_ rfl rfl rfl rfl (by simp)
      simp [SpreadPoint.effort]
    · have keep : stealingDivisionMax ≤ current.toNat ∨ shared.division ≠ current := by
        rcases not_and_or.mp raise with high | changed
        · exact Or.inl (Nat.not_lt.mp high)
        · exact Or.inr changed
      refine .of_spread (.keepDivision () call locals current keep) rfl rfl ?_ rfl rfl rfl rfl (by simp)
      simp [SpreadPoint.effort]
  · refine .of_move (.call (.spreadReturn () call locals)) (Or.inr ⟨rfl, ?_⟩) rfl rfl rfl rfl (by simp)
    simp [Frame.effort, SpreadPoint.effort]

/-- A call that is not blocked can go on. -/
theorem canEase_spread (call : Nat) (locals : SpreadLocals) (point : SpreadPoint program.bits)
    (free : ¬ point.Blocked pool thread shared call)
    (plans : forall itemsInShop, point = .loadDivision itemsInShop -> Exists fun plan => Exists fun exact_ =>
      spreadWork ⟨program.workerThreads (), itemsInShop, shared.division, decide (pool.Serves thread ()),
        program.singleCorePlatform⟩ locals.iterations locals.parallelizable = some (plan, exact_)) :
    CanEase pool callStack thread shared (.spread () call locals point) := by
  cases point with
  | loadItems =>
      refine ⟨shared, _,
        { move := .spread (.loadItems () call locals)
          lowers := Or.inr ⟨rfl, ?_⟩
          running := rfl
          queued := rfl
          calls := rfl
          items := rfl
          emptiness := by simp
          detection := fun _ _ _ serves none => free ⟨serves, none⟩ }⟩
      simp [Frame.effort, SpreadPoint.effort]
  | loadDivision itemsInShop =>
      rcases plans itemsInShop rfl with ⟨plan, exact_, planned⟩
      refine .of_move (.spread (.plan () call locals itemsInShop plan exact_ planned)) (Or.inl ?_) rfl rfl rfl rfl
        (by simp)
      rw [weigh_cons, weigh_nil, unplanned_startPlan]
      exact Nat.zero_lt_one
  | registerSlice worker first registered slices rest =>
      exact (canEase_dispatch call locals worker first registered slices rest).1
  | countSlice worker first registered slices rest =>
      exact (canEase_dispatch call locals worker first registered slices rest).2.1
  | notifyRoot worker rest => exact (canEase_dispatch call locals worker true [] [] rest).2.2
  | countParts chunks => exact (canEase_bulk call locals chunks [] 0).1
  | initializeBarrier chunks => exact (canEase_bulk call locals chunks [] 0).2.1
  | enqueueParts parts => exact (canEase_bulk call locals [] parts 0).2.2.1
  | notifyAll worker => exact (canEase_bulk call locals [] [] worker).2.2.2.1
  | resetBarrier parts => exact (canEase_bulk call locals [] parts 0).2.2.2.2.1
  | initializeEmpty => exact (canEase_bulk call locals [] [] 0).2.2.2.2.2
  | callerRegister => exact (canEase_caller call locals ⟨0, 0, 0, 0⟩).1
  | callerCount part => exact (canEase_caller call locals part).2.1
  | callerCompleting => exact (canEase_caller call locals ⟨0, 0, 0, 0⟩).2.2
  | testQueue => exact (canEase_steal call locals).1
  | steal => exact (canEase_steal call locals).2.1
  | stealCompleting => exact (canEase_steal call locals).2.2
  | join => exact (canEase_join call locals 0).1
  | spinning =>
      have arrived : (shared.barrier call).everyoneArrived program.bits = true := by
        rw [← Bool.not_eq_false]
        exact free
      refine .of_spread (.spinOver () call locals false arrived) rfl rfl ?_ rfl rfl rfl rfl (by simp)
      simp [SpreadPoint.effort]
  | stalled => exact (canEase_join call locals 0).2.1
  | raiseDivision current => exact (canEase_join call locals current).2.2.1
  | waiting =>
      refine .of_spread (.waitOver () call locals (not_not.mp free)) rfl rfl ?_ rfl rfl rfl rfl (by simp)
      simp [SpreadPoint.effort]
  | finished => exact (canEase_join call locals 0).2.2.2

end Steps

end Shop
end Sweater
