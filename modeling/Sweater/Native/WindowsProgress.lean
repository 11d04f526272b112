import Sweater.Native.WindowsSpreads

namespace Sweater
namespace Native
namespace Windows

open Interleaving
open Interleaving.Stacked

/-!
# How a Windows spread ends

The caller waits for chunks that the threads of the pool execute, and user code
may make a call of its own while it executes a chunk.  A thread that waits in a
call executes no other chunk.  Whoever waits for a thread that waits, waits for a
call that has been made later.  So a spread can only hang when every thread of the
pool is taken, and then it may.
-/

variable {build : Build} {Thread : Type} {spread spread' : SpreadCall} {point : Point} {points : List Point}

/-! ## What is left of a spread -/

/-- How many steps a chunk is from the latch. -/
def ChunkStage.left : ChunkStage -> Nat
  | unsubmitted => 4
  | queued => 3
  | running => 2
  | leaving => 1
  | counted => 0

/-- How many steps a caller is from the return, besides those of the chunks. -/
def Point.left : Point -> Nat
  | executing .pool _ _ => 0
  | finished => 1
  | _ => 2

def SpreadCall.left (spread : SpreadCall) : Nat := ∑ index ∈ Finset.range spread.chunks, (spread.stage index).left

def Frame.left : Frame -> Nat
  | .spread _ point => point.left
  | _ => 0

theorem ChunkStage.Next.left_lt {stage next : ChunkStage} (order : stage.Next next) : next.left < stage.left := by
  cases order <;> decide

theorem sum_range_update {Value : Type} (weight : Value -> Nat) (values : Nat -> Value) {index bound : Nat}
    (inside : index < bound) (value : Value) :
    ∑ other ∈ Finset.range bound, weight (Function.update values index value other) + weight (values index) =
      ∑ other ∈ Finset.range bound, weight (values other) + weight value := by
  have member := Finset.mem_range.mpr inside
  have moved : (fun other => weight (Function.update values index value other)) =
      Function.update (fun other => weight (values other)) index (weight value) :=
    Function.comp_update weight values index value
  rw [moved, Finset.sum_update_of_mem member, Finset.sdiff_singleton_eq_erase,
    ← Finset.add_sum_erase _ (fun other => weight (values other)) member]
  omega

theorem Advances.left {index : Nat} {next : ChunkStage} (advances : Advances spread spread' index next) :
    spread'.left < spread.left := by
  have moved := sum_range_update ChunkStage.left spread.stage advances.inside next
  have nearer := advances.order.left_lt
  rw [SpreadCall.left, SpreadCall.left, advances.chunks, advances.stage]
  omega

theorem Point.left_head (chunks index : Nat) : (head chunks index).left = 2 := by
  rw [head]
  split <;> rfl

theorem PointStep.left_le (step : PointStep spread point spread' points) : (points.map Point.left).sum ≤ point.left := by
  cases step with
  | submitted | countDown =>
      rw [List.map_singleton, List.sum_singleton, Point.left_head]
      exact Nat.le_refl 2
  | ran host => cases host <;> exact Nat.le_refl _
  | countDownLast | finished => exact Nat.zero_le _
  | refused => exact Nat.le_refl 2
  | wait => exact Nat.le_succ 1

/-- Each step brings the call nearer to its end. -/
theorem PointStep.left_lt (step : PointStep spread point spread' points) (placed : point.Placed spread)
    (tallied : spread.Tallied) : (points.map Point.left).sum + spread'.left < point.left + spread.left := by
  have few := step.left_le
  cases (step.does placed tallied).1 with
  | waits => exact Nat.add_lt_add_right Nat.one_lt_two _
  | returns => exact Nat.add_lt_add_right Nat.zero_lt_one _
  | advances index next advances =>
      have nearer := advances.left
      omega

variable [Fintype Thread] [DecidableEq Thread] {state before later : Stacked Thread Frame Shared} {inPool : Thread -> Bool}

/-- What is left of the calls that have been made. -/
def remaining (state : Stacked Thread Frame Shared) : Nat :=
  state.total Frame.left + ∑ call ∈ Finset.range state.shared.nextCall, (state.shared.spreads call).left

def Frame.isSpread : Frame -> Bool
  | .spread _ _ => true
  | _ => false

/-- A run in which no call is made, with the number of its steps that a spread has
a part in. -/
inductive SpreadRun (build : Build) (state : Stacked Thread Frame Shared) : Nat -> Stacked Thread Frame Shared -> Prop
  | start : SpreadRun build state 0 state
  | step {steps middle} (thread frame rest shared frames) : SpreadRun build state steps middle ->
      middle.callStack thread = frame :: rest ->
      WindowsStep build middle.callStack thread middle.shared frame shared frames ->
      shared.nextCall = middle.shared.nextCall ->
      SpreadRun build state (steps + if (frame :: frames).any Frame.isSpread then 1 else 0)
        (middle.replaceTop thread shared (frames ++ rest))

omit [Fintype Thread] in
theorem SpreadRun.continues {steps : Nat} (run : SpreadRun build state steps later) :
    (windowsSystem build inPool).Continues state later := by
  induction run with
  | start => exact .refl
  | step thread frame rest shared frames _ place move _ inductionHypothesis =>
      exact inductionHypothesis.tail (.top thread frame rest shared frames place move)

theorem Sound.remaining_step (sound : Sound before) {thread : Thread} {frame : Frame} {rest frames : List Frame}
    {shared : Shared} (place : before.callStack thread = frame :: rest)
    (move : WindowsStep build before.callStack thread before.shared frame shared frames)
    (same : shared.nextCall = before.shared.nextCall) :
    remaining (before.replaceTop thread shared (frames ++ rest)) + (if (frame :: frames).any Frame.isSpread then 1 else 0) ≤
      remaining before := by
  have total := total_replaceTop Frame.left before place shared frames
  have member : frame ∈ before.callStack thread := by
    rw [place]
    exact List.mem_cons_self
  unfold remaining
  change _ + ∑ call ∈ Finset.range shared.nextCall, (shared.spreads call).left + _ ≤ _
  rw [same]
  have goes : forall (call : Nat) (spread : SpreadCall), call < before.shared.nextCall ->
      weigh Frame.left frames + spread.left < frame.left + (before.shared.spreads call).left ->
      shared = before.shared.onSpread call spread ->
      Stacked.total Frame.left (before.replaceTop thread shared (frames ++ rest)) +
          ∑ call ∈ Finset.range before.shared.nextCall, (shared.spreads call).left + 1 ≤
        before.total Frame.left + ∑ call ∈ Finset.range before.shared.nextCall, (before.shared.spreads call).left := by
    rintro call spread made nearer rfl
    have sum := sum_range_update SpreadCall.left before.shared.spreads made spread
    change _ + ∑ call ∈ _, (Function.update before.shared.spreads _ spread call).left + 1 ≤ _
    omega
  cases move with
  | point call point spread points step =>
      have made := sound.known thread _ member call point rfl
      have nearer := step.left_lt (sound.placed thread _ member call point rfl) (sound.tallied call)
      have weight : weigh Frame.left (points.map (Frame.spread call)) = (points.map Point.left).sum := by
        rw [weigh, List.map_map]
        rfl
      have less := goes call spread made (by rw [weight]; exact nearer) rfl
      exact less
  | callEmpty | call => exact absurd same (Nat.succ_ne_self _)
  | callback call index queued =>
      have made := sound.made_of_queued queued
      have inside := (sound.tallied call).inside index (by rw [queued]; decide)
      exact goes call _ made (Nat.add_lt_add_left (advances_setStage inside queued .start).left 0) rfl
  | task | taskReturns =>
      change _ + 0 = _ + 0 at total
      change _ + _ + 0 ≤ _
      omega

/-- A run without new calls is no longer than what is left of the calls. -/
theorem SpreadRun.steps_le (reachable : (windowsSystem build inPool).Reachable state) {steps : Nat}
    (run : SpreadRun build state steps later) : steps + remaining later ≤ remaining state := by
  induction run with
  | start => exact Nat.le_of_eq (Nat.zero_add _)
  | step thread frame rest shared frames earlier place move same inductionHypothesis =>
      have sound := sound_of_reachable (reachable.continues earlier.continues)
      have nearer := sound.remaining_step place move same
      omega

/-! ## What lies on what -/

/-- What a thread may be doing on top of something else. -/
inductive Frame.Above : Frame -> Frame -> Prop
  | task : Above .task .worker
  | callback (call index : Nat) (phase : Phase) : Above (.spread call (.executing .pool index phase)) .worker
  | call (call : Nat) (point : Point) (lower : Frame) : point.ofCaller = 1 -> lower = .outside ∨ lower = .task ->
      Above (.spread call point) lower
  /-- user code that executes a chunk has made a later call -/
  | nested (newer call : Nat) (point : Point) (host : Host) (index : Nat) : point.ofCaller = 1 -> call < newer ->
      Above (.spread newer point) (.spread call (.executing host index .running))

/-- The frames of a thread, down to what it does when it does nothing else. -/
inductive Grounded (ground : Frame) : List Frame -> Prop
  | ground : Grounded ground [ground]
  | above {upper lower : Frame} {rest : List Frame} :
      upper.Above lower -> Grounded ground (lower :: rest) -> Grounded ground (upper :: lower :: rest)

theorem PointStep.points_cases (step : PointStep spread point spread' points) (call : Nat) : points = [] ∨
    Exists fun next => points = [next] ∧
      forall lower, Frame.Above (.spread call point) lower -> Frame.Above (.spread call next) lower := by
  have same : forall next : Point, next.ofCaller = 1 -> point.ofCaller = 1 ->
      forall lower, Frame.Above (.spread call point) lower -> Frame.Above (.spread call next) lower := by
    intro next caller was lower above
    cases above with
    | callback => cases was
    | call _ _ _ _ ground => exact .call call next lower caller ground
    | nested _ older _ host index _ less => exact .nested call older next host index caller less
  cases step with
  | countDownLast | finished => exact Or.inl rfl
  | submitted | countDown => exact Or.inr ⟨_, rfl, same _ (Point.ofCaller_head _ _) rfl⟩
  | refused | wait => exact Or.inr ⟨_, rfl, same _ rfl rfl⟩
  | ran host index =>
      refine Or.inr ⟨_, rfl, ?_⟩
      cases host with
      | caller => exact same _ rfl rfl
      | pool =>
          intro lower above
          cases above with
          | callback => exact .callback call index .leaving
          | call _ _ _ never | nested _ _ _ _ _ never => cases never

/-- What a thread does when it does nothing else. -/
def ground (inPool : Thread -> Bool) (thread : Thread) : Frame :=
  if inPool thread then .worker else .outside

omit [Fintype Thread] [DecidableEq Thread] in
theorem ground_cases (inPool : Thread -> Bool) (thread : Thread) :
    ground inPool thread = .worker ∨ ground inPool thread = .outside := by
  cases kind : inPool thread
  · exact Or.inr (if_neg (by rw [kind]; exact nofun))
  · exact Or.inl (if_pos kind)

omit [Fintype Thread] [DecidableEq Thread] in
theorem above_of_mayCall {frame : Frame} {newer : Nat} (mayCall : frame.mayCall = true) (caller : point.ofCaller = 1)
    (older : forall call other, frame = .spread call other -> call < newer) : Frame.Above (.spread newer point) frame := by
  cases frame with
  | outside => exact .call newer point _ caller (Or.inl rfl)
  | task => exact .call newer point _ caller (Or.inr rfl)
  | worker => cases mayCall
  | spread call other =>
      cases other with
      | executing host index phase =>
          cases phase with
          | running => exact .nested newer call point host index caller (older call _ rfl)
          | leaving => cases mayCall
      | _ => cases mayCall

omit [Fintype Thread] [DecidableEq Thread] in
theorem Grounded.step {thread : Thread} {base frame : Frame} {rest frames : List Frame} {shared : Shared}
    (grounded : Grounded base (frame :: rest)) (idle : base = .worker ∨ base = .outside)
    (older : forall call point, frame = .spread call point -> call < before.shared.nextCall)
    (move : WindowsStep build before.callStack thread before.shared frame shared frames) :
    Grounded base (frames ++ rest) := by
  cases move with
  | point call point spread points step =>
      cases grounded with
      | ground => rcases idle with never | never <;> cases never
      | above above below =>
          rcases step.points_cases call with rfl | ⟨next, rfl, kept⟩
          · exact below
          · exact .above (kept _ above) below
  | callEmpty frame mayCall => exact .above (above_of_mayCall mayCall rfl older) grounded
  | call frame iterations mayCall => exact .above (above_of_mayCall mayCall rfl older) grounded
  | callback call index => exact .above (.callback call index .running) grounded
  | task => exact .above .task grounded
  | taskReturns =>
      cases grounded with
      | ground => rcases idle with never | never <;> cases never
      | above _ below => exact below

theorem grounded_of_reachable (reachable : (windowsSystem build inPool).Reachable state) (thread : Thread) :
    Grounded (ground inPool thread) (state.callStack thread) := by
  revert thread
  apply reachable.invariant
  · rintro _ rfl thread
    exact .ground
  · intro before after reached grounded move thread
    cases move with
    | top mover frame rest shared frames place step =>
        by_cases same : thread = mover
        · subst same
          rw [callStack_replaceTop]
          have own := grounded thread
          rw [place] at own
          refine own.step ?_ ?_ step
          · exact ground_cases inPool thread
          · intro call point here
            have member : frame ∈ before.callStack thread := by
              rw [place]
              exact List.mem_cons_self
            exact (sound_of_reachable reached).known thread frame member call point here
        · rw [callStack_replaceTop_of_ne before same]
          exact grounded thread

/-- What is not on top of a stack waits for a call that has been made later. -/
theorem Grounded.buried {base : Frame} {stack : List Frame} {call : Nat} (grounded : Grounded base stack)
    (idle : base = .worker ∨ base = .outside) (member : .spread call point ∈ stack) :
    (Exists fun rest => stack = .spread call point :: rest) ∨
      Exists fun newer => Exists fun other => .spread newer other ∈ stack ∧ other.ofCaller = 1 ∧ call < newer := by
  induction grounded with
  | ground =>
      rw [← List.mem_singleton.mp member] at idle
      rcases idle with never | never <;> cases never
  | @above upper lower rest above _ inductionHypothesis =>
      rcases List.mem_cons.mp member with here | below
      · exact Or.inl ⟨_, by rw [here]⟩
      · right
        rcases inductionHypothesis below with ⟨rest, same⟩ | ⟨newer, other, inside, caller, later⟩
        · cases same
          cases above with
          | call _ _ _ _ never => rcases never with never | never <;> cases never
          | nested newer _ other _ _ caller later => exact ⟨newer, other, List.mem_cons_self, caller, later⟩
        · exact ⟨newer, other, List.mem_cons_of_mem _ inside, caller, later⟩

/-! ## Going on -/

/-- Each thread of the pool does something else, or waits in a call it has made. -/
def PoolTaken (inPool : Thread -> Bool) (state : Stacked Thread Frame Shared) : Prop :=
  forall thread, inPool thread = true -> Exists fun top => Exists fun rest => state.callStack thread = top :: rest ∧
    (top = .task ∨ Exists fun call => top = .spread call .wait ∧ (state.shared.spreads call).latch ≠ 0)

/-- Whoever does not wait can go on. -/
theorem exists_pointStep (spread : SpreadCall) (point : Point) (free : point = .wait -> spread.latch = 0) :
    Exists fun spread' => Exists fun points => PointStep spread point spread' points := by
  cases point with
  | submit index => exact ⟨_, _, .submitted index⟩
  | executing host index phase =>
      cases phase with
      | running => exact ⟨_, _, .ran host index⟩
      | leaving =>
          cases host with
          | caller => exact ⟨_, _, .countDown index⟩
          | pool => exact ⟨_, _, .countDownLast index⟩
  | wait => exact ⟨_, _, .wait (free rfl)⟩
  | finished => exact ⟨_, _, .finished⟩

section Progress

variable {thread : Thread} {call : Nat} {rest : List Frame}

omit [Fintype Thread] in
theorem run_of_point (place : state.callStack thread = .spread call point :: rest)
    (free : point = .wait -> (state.shared.spreads call).latch = 0) : Exists fun next => SpreadRun build state 1 next := by
  obtain ⟨spread, points, step⟩ := exists_pointStep (state.shared.spreads call) point free
  exact ⟨_, .step thread _ rest _ _ .start place (.point call point spread points step) rfl⟩

omit [Fintype Thread] in
theorem run_of_queued {index : Nat} (place : state.callStack thread = .worker :: rest)
    (queued : (state.shared.spreads call).stage index = .queued) : Exists fun next => SpreadRun build state 1 next :=
  ⟨_, .step thread _ rest _ _ .start place (.callback call index queued) rfl⟩

/-- When nobody can go on and a chunk is queued, the pool is taken. -/
theorem poolTaken_of_queued (reachable : (windowsSystem build inPool).Reachable state)
    (stuck : ¬ Exists fun next => SpreadRun build state 1 next) {index : Nat}
    (queued : (state.shared.spreads call).stage index = .queued) : PoolTaken inPool state := by
  intro thread inside
  have grounded := grounded_of_reachable reachable thread
  rw [ground, if_pos inside] at grounded
  generalize place : state.callStack thread = stack at grounded
  cases grounded with
  | ground => exact absurd (run_of_queued place queued) stuck
  | @above upper lower rest above =>
      refine ⟨upper, lower :: rest, rfl, ?_⟩
      have taken : forall other point, upper = .spread other point ->
          point = .wait ∧ (state.shared.spreads other).latch ≠ 0 := by
        rintro other point rfl
        have waits : ¬ (point = .wait -> (state.shared.spreads other).latch = 0) :=
          fun free => stuck (run_of_point place free)
        exact Classical.not_imp.mp waits
      cases upper with
      | task => exact Or.inl rfl
      | spread other point =>
          obtain ⟨rfl, busy⟩ := taken other point rfl
          exact Or.inr ⟨other, rfl, busy⟩
      | outside | worker => cases above

/-- A chunk that has not been counted down, while the latch has not come to zero. -/
theorem SpreadCall.Tallied.exists_uncounted (tallied : spread.Tallied) (open_ : spread.latch ≠ 0) :
    Exists fun index => index < spread.chunks ∧ spread.stage index ≠ .counted := by
  by_contra all
  apply open_
  have full : spread.countedChunks = Finset.range spread.chunks := by
    apply Finset.filter_true_of_mem
    intro index member
    by_contra uncounted
    exact all ⟨index, Finset.mem_range.mp member, uncounted⟩
  have latch := tallied.latch
  rw [full, Finset.card_range] at latch
  omega

/-- A call that has not returned goes on, or somebody it waits for does, or the pool
is taken.  By induction from the latest call downwards. -/
theorem goes_on_of_live (reachable : (windowsSystem build inPool).Reachable state) (live : callStage state call = .live) :
    (Exists fun next => SpreadRun build state 1 next) ∨ PoolTaken inPool state := by
  by_cases moves : Exists fun next => SpreadRun build state 1 next
  · exact Or.inl moves
  right
  have sound := sound_of_reachable reachable
  induction span : state.shared.nextCall - call using Nat.strong_induction_on generalizing call with
  | h bound inductionHypothesis =>
      have made := made_of_live live
      -- a frame that is not on top waits for a later call
      have top : forall thread point, .spread call point ∈ state.callStack thread ->
          (Exists fun rest => state.callStack thread = .spread call point :: rest) ∨ PoolTaken inPool state := by
        intro thread point member
        rcases (grounded_of_reachable reachable thread).buried (ground_cases inPool thread) member with
          onTop | ⟨newer, other, inside, caller, later⟩
        · exact Or.inl onTop
        · right
          have known := sound.known thread _ inside newer other rfl
          have weight := weight_le_total (Frame.weightOf newer Point.ofCaller) state inside
          rw [Frame.weightOf_spread, caller] at weight
          exact inductionHypothesis _ (by omega) (callStage_of_made known weight) rfl
      obtain ⟨caller, point, member, ofCaller⟩ := caller_of_live live
      rcases top caller point member with ⟨rest, place⟩ | taken
      · have waits : ¬ (point = .wait -> (state.shared.spreads call).latch = 0) :=
          fun free => moves (run_of_point place free)
        obtain ⟨rfl, busy⟩ := Classical.not_imp.mp waits
        obtain ⟨index, inside, uncounted⟩ := (sound.tallied call).exists_uncounted busy
        have submitted : (state.shared.spreads call).stage index ≠ .unsubmitted := by
          intro fresh
          have past := (sound.placed caller _ member call .wait rfl index).mp fresh
          omega
        by_cases queued : (state.shared.spreads call).stage index = .queued
        · exact poolTaken_of_queued reachable moves queued
        · have busyChunk : ((state.shared.spreads call).stage index).busy = 1 := by
            generalize (state.shared.spreads call).stage index = stage at uncounted submitted queued
            cases stage with
            | running | leaving => rfl
            | unsubmitted => exact absurd rfl submitted
            | queued => exact absurd rfl queued
            | counted => exact absurd rfl uncounted
          have executed := sound.executed call index
          rw [busyChunk] at executed
          obtain ⟨thread, frame, present, weight⟩ := (total_pos_iff _ _).mp (Nat.lt_of_lt_of_eq Nat.one_pos executed.symm)
          obtain ⟨executing, rfl, own⟩ := Frame.exists_of_weightOf (Point.executes index) weight
          rcases top thread executing present with ⟨below, here⟩ | taken
          · refine absurd (run_of_point here ?_) moves
            rintro rfl
            cases own
          · exact taken
      · exact taken

end Progress

/-- However the threads go on with their spreads, they take a bounded number of steps
as long as no call is made, and until a call has returned one of them can go on,
unless every thread of the pool is taken: it is busy with something else, or waits
in a call that user code has made on it. -/
theorem spreads_end (build : Build) (inPool : Thread -> Bool) (state later : Stacked Thread Frame Shared)
    (reachable : (windowsSystem build inPool).Reachable state) (steps : Nat) (run : SpreadRun build state steps later) :
    steps ≤ remaining state ∧ forall call, call < later.shared.nextCall -> SpreadReturned call later ∨
      (Exists fun next => SpreadRun build later 1 next) ∨ PoolTaken inPool later := by
  constructor
  · exact Nat.le_trans (Nat.le_add_right _ _) (run.steps_le reachable)
  · intro call made
    rcases live_or_returned made with live | returned
    · exact Or.inr (goes_on_of_live (reachable.continues run.continues) live)
    · exact Or.inl ((spreadReturned_iff later call).mp returned)

/-! ## The end of the pool -/

/-- The only thread of the pool has made a call, and waits for the chunk it has
handed to the pool. -/
def hungState : Stacked Unit Frame Shared :=
  oneThread (onlyCall ((SpreadCall.create oneBuild 1).setStage 0 .queued)) [.spread 0 .wait, .task, .worker]

theorem hungState_reachable : (windowsSystem oneBuild fun _ => true).Reachable hungState := by
  have start : (windowsSystem oneBuild fun _ => true).Reachable (oneThread .fresh [.worker]) := .initial rfl
  have busy : (windowsSystem oneBuild fun _ => true).Reachable (oneThread .fresh [.task, .worker]) :=
    oneThread_step start .task
  have called : (windowsSystem oneBuild fun _ => true).Reachable
      (oneThread (onlyCall (.create oneBuild 1)) [.spread 0 (.submit 0), .task, .worker]) :=
    oneThread_step busy (.call .task 1 rfl (by decide))
  exact onlyCall_step called (.submitted 0)

/-- Nothing happens any more. -/
theorem hungState_stuck {after : Stacked Unit Frame Shared} : ¬ Stacked.Step (WindowsStep oneBuild) hungState after := by
  intro move
  cases move with
  | top thread frame rest shared frames place step =>
      cases place
      cases step with
      | point call point spread points step =>
          cases step with
          | wait zero => cases zero
      | callEmpty _ mayCall | call _ _ mayCall => cases mayCall

/-- A pool of one thread hangs when its thread waits for a chunk that only it can execute. -/
theorem spreads_end_hung : ¬ SpreadReturned 0 hungState ∧ PoolTaken (fun _ => true) hungState := by
  have waits : ¬ SpreadReturned 0 hungState := fun returned => Nat.one_ne_zero (returned.2 () .wait List.mem_cons_self)
  refine ⟨waits, ?_⟩
  have ending := (spreads_end oneBuild (fun _ => true) hungState hungState hungState_reachable 0 .start).2 0 Nat.one_pos
  rcases ending with returned | ⟨next, run⟩ | taken
  · exact absurd returned waits
  · have later : (windowsSystem oneBuild fun _ => true).Continues hungState next := run.continues
    rcases later.cases_head with same | ⟨after, move, _⟩
    · have fewer := run.steps_le hungState_reachable
      rw [← same] at fewer
      omega
    · exact absurd move hungState_stuck
  · exact taken

end Windows
end Native
end Sweater
