import Sweater.Interleaving.Reachability
import Sweater.Interleaving.Census
import Mathlib.Data.BitVec
import Mathlib.Tactic.LinearCombination

namespace Sweater
namespace Interleaving

universe u v w

/-!
# Threads with call stacks

Threads share a state, and each thread has a stack of frames.  A step looks at
the top frame of one thread only: it changes the shared state and replaces the
top frame by some frames (several for a call, none for a return).  Everything
about the program is in the relation between these; the guards of a step may
also look at the stacks of the other threads.

`Balanced` and `AtMost` are for quantities that are counted over all frames:
their rules compare what a step adds with what it takes away.  `frames_step` is
for facts about single frames, which the steps of other frames leave alone.
`Noted` adds an observer to a program, for what a state does not tell any more.
-/

variable {Thread : Type u} {Frame : Type v} {Shared : Type w}

/-- The shared state and the stacks; the top of a stack is its head. -/
structure Stacked (Thread : Type u) (Frame : Type v) (Shared : Type w) where
  shared : Shared
  callStack : Thread -> List Frame

/-- The weight of a stack is the sum over its frames. -/
def weigh (weight : Frame -> Nat) (stack : List Frame) : Nat := (stack.map weight).sum

@[simp] theorem weigh_nil (weight : Frame -> Nat) : weigh weight [] = 0 := rfl

@[simp] theorem weigh_cons (weight : Frame -> Nat) (frame : Frame) (rest : List Frame) :
    weigh weight (frame :: rest) = weight frame + weigh weight rest := by
  simp [weigh]

@[simp] theorem weigh_append (weight : Frame -> Nat) (first second : List Frame) :
    weigh weight (first ++ second) = weigh weight first + weigh weight second := by
  simp [weigh]

theorem weight_le_weigh (weight : Frame -> Nat) {frame : Frame} {stack : List Frame}
    (member : frame ∈ stack) : weight frame ≤ weigh weight stack := by
  induction stack with
  | nil => cases member
  | cons top rest inductionHypothesis =>
      rw [weigh_cons]
      rcases List.mem_cons.mp member with rfl | deeper
      · exact Nat.le_add_right _ _
      · exact Nat.le_trans (inductionHypothesis deeper) (Nat.le_add_left _ _)

theorem weigh_eq_zero_iff (weight : Frame -> Nat) (stack : List Frame) :
    weigh weight stack = 0 ↔ forall frame, frame ∈ stack -> weight frame = 0 := by
  induction stack with
  | nil => simp
  | cons top rest inductionHypothesis =>
      rw [weigh_cons, Nat.add_eq_zero_iff, inductionHypothesis]
      simp

namespace Stacked

/-- A step of a top frame: the shared state afterwards and the frames that take
its place. -/
abbrev FrameStep (Thread : Type u) (Frame : Type v) (Shared : Type w) :=
  (Thread -> List Frame) -> Thread -> Shared -> Frame -> Shared -> List Frame -> Prop

section Steps

variable [DecidableEq Thread]

/-- The state after a step of one thread. -/
def replaceTop (state : Stacked Thread Frame Shared) (thread : Thread) (shared : Shared)
    (frames : List Frame) : Stacked Thread Frame Shared :=
  ⟨shared, Function.update state.callStack thread frames⟩

@[simp] theorem callStack_replaceTop (state : Stacked Thread Frame Shared) (thread : Thread) (shared : Shared)
    (frames : List Frame) : (state.replaceTop thread shared frames).callStack thread = frames :=
  Function.update_self _ _ _

theorem callStack_replaceTop_of_ne (state : Stacked Thread Frame Shared) {thread other : Thread}
    (different : other ≠ thread) (shared : Shared) (frames : List Frame) :
    (state.replaceTop thread shared frames).callStack other = state.callStack other :=
  Function.update_of_ne different _ _

inductive Step (frameStep : FrameStep Thread Frame Shared) :
    Stacked Thread Frame Shared -> Stacked Thread Frame Shared -> Prop
  | top {state : Stacked Thread Frame Shared} (thread : Thread) (frame : Frame) (rest : List Frame)
      (shared : Shared) (frames : List Frame) :
      state.callStack thread = frame :: rest ->
      frameStep state.callStack thread state.shared frame shared frames ->
      Step frameStep state (state.replaceTop thread shared (frames ++ rest))

end Steps

/-! ## An observer -/

section Observer

variable {Note : Type*}

/-- A step of a frame, of which an observer takes note.  He sees who makes the
step, what it starts from and the frames that it leaves. -/
def Noted (frameStep : FrameStep Thread Frame Shared)
    (watch : Note -> Thread -> Shared -> Frame -> List Frame -> Note) :
    FrameStep Thread Frame (Shared × Note) :=
  fun callStack thread watched frame watched' frames =>
    frameStep callStack thread watched.1 frame watched'.1 frames ∧
      watched'.2 = watch watched.2 thread watched.1 frame frames

/-- What there is without the observer. -/
def unwatched (state : Stacked Thread Frame (Shared × Note)) : Stacked Thread Frame Shared :=
  ⟨state.shared.1, state.callStack⟩

/-- The observer does not interfere. -/
theorem Step.unwatched [DecidableEq Thread] {frameStep : FrameStep Thread Frame Shared}
    {watch : Note -> Thread -> Shared -> Frame -> List Frame -> Note}
    {before after : Stacked Thread Frame (Shared × Note)} (move : Step (Noted frameStep watch) before after) :
    Step frameStep before.unwatched after.unwatched := by
  cases move with
  | top thread frame rest shared frames place localStep =>
      exact .top thread frame rest shared.1 frames place localStep.1

end Observer

variable [Fintype Thread]

/-- The weight of all frames of all threads. -/
def total (weight : Frame -> Nat) (state : Stacked Thread Frame Shared) : Nat :=
  census (weigh weight) state.callStack

theorem weight_le_total (weight : Frame -> Nat) (state : Stacked Thread Frame Shared) {thread : Thread}
    {frame : Frame} (member : frame ∈ state.callStack thread) : weight frame ≤ state.total weight :=
  Nat.le_trans (weight_le_weigh weight member) (weight_le_census (weigh weight) state.callStack thread)

theorem total_eq_zero_iff (weight : Frame -> Nat) (state : Stacked Thread Frame Shared) :
    state.total weight = 0 ↔ forall thread frame, frame ∈ state.callStack thread -> weight frame = 0 := by
  rw [total, census_eq_zero_iff]
  simp only [weigh_eq_zero_iff]

theorem total_pos_iff (weight : Frame -> Nat) (state : Stacked Thread Frame Shared) :
    0 < state.total weight ↔
      Exists fun thread => Exists fun frame => frame ∈ state.callStack thread ∧ 0 < weight frame := by
  rw [Nat.pos_iff_ne_zero, Ne, total_eq_zero_iff]
  simp only [not_forall, Nat.pos_iff_ne_zero, exists_prop]

theorem total_le_total {weight weight' : Frame -> Nat} (state : Stacked Thread Frame Shared)
    (smaller : forall frame, weight frame ≤ weight' frame) : state.total weight ≤ state.total weight' := by
  apply census_le_census
  intro thread
  generalize state.callStack thread = stack
  induction stack with
  | nil => exact Nat.le_refl _
  | cons top rest inductionHypothesis =>
      rw [weigh_cons, weigh_cons]
      exact Nat.add_le_add (smaller top) inductionHypothesis

theorem total_add (weight weight' : Frame -> Nat) (state : Stacked Thread Frame Shared) :
    state.total (fun frame => weight frame + weight' frame) =
      state.total weight + state.total weight' := by
  unfold total
  rw [← census_add]
  apply census_congr
  intro thread
  generalize state.callStack thread = stack
  induction stack with
  | nil => rfl
  | cons top rest inductionHypothesis =>
      simp only [weigh_cons] at inductionHypothesis ⊢
      omega

variable [DecidableEq Thread]

theorem total_replaceTop (weight : Frame -> Nat) (state : Stacked Thread Frame Shared) {thread : Thread}
    {frame : Frame} {rest : List Frame} (place : state.callStack thread = frame :: rest)
    (shared : Shared) (frames : List Frame) :
    (state.replaceTop thread shared (frames ++ rest)).total weight + weight frame =
      state.total weight + weigh weight frames := by
  have moved := census_update (weigh weight) state.callStack thread (frames ++ rest)
  rw [place, weigh_cons, weigh_append] at moved
  change census (weigh weight) (Function.update state.callStack thread (frames ++ rest)) + _ =
    census (weigh weight) state.callStack + _
  omega

/-! ## Balances -/

/-- A quantity of the shared state that is always the total weight of the
frames together with another quantity of the shared state. -/
def Balanced (weight : Frame -> Nat) (left right : Shared -> Nat)
    (state : Stacked Thread Frame Shared) : Prop :=
  left state.shared = state.total weight + right state.shared

/-- A step keeps a balance if it adds as much on one side as on the other. -/
theorem Balanced.step {frameStep : FrameStep Thread Frame Shared} {weight : Frame -> Nat}
    {left right : Shared -> Nat} {before after : Stacked Thread Frame Shared}
    (balanced : Balanced weight left right before) (move : Step frameStep before after)
    (exchange : forall thread frame shared frames,
      frameStep before.callStack thread before.shared frame shared frames ->
      left shared + weight frame + right before.shared =
        left before.shared + weigh weight frames + right shared) :
    Balanced weight left right after := by
  cases move with
  | top thread frame rest shared frames place localStep =>
      have moved := total_replaceTop weight before place shared frames
      have exchanged := exchange thread frame shared frames localStep
      unfold Balanced at balanced ⊢
      change left shared = _ + right shared
      omega

/-! ## Balances of machine words -/

/-- A word that keeps a balance modulo its range.  The frames of the one kind
have still to add to the word what the others have been given already. -/
def BalancedWord {width : Nat} (word : Shared -> BitVec width) (late early : Frame -> Nat)
    (right : Shared -> Nat) (state : Stacked Thread Frame Shared) : Prop :=
  word state.shared + BitVec.ofNat width (state.total late) =
    BitVec.ofNat width (state.total early + right state.shared)

/-- A step keeps the balance of a word if it adds as much on one side as on the
other; the word itself may wrap around. -/
theorem BalancedWord.step {frameStep : FrameStep Thread Frame Shared} {width : Nat}
    {word : Shared -> BitVec width} {late early : Frame -> Nat} {right : Shared -> Nat}
    {before after : Stacked Thread Frame Shared}
    (balanced : BalancedWord word late early right before) (move : Step frameStep before after)
    (exchange : forall thread frame rest shared frames, before.callStack thread = frame :: rest ->
      frameStep before.callStack thread before.shared frame shared frames ->
      after = before.replaceTop thread shared (frames ++ rest) ->
      word shared + BitVec.ofNat width (weigh late frames + early frame + right before.shared) =
        word before.shared + BitVec.ofNat width (late frame + weigh early frames + right shared)) :
    BalancedWord word late early right after := by
  cases move with
  | top thread frame rest shared frames place localStep =>
      have exchanged := exchange thread frame rest shared frames place localStep rfl
      have movedLate := congrArg (BitVec.ofNat width) (total_replaceTop late before place shared frames)
      have movedEarly := congrArg (BitVec.ofNat width) (total_replaceTop early before place shared frames)
      unfold BalancedWord at balanced ⊢
      change word shared + _ = BitVec.ofNat width (_ + right shared)
      simp only [BitVec.ofNat_add] at balanced exchanged movedLate movedEarly ⊢
      linear_combination exchanged + balanced + movedLate - movedEarly

/-! ## Bounds -/

/-- What a balance becomes where something may get lost on the way. -/
def AtMost (weight : Frame -> Nat) (left right : Shared -> Nat)
    (state : Stacked Thread Frame Shared) : Prop :=
  state.total weight + right state.shared ≤ left state.shared

/-- A step keeps a bound if it does not add more below than above. -/
theorem AtMost.step {frameStep : FrameStep Thread Frame Shared} {weight : Frame -> Nat}
    {left right : Shared -> Nat} {before after : Stacked Thread Frame Shared}
    (bounded : AtMost weight left right before) (move : Step frameStep before after)
    (exchange : forall thread frame shared frames,
      frameStep before.callStack thread before.shared frame shared frames ->
      left before.shared + weigh weight frames + right shared ≤
        left shared + weight frame + right before.shared) :
    AtMost weight left right after := by
  cases move with
  | top thread frame rest shared frames place localStep =>
      have moved := total_replaceTop weight before place shared frames
      have exchanged := exchange thread frame shared frames localStep
      unfold AtMost at bounded ⊢
      change _ + right shared ≤ left shared
      omega

/-! ## Facts about single frames -/

omit [DecidableEq Thread] in
/-- A frame that is not on top of the given thread, so that both count. -/
theorem total_two (weight : Frame -> Nat) (state : Stacked Thread Frame Shared) {thread other : Thread}
    {top frame : Frame} {rest : List Frame} (place : state.callStack thread = top :: rest)
    (elsewhere : (other = thread ∧ frame ∈ rest) ∨ (other ≠ thread ∧ frame ∈ state.callStack other)) :
    weight top + weight frame ≤ state.total weight := by
  rcases elsewhere with ⟨_, below⟩ | ⟨different, member⟩
  · have whole := weight_le_census (weigh weight) state.callStack thread
    rw [place, weigh_cons] at whole
    exact Nat.le_trans (Nat.add_le_add_left (weight_le_weigh weight below) _) whole
  · have pair := weight_add_weight_le_census (weigh weight) state.callStack different.symm
    have topWeight : weight top ≤ weigh weight (state.callStack thread) := by
      rw [place, weigh_cons]
      exact Nat.le_add_right _ _
    exact Nat.le_trans (Nat.add_le_add topWeight (weight_le_weigh weight member)) pair

omit [Fintype Thread] in
/-- Where a frame of the state after a step comes from. -/
theorem mem_replaceTop {state : Stacked Thread Frame Shared} {thread : Thread} {top : Frame}
    {rest : List Frame} (place : state.callStack thread = top :: rest) {shared : Shared} {frames : List Frame}
    {other : Thread} {frame : Frame}
    (member : frame ∈ (state.replaceTop thread shared (frames ++ rest)).callStack other) :
    (other = thread ∧ frame ∈ frames) ∨
      ((other = thread ∧ frame ∈ rest) ∨ (other ≠ thread ∧ frame ∈ state.callStack other)) := by
  by_cases same : other = thread
  · subst same
    rw [callStack_replaceTop, List.mem_append] at member
    rcases member with new | below
    · exact Or.inl ⟨rfl, new⟩
    · exact Or.inr (Or.inl ⟨rfl, below⟩)
  · rw [callStack_replaceTop_of_ne state same] at member
    exact Or.inr (Or.inr ⟨same, member⟩)

omit [Fintype Thread] [DecidableEq Thread] in
theorem mem_of_elsewhere {state : Stacked Thread Frame Shared} {thread other : Thread} {top frame : Frame}
    {rest : List Frame} (place : state.callStack thread = top :: rest)
    (elsewhere : (other = thread ∧ frame ∈ rest) ∨ (other ≠ thread ∧ frame ∈ state.callStack other)) :
    frame ∈ state.callStack other := by
  rcases elsewhere with ⟨rfl, below⟩ | ⟨_, member⟩
  · rw [place]
    exact List.mem_cons_of_mem _ below
  · exact member

omit [Fintype Thread] in
/-- A fact about every frame is kept if it holds of the new frames and if the
step leaves it alone for all others. -/
theorem frames_step {frameStep : FrameStep Thread Frame Shared} {before after : Stacked Thread Frame Shared}
    (move : Step frameStep before after)
    (holds : Stacked Thread Frame Shared -> Thread -> Frame -> Prop)
    (earlier : forall thread frame, frame ∈ before.callStack thread -> holds before thread frame)
    (new : forall thread top rest shared frames, before.callStack thread = top :: rest ->
      frameStep before.callStack thread before.shared top shared frames ->
      after = before.replaceTop thread shared (frames ++ rest) -> holds before thread top ->
      forall frame, frame ∈ frames -> holds after thread frame)
    (others : forall thread top rest shared frames, before.callStack thread = top :: rest ->
      frameStep before.callStack thread before.shared top shared frames ->
      after = before.replaceTop thread shared (frames ++ rest) ->
      forall other frame, ((other = thread ∧ frame ∈ rest) ∨ (other ≠ thread ∧ frame ∈ before.callStack other)) ->
      holds before other frame -> holds after other frame)
    (thread : Thread) (frame : Frame) (member : frame ∈ after.callStack thread) :
    holds after thread frame := by
  cases move with
  | top mover top rest shared frames place localStep =>
      rcases mem_replaceTop place member with ⟨rfl, fresh⟩ | elsewhere
      · exact new thread top rest shared frames place localStep rfl
          (earlier thread top (by rw [place]; exact List.mem_cons_self)) frame fresh
      · exact others mover top rest shared frames place localStep rfl thread frame elsewhere
          (earlier thread frame (mem_of_elsewhere place elsewhere))

end Stacked

end Interleaving
end Sweater
