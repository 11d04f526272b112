import Sweater.Interleaving.ForkJoin
import Sweater.Native.WindowsSteps

namespace Sweater
namespace Native
namespace Windows

open Machine
open Threading
open Sweater.Spread
open Interleaving
open Interleaving.Stacked

/-!
# What the Windows spread promises

A chunk passes through its stages in order, and each stage but the queue has a
frame on some stack that stands for it.  `Sound` ties the two together.  The
calls are then a fork and a join, the contexts of a call are out of use when it
returns, and the only way to get stuck is that all threads of the pool wait in
spreads of their own.
-/

variable {build : Build} {Thread : Type} {spread spread' : SpreadCall} {point other : Point} {points : List Point}
  {index : Nat}

/-! ## The way of a chunk -/

/-- Where a chunk goes from a stage. -/
inductive ChunkStage.Next : ChunkStage -> ChunkStage -> Prop
  | submit : Next unsubmitted queued
  | refuse : Next unsubmitted running
  | start : Next queued running
  | run : Next running leaving
  | count : Next leaving counted

/-- The chunk is some thread's. -/
def ChunkStage.busy : ChunkStage -> Nat
  | running | leaving => 1
  | _ => 0

/-- The user's function has returned for the chunk. -/
def ChunkStage.ran : ChunkStage -> Nat
  | leaving | counted => 1
  | _ => 0

theorem ChunkStage.Next.submitted {stage next : ChunkStage} (step : Next stage next) : next ≠ .unsubmitted := by
  cases step <;> exact nofun

/-- A step of one chunk. -/
structure Advances (spread spread' : SpreadCall) (index : Nat) (next : ChunkStage) : Prop where
  inside : index < spread.chunks
  order : (spread.stage index).Next next
  iterations : spread'.iterations = spread.iterations
  chunks : spread'.chunks = spread.chunks
  stage : spread'.stage = Function.update spread.stage index next
  latch : spread'.latch = if next = .counted then spread.latch - 1 else spread.latch
  ran : spread'.ran = if next = .leaving then spread.ran ++ [index] else spread.ran

/-- The chunks that have been counted down. -/
def SpreadCall.countedChunks (spread : SpreadCall) : Finset Nat :=
  (Finset.range spread.chunks).filter fun index => spread.stage index = .counted

/-- What the fields of a call say about its chunks. -/
structure SpreadCall.Tallied (spread : SpreadCall) : Prop where
  inside : forall index, spread.stage index ≠ .unsubmitted -> index < spread.chunks
  latch : spread.latch + spread.countedChunks.card = spread.chunks
  ran : forall index, spread.ran.count index = (spread.stage index).ran

theorem tallied_blank : SpreadCall.blank.Tallied where
  inside := fun _ started => absurd rfl started
  latch := rfl
  ran := fun _ => rfl

theorem tallied_create (build : Build) (iterations : BitVec 32) : (SpreadCall.create build iterations).Tallied where
  inside := fun _ started => absurd rfl started
  latch := by
    have none : (SpreadCall.create build iterations).countedChunks = ∅ := Finset.filter_false_of_mem fun _ _ => nofun
    rw [none, Finset.card_empty]
    exact Int.add_zero _
  ran := fun _ => rfl

section Advance

variable {next : ChunkStage} (advances : Advances spread spread' index next)

include advances

theorem Advances.stage_self : spread'.stage index = next := by
  rw [advances.stage, Function.update_self]

theorem Advances.stage_of_ne {other : Nat} (different : other ≠ index) : spread'.stage other = spread.stage other := by
  rw [advances.stage, Function.update_of_ne different]

theorem Advances.countedChunks : spread'.countedChunks.card =
    spread.countedChunks.card + if next = .counted then 1 else 0 := by
  have elsewhere : forall other, other ≠ index -> (other ∈ spread'.countedChunks ↔ other ∈ spread.countedChunks) := by
    intro other different
    rw [SpreadCall.countedChunks, SpreadCall.countedChunks, Finset.mem_filter, Finset.mem_filter, advances.chunks,
      advances.stage_of_ne different]
  have uncounted : index ∉ spread.countedChunks := by
    intro member
    have order := advances.order
    rw [(Finset.mem_filter.mp member).2] at order
    cases order
  have own : index ∈ spread'.countedChunks ↔ next = .counted := by
    rw [SpreadCall.countedChunks, Finset.mem_filter, advances.chunks, advances.stage_self, Finset.mem_range]
    exact and_iff_right advances.inside
  by_cases counted : next = .counted
  · have more : spread'.countedChunks = insert index spread.countedChunks := by
      ext other
      by_cases same : other = index
      · subst same
        simp only [own.mpr counted, Finset.mem_insert_self]
      · rw [elsewhere other same, Finset.mem_insert, or_iff_right same]
    rw [more, Finset.card_insert_of_notMem uncounted, if_pos counted]
  · have same : spread'.countedChunks = spread.countedChunks := by
      ext other
      by_cases same : other = index
      · subst same
        exact iff_of_false (fun member => counted (own.mp member)) uncounted
      · exact elsewhere other same
    rw [same, if_neg counted, Nat.add_zero]

theorem Advances.tallied (tallied : spread.Tallied) : spread'.Tallied where
  inside := by
    intro other started
    rw [advances.chunks]
    by_cases same : other = index
    · rw [same]
      exact advances.inside
    · rw [advances.stage_of_ne same] at started
      exact tallied.inside other started
  latch := by
    have latch := tallied.latch
    rw [advances.latch, advances.countedChunks, advances.chunks]
    split
    · omega
    · omega
  ran := by
    intro other
    have ran := tallied.ran other
    have order := advances.order
    by_cases same : other = index
    · subst same
      rw [advances.stage_self, advances.ran]
      cases order_ : next with
      | leaving =>
          rw [if_pos rfl, List.count_append, List.count_singleton_self]
          rw [order_] at order
          generalize spread.stage other = stage at *
          cases order
          rw [ran]
          rfl
      | counted =>
          rw [if_neg nofun, ran]
          rw [order_] at order
          generalize spread.stage other = stage at *
          cases order
          rfl
      | _ =>
          rw [if_neg nofun, ran]
          rw [order_] at order
          generalize spread.stage other = stage at *
          cases order <;> rfl
    · rw [advances.stage_of_ne same, advances.ran]
      split
      · rw [List.count_append, ran, List.count_singleton, if_neg (fun equal => same (beq_iff_eq.mp equal).symm)]
        exact Nat.add_zero _
      · exact ran

end Advance

/-! ## Where the threads are -/

def Phase.stage : Phase -> ChunkStage
  | running => .running
  | leaving => .leaving

namespace Point

/-- What a thread at a point of a call knows about the chunks. -/
def Placed (spread : SpreadCall) : Point -> Prop
  | submit index => index < spread.chunks ∧ forall chunk, spread.stage chunk = .unsubmitted ↔ index ≤ chunk
  | executing host index phase => spread.stage index = phase.stage ∧
      (host = .caller -> forall chunk, spread.stage chunk = .unsubmitted ↔ index < chunk)
  | wait => forall chunk, spread.stage chunk = .unsubmitted ↔ spread.chunks ≤ chunk
  | finished => forall chunk, chunk < spread.chunks -> spread.stage chunk = .counted

/-- The thread is the one that has called. -/
def ofCaller : Point -> Nat
  | executing .pool _ _ => 0
  | _ => 1

def executes (index : Nat) : Point -> Nat
  | executing _ other _ => if other = index then 1 else 0
  | _ => 0

theorem ofCaller_head (chunks index : Nat) : (head chunks index).ofCaller = 1 := by
  rw [head]
  split <;> rfl

theorem executes_head (chunk chunks index : Nat) : (head chunks index).executes chunk = 0 := by
  rw [head]
  split <;> rfl

/-- The loop goes on behind the last chunk that has been submitted. -/
theorem placed_head (chunks : spread'.chunks = spread.chunks) (inside : index < spread.chunks)
    (submitted : forall chunk, spread'.stage chunk = .unsubmitted ↔ index < chunk) :
    (head spread.chunks (index + 1)).Placed spread' := by
  rw [head]
  split
  · rename_i more
    refine ⟨?_, submitted⟩
    rw [chunks]
    exact more
  · intro chunk
    rw [submitted, chunks]
    omega

end Point

section Points

variable {next : ChunkStage}

/-- Somebody else's chunk goes on. -/
theorem Point.Placed.kept (placed : other.Placed spread) (advances : Advances spread spread' index next)
    (elsewhere : other.executes index = 0) (submitted : spread.stage index = .unsubmitted -> other.ofCaller = 0) :
    other.Placed spread' := by
  have unsubmitted : other.ofCaller = 1 -> forall chunk, spread'.stage chunk = .unsubmitted ↔ spread.stage chunk = .unsubmitted := by
    intro caller chunk
    by_cases same : chunk = index
    · rw [same, advances.stage_self]
      apply iff_of_false advances.order.submitted
      intro fresh
      exact Nat.zero_ne_one ((submitted fresh).symm.trans caller)
    · rw [advances.stage_of_ne same]
  cases other with
  | submit chunk =>
      refine ⟨?_, fun later => (unsubmitted rfl later).trans (placed.2 later)⟩
      rw [advances.chunks]
      exact placed.1
  | executing host chunk phase =>
      have different : chunk ≠ index := by
        intro same
        rw [same] at elsewhere
        exact Nat.one_ne_zero ((if_pos rfl).symm.trans elsewhere)
      constructor
      · rw [advances.stage_of_ne different]
        exact placed.1
      · rintro rfl later
        exact (unsubmitted rfl later).trans (placed.2 rfl later)
  | wait =>
      intro later
      rw [advances.chunks]
      exact (unsubmitted rfl later).trans (placed later)
  | finished =>
      intro chunk inside
      rw [advances.chunks] at inside
      have counted := placed chunk inside
      by_cases same : chunk = index
      · have order := advances.order
        rw [← same, counted] at order
        cases order
      · rw [advances.stage_of_ne same]
        exact counted

theorem advances_setStage {stage : ChunkStage} (inside : index < spread.chunks) (was : spread.stage index = stage)
    (order : stage.Next next) : Advances spread
      { spread.setStage index next with
        latch := if next = .counted then spread.latch - 1 else spread.latch
        ran := if next = .leaving then spread.ran ++ [index] else spread.ran } index next where
  inside := inside
  order := by
    rw [was]
    exact order
  iterations := rfl
  chunks := rfl
  stage := rfl
  latch := rfl
  ran := rfl

/-- What the caller knows when it has come to a chunk. -/
theorem Advances.behind (advances : Advances spread spread' index next)
    (before : forall chunk, chunk ≠ index -> (spread.stage chunk = .unsubmitted ↔ index < chunk)) (chunk : Nat) :
    spread'.stage chunk = .unsubmitted ↔ index < chunk := by
  by_cases same : chunk = index
  · rw [same, advances.stage_self]
    exact iff_of_false advances.order.submitted (Nat.lt_irrefl index)
  · rw [advances.stage_of_ne same]
    exact before chunk same

theorem Point.Placed.submitting (placed : (Point.submit index).Placed spread) (chunk : Nat) (different : chunk ≠ index) :
    spread.stage chunk = .unsubmitted ↔ index < chunk :=
  (placed.2 chunk).trans ⟨fun le => Nat.lt_of_le_of_ne le different.symm, Nat.le_of_lt⟩

theorem SpreadCall.Tallied.all_counted (tallied : spread.Tallied) (zero : spread.latch = 0) :
    Point.finished.Placed spread := by
  have latch := tallied.latch
  have full : spread.countedChunks = Finset.range spread.chunks := by
    apply Finset.eq_of_subset_of_card_le (Finset.filter_subset _ _)
    rw [Finset.card_range]
    change spread.chunks ≤ spread.countedChunks.card
    omega
  intro chunk inside
  have member : chunk ∈ spread.countedChunks := by
    rw [full]
    exact Finset.mem_range.mpr inside
  exact (Finset.mem_filter.mp member).2

/-- What a step does: the caller leaves, or one of the chunks goes on, which the
thread executes or has come to. -/
inductive Does (spread : SpreadCall) : Point -> SpreadCall -> List Point -> Prop
  | waits : Does spread .wait spread [.finished]
  | returns : Does spread .finished spread []
  | advances {point : Point} {spread' : SpreadCall} {points : List Point} (index : Nat) (next : ChunkStage) :
      Advances spread spread' index next ->
      (point.executes index = 1 ∧ spread.stage index ≠ .unsubmitted ∨
        point.ofCaller = 1 ∧ spread.stage index = .unsubmitted) ->
      (forall chunk, (points.map (Point.executes chunk)).sum + (spread.stage chunk).busy =
        point.executes chunk + (spread'.stage chunk).busy) ->
      (points.map Point.ofCaller).sum = point.ofCaller -> Does spread point spread' points

theorem Point.executes_of_ne {host : Host} {phase : Phase} {chunk : Nat} (different : chunk ≠ index) :
    (executing host index phase).executes chunk = 0 :=
  if_neg different.symm

theorem Point.executes_self (host : Host) (index : Nat) (phase : Phase) : (executing host index phase).executes index = 1 :=
  if_pos rfl

/-- One chunk goes on, and a single point takes the place of the point. -/
theorem does_single {stage : ChunkStage} {new : Point} (advances : Advances spread spread' index next)
    (was : spread.stage index = stage)
    (kind : point.executes index = 1 ∧ stage ≠ .unsubmitted ∨ point.ofCaller = 1 ∧ stage = .unsubmitted)
    (own : new.executes index + stage.busy = point.executes index + next.busy)
    (others : forall chunk, chunk ≠ index -> new.executes chunk = 0 ∧ point.executes chunk = 0)
    (caller : new.ofCaller = point.ofCaller) : Does spread point spread' [new] := by
  refine .advances index next advances ?_ ?_ ?_
  · rw [was]
    exact kind
  · intro chunk
    rw [List.map_singleton, List.sum_singleton]
    by_cases same : chunk = index
    · rw [same, was, advances.stage_self]
      exact own
    · rw [(others chunk same).1, (others chunk same).2, advances.stage_of_ne same]
  · rw [List.map_singleton, List.sum_singleton]
    exact caller

theorem PointStep.does (step : PointStep spread point spread' points) (placed : point.Placed spread)
    (tallied : spread.Tallied) : Does spread point spread' points ∧ forall new, new ∈ points -> new.Placed spread' := by
  cases step with
  | submitted index =>
      have fresh : spread.stage index = .unsubmitted := (placed.2 index).mpr (Nat.le_refl index)
      have advances := advances_setStage placed.1 fresh .submit
      refine ⟨does_single advances fresh (Or.inr ⟨rfl, rfl⟩) ?_ ?_ (Point.ofCaller_head _ _), ?_⟩
      · rw [Point.executes_head]
        rfl
      · exact fun chunk _ => ⟨Point.executes_head _ _ _, rfl⟩
      · intro new member
        rw [List.mem_singleton.mp member]
        exact Point.placed_head rfl placed.1 (advances.behind placed.submitting)
  | refused index =>
      have fresh : spread.stage index = .unsubmitted := (placed.2 index).mpr (Nat.le_refl index)
      have advances := advances_setStage placed.1 fresh .refuse
      refine ⟨does_single advances fresh (Or.inr ⟨rfl, rfl⟩) ?_ ?_ rfl, ?_⟩
      · rw [Point.executes_self]
        rfl
      · exact fun chunk different => ⟨Point.executes_of_ne different, rfl⟩
      · intro new member
        rw [List.mem_singleton.mp member]
        exact ⟨advances.stage_self, fun _ => advances.behind placed.submitting⟩
  | ran host index =>
      have inside := tallied.inside index (by rw [placed.1]; exact nofun)
      have advances := advances_setStage inside placed.1 .run
      refine ⟨does_single advances placed.1 (Or.inl ⟨Point.executes_self _ _ _, nofun⟩) ?_ ?_ ?_, ?_⟩
      · rw [Point.executes_self, Point.executes_self]
        rfl
      · exact fun chunk different => ⟨Point.executes_of_ne different, Point.executes_of_ne different⟩
      · cases host <;> rfl
      · intro new member
        rw [List.mem_singleton.mp member]
        refine ⟨advances.stage_self, ?_⟩
        intro caller
        exact advances.behind fun chunk _ => placed.2 caller chunk
  | countDown index =>
      have inside := tallied.inside index (by rw [placed.1]; exact nofun)
      have advances := advances_setStage inside placed.1 .count
      refine ⟨does_single advances placed.1 (Or.inl ⟨Point.executes_self _ _ _, nofun⟩) ?_ ?_ (Point.ofCaller_head _ _), ?_⟩
      · rw [Point.executes_head, Point.executes_self]
        rfl
      · exact fun chunk different => ⟨Point.executes_head _ _ _, Point.executes_of_ne different⟩
      · intro new member
        rw [List.mem_singleton.mp member]
        exact Point.placed_head rfl inside (advances.behind fun chunk _ => placed.2 rfl chunk)
  | countDownLast index =>
      have inside := tallied.inside index (by rw [placed.1]; exact nofun)
      have advances := advances_setStage inside placed.1 .count
      refine ⟨.advances index .counted advances (Or.inl ⟨Point.executes_self _ _ _, ?_⟩) ?_ rfl, nofun⟩
      · rw [placed.1]
        exact nofun
      · intro chunk
        by_cases same : chunk = index
        · rw [same, advances.stage_self, placed.1, Point.executes_self]
          rfl
        · rw [advances.stage_of_ne same, Point.executes_of_ne same]
          rfl
  | wait zero =>
      refine ⟨.waits, ?_⟩
      intro new member
      rw [List.mem_singleton.mp member]
      exact tallied.all_counted zero
  | finished => exact ⟨.returns, nofun⟩

end Points

/-! ## The stacks -/

namespace Frame

/-- The frames of a call, with the weights of their points. -/
def weightOf (call : Nat) (weight : Point -> Nat) : Frame -> Nat
  | .spread other point => if other = call then weight point else 0
  | _ => 0

variable {call : Nat} (weight : Point -> Nat)

theorem weightOf_spread (call : Nat) (point : Point) : (Frame.spread call point).weightOf call weight = weight point :=
  if_pos rfl

theorem weightOf_other {other : Nat} (different : other ≠ call) (point : Point) :
    (Frame.spread other point).weightOf call weight = 0 :=
  if_neg different

theorem weigh_points (call : Nat) (points : List Point) :
    weigh (weightOf call weight) (points.map (Frame.spread call)) = (points.map weight).sum := by
  induction points with
  | nil => rfl
  | cons point rest inductionHypothesis =>
      rw [List.map_cons, weigh_cons, weightOf_spread, inductionHypothesis, List.map_cons, List.sum_cons]

theorem weigh_points_other {other : Nat} (different : other ≠ call) (points : List Point) :
    weigh (weightOf call weight) (points.map (Frame.spread other)) = 0 := by
  induction points with
  | nil => rfl
  | cons point rest inductionHypothesis =>
      rw [List.map_cons, weigh_cons, weightOf_other weight different, inductionHypothesis]

theorem exists_of_weightOf {frame : Frame} (present : 0 < frame.weightOf call weight) :
    Exists fun point => frame = .spread call point ∧ 0 < weight point := by
  cases frame with
  | spread other point =>
      by_cases same : other = call
      · subst same
        rw [weightOf_spread] at present
        exact ⟨point, rfl, present⟩
      · rw [weightOf_other _ same] at present
        cases present
  | _ => cases present

end Frame

namespace Shared

theorem spreads_onSpread (shared : Shared) (call : Nat) (spread : SpreadCall) :
    (shared.onSpread call spread).spreads call = spread :=
  Function.update_self _ _ _

theorem spreads_onSpread_of_ne (shared : Shared) {call other : Nat} (different : other ≠ call) (spread : SpreadCall) :
    (shared.onSpread call spread).spreads other = shared.spreads other :=
  Function.update_of_ne different _ _

end Shared

variable [Fintype Thread] [DecidableEq Thread] {state before after : Stacked Thread Frame Shared} {inPool : Thread -> Bool}

/-- The frames on the stacks stand for the chunks that are under way. -/
structure Sound (state : Stacked Thread Frame Shared) : Prop where
  blank : forall call, state.shared.nextCall ≤ call -> state.shared.spreads call = .blank
  tallied : forall call, (state.shared.spreads call).Tallied
  known : forall thread frame, frame ∈ state.callStack thread ->
    forall call point, frame = .spread call point -> call < state.shared.nextCall
  placed : forall thread frame, frame ∈ state.callStack thread ->
    forall call point, frame = .spread call point -> point.Placed (state.shared.spreads call)
  executed : forall call index, state.total (Frame.weightOf call (Point.executes index)) =
    ((state.shared.spreads call).stage index).busy
  callers : forall call, state.total (Frame.weightOf call Point.ofCaller) ≤ 1

section Steps

variable {thread : Thread} {top : Frame} {rest frames : List Frame} {call : Nat} {spread : SpreadCall} {index : Nat}
  {next : ChunkStage}

/-- A call goes on, by a thread that executes its chunk, has come to it or is
given it by the pool. -/
theorem Sound.advance (sound : Sound before) (place : before.callStack thread = top :: rest)
    (made : call < before.shared.nextCall) (advances : Advances (before.shared.spreads call) spread index next)
    (elsewhere : forall other frame, ((other = thread ∧ frame ∈ rest) ∨ (other ≠ thread ∧ frame ∈ before.callStack other)) ->
      forall point, frame = .spread call point -> point.executes index = 0 ∧
        ((before.shared.spreads call).stage index = .unsubmitted -> point.ofCaller = 0))
    (known : forall frame, frame ∈ frames -> forall other point, frame = .spread other point ->
      other = call ∧ point.Placed spread)
    (executed : forall chunk, weigh (Frame.weightOf call (Point.executes chunk)) frames +
      ((before.shared.spreads call).stage chunk).busy =
        top.weightOf call (Point.executes chunk) + (spread.stage chunk).busy)
    (callers : weigh (Frame.weightOf call Point.ofCaller) frames = top.weightOf call Point.ofCaller)
    (others : forall other weight, other ≠ call -> weigh (Frame.weightOf other weight) frames = top.weightOf other weight) :
    Sound (before.replaceTop thread (before.shared.onSpread call spread) (frames ++ rest)) := by
  have totals := fun weight : Frame -> Nat => total_replaceTop weight before place (before.shared.onSpread call spread) frames
  constructor
  · intro other later
    exact (Shared.spreads_onSpread_of_ne _ (Nat.ne_of_gt (Nat.lt_of_lt_of_le made later)) spread).trans
      (sound.blank other later)
  · intro other
    by_cases same : other = call
    · subst same
      exact (Shared.spreads_onSpread before.shared other spread).symm ▸ advances.tallied (sound.tallied other)
    · exact (Shared.spreads_onSpread_of_ne before.shared same spread).symm ▸ sound.tallied other
  · intro other frame member place' point here
    rcases mem_replaceTop place member with ⟨_, new⟩ | old
    · rw [(known frame new place' point here).1]
      exact made
    · exact sound.known other frame (mem_of_elsewhere place old) place' point here
  · rintro other frame member place' point here
    rcases mem_replaceTop place member with ⟨_, new⟩ | old
    · obtain ⟨same, placed⟩ := known frame new place' point here
      rw [same]
      exact (Shared.spreads_onSpread before.shared call spread).symm ▸ placed
    · have placed := sound.placed other frame (mem_of_elsewhere place old) place' point here
      by_cases same : place' = call
      · subst same
        have apart := elsewhere other frame old point here
        exact (Shared.spreads_onSpread before.shared place' spread).symm ▸ placed.kept advances apart.1 apart.2
      · exact (Shared.spreads_onSpread_of_ne before.shared same spread).symm ▸ placed
  · intro other chunk
    have total := totals (Frame.weightOf other (Point.executes chunk))
    have earlier := sound.executed other chunk
    by_cases same : other = call
    · subst same
      have exchange := executed chunk
      change _ = (((before.shared.onSpread other spread).spreads other).stage chunk).busy
      rw [Shared.spreads_onSpread]
      omega
    · have exchange := others other (Point.executes chunk) same
      change _ = (((before.shared.onSpread call spread).spreads other).stage chunk).busy
      rw [Shared.spreads_onSpread_of_ne _ same]
      omega
  · intro other
    have total := totals (Frame.weightOf other Point.ofCaller)
    have earlier := sound.callers other
    by_cases same : other = call
    · subst same
      omega
    · have exchange := others other Point.ofCaller same
      omega

/-- A step that leaves the calls as they are. -/
theorem Sound.stays (sound : Sound before) (place : before.callStack thread = top :: rest)
    (known : forall frame, frame ∈ frames -> forall call point, frame = .spread call point ->
      call < before.shared.nextCall ∧ point.Placed (before.shared.spreads call))
    (executed : forall call chunk, weigh (Frame.weightOf call (Point.executes chunk)) frames =
      top.weightOf call (Point.executes chunk))
    (callers : forall call, weigh (Frame.weightOf call Point.ofCaller) frames ≤ top.weightOf call Point.ofCaller) :
    Sound (before.replaceTop thread before.shared (frames ++ rest)) := by
  have totals := fun weight : Frame -> Nat => total_replaceTop weight before place before.shared frames
  constructor
  · exact sound.blank
  · exact sound.tallied
  · intro other frame member call point here
    rcases mem_replaceTop place member with ⟨_, new⟩ | old
    · exact (known frame new call point here).1
    · exact sound.known other frame (mem_of_elsewhere place old) call point here
  · intro other frame member call point here
    rcases mem_replaceTop place member with ⟨_, new⟩ | old
    · exact (known frame new call point here).2
    · exact sound.placed other frame (mem_of_elsewhere place old) call point here
  · intro call chunk
    have total := totals (Frame.weightOf call (Point.executes chunk))
    have earlier := sound.executed call chunk
    have exchange := executed call chunk
    change _ = ((before.shared.spreads call).stage chunk).busy
    omega
  · intro call
    have total := totals (Frame.weightOf call Point.ofCaller)
    have earlier := sound.callers call
    have exchange := callers call
    omega

/-- A call is made. -/
theorem Sound.begins {point : Point} (sound : Sound before) (place : before.callStack thread = top :: rest)
    (tallied : spread.Tallied) (fresh : forall chunk, spread.stage chunk = .unsubmitted) (placed : point.Placed spread)
    (executed : forall chunk, point.executes chunk = 0) (caller : point.ofCaller = 1) :
    Sound (before.replaceTop thread (before.shared.begin_ spread)
      ([.spread before.shared.nextCall point, top] ++ rest)) := by
  have totals := fun weight : Frame -> Nat => total_replaceTop weight before place (before.shared.begin_ spread)
    [.spread before.shared.nextCall point, top]
  have own : (before.shared.begin_ spread).spreads before.shared.nextCall = spread := Function.update_self _ _ _
  have older : forall call, call ≠ before.shared.nextCall ->
      (before.shared.begin_ spread).spreads call = before.shared.spreads call :=
    fun call different => Function.update_of_ne different _ _
  have none : forall weight, before.total (Frame.weightOf before.shared.nextCall weight) = 0 := by
    intro weight
    apply (total_eq_zero_iff _ _).mpr
    intro other frame member
    cases frame with
    | spread call point =>
        exact if_neg (Nat.ne_of_lt (sound.known other _ member call point rfl))
    | _ => rfl
  have fields : forall other frame, frame ∈ (before.replaceTop thread (before.shared.begin_ spread)
      ([.spread before.shared.nextCall point, top] ++ rest)).callStack other -> forall call place', frame = .spread call place' ->
      (call = before.shared.nextCall ∧ place' = point) ∨ frame ∈ before.callStack other := by
    intro other frame member call place' here
    rcases mem_replaceTop place member with ⟨same, new⟩ | old
    · rcases List.mem_cons.mp new with made | below
      · rw [here] at made
        cases made
        exact Or.inl ⟨rfl, rfl⟩
      · right
        rw [same, place, List.mem_singleton.mp below]
        exact List.mem_cons_self
    · exact Or.inr (mem_of_elsewhere place old)
  constructor
  · intro call later
    have different : call ≠ before.shared.nextCall := by
      rintro rfl
      exact Nat.not_succ_le_self _ later
    exact (older call different).trans (sound.blank call (Nat.le_of_succ_le later))
  · intro call
    by_cases same : call = before.shared.nextCall
    · rw [same]
      exact own.symm ▸ tallied
    · exact (older call same).symm ▸ sound.tallied call
  · intro other frame member call place' here
    rcases fields other frame member call place' here with ⟨same, _⟩ | old
    · rw [same]
      exact Nat.lt_succ_self _
    · exact Nat.lt_succ_of_lt (sound.known other frame old call place' here)
  · intro other frame member call place' here
    rcases fields other frame member call place' here with ⟨same, same'⟩ | old
    · rw [same, same']
      exact own.symm ▸ placed
    · have known := sound.known other frame old call place' here
      exact (older call (Nat.ne_of_lt known)).symm ▸ sound.placed other frame old call place' here
  · intro call chunk
    have total := totals (Frame.weightOf call (Point.executes chunk))
    rw [weigh_cons, weigh_cons, weigh_nil] at total
    change _ = (((before.shared.begin_ spread).spreads call).stage chunk).busy
    by_cases same : call = before.shared.nextCall
    · subst same
      have nobody := none (Point.executes chunk)
      rw [Frame.weightOf_spread, executed] at total
      rw [own, fresh]
      change _ = 0
      omega
    · have earlier := sound.executed call chunk
      rw [Frame.weightOf_other _ (Ne.symm same)] at total
      rw [older call same]
      omega
  · intro call
    have total := totals (Frame.weightOf call Point.ofCaller)
    rw [weigh_cons, weigh_cons, weigh_nil] at total
    by_cases same : call = before.shared.nextCall
    · subst same
      have nobody := none Point.ofCaller
      rw [Frame.weightOf_spread, caller] at total
      omega
    · have earlier := sound.callers call
      rw [Frame.weightOf_other _ (Ne.symm same)] at total
      omega

omit [DecidableEq Thread] in
/-- While a step is about one chunk of a call, the other threads that are in the
call have nothing to do with it. -/
theorem Sound.apart (sound : Sound before) {point place' : Point} {other : Thread} {frame : Frame}
    (place : before.callStack thread = .spread call point :: rest)
    (kind : point.executes index = 1 ∧ (before.shared.spreads call).stage index ≠ .unsubmitted ∨
      point.ofCaller = 1 ∧ (before.shared.spreads call).stage index = .unsubmitted)
    (elsewhere : (other = thread ∧ frame ∈ rest) ∨ (other ≠ thread ∧ frame ∈ before.callStack other))
    (here : frame = .spread call place') : place'.executes index = 0 ∧
      ((before.shared.spreads call).stage index = .unsubmitted -> place'.ofCaller = 0) := by
  subst here
  have executing := total_two (Frame.weightOf call (Point.executes index)) before place elsewhere
  have calling := total_two (Frame.weightOf call Point.ofCaller) before place elsewhere
  rw [Frame.weightOf_spread, Frame.weightOf_spread] at executing calling
  rw [sound.executed] at executing
  have single := sound.callers call
  rcases kind with ⟨own, submitted⟩ | ⟨own, fresh⟩
  · have one : ((before.shared.spreads call).stage index).busy ≤ 1 := by
      cases (before.shared.spreads call).stage index <;> decide
    exact ⟨by omega, fun fresh => absurd fresh submitted⟩
  · rw [fresh] at executing
    change _ ≤ 0 at executing
    exact ⟨by omega, fun _ => by omega⟩

omit [DecidableEq Thread] in
theorem Sound.made_of_queued (sound : Sound before) (queued : (before.shared.spreads call).stage index = .queued) :
    call < before.shared.nextCall := by
  apply Nat.lt_of_not_le
  intro unmade
  rw [sound.blank call unmade] at queued
  cases queued

theorem Build.narrow (build : Build) : build.concurrency.bits ≤ 16 := by
  cases build.concurrency <;> decide

theorem chunks_pos (build : Build) {iterations : BitVec 32} (some : iterations ≠ 0) :
    0 < (SpreadCall.create build iterations).chunks := by
  have positive : 0 < iterations.toNat := Nat.pos_of_ne_zero fun zero => some (BitVec.eq_of_toNat_eq zero)
  have workers : 0 < build.numWorkers.toNat :=
    Nat.pos_of_ne_zero fun zero => build.staffed (BitVec.eq_of_toNat_eq zero)
  change 0 < (numChunks iterations build.numWorkers).toNat
  rw [toNat_numChunks build.narrow]
  omega

theorem Sound.step (sound : Sound before) (move : Stacked.Step (WindowsStep build) before after) : Sound after := by
  cases move with
  | top thread frame rest shared frames place step =>
      have member : frame ∈ before.callStack thread := by
        rw [place]
        exact List.mem_cons_self
      cases step with
      | point call point spread points step =>
          have made := sound.known thread _ member call point rfl
          obtain ⟨does, new⟩ := step.does (sound.placed thread _ member call point rfl) (sound.tallied call)
          have known : forall frame, frame ∈ points.map (Frame.spread call) -> forall other place', frame = .spread other place' ->
              other = call ∧ place'.Placed spread := by
            intro frame fresh other place' here
            rcases List.mem_map.mp fresh with ⟨place', inside, rfl⟩
            cases here
            exact ⟨rfl, new place' inside⟩
          have others : forall (other : Nat) (weight : Point -> Nat), other ≠ call ->
              weigh (Frame.weightOf other weight) (points.map (Frame.spread call)) =
                (Frame.spread call point).weightOf other weight := by
            intro other weight different
            rw [Frame.weigh_points_other weight different.symm, Frame.weightOf_other weight different.symm]
          have rests : spread = before.shared.spreads call ->
              (forall chunk, (points.map (Point.executes chunk)).sum = point.executes chunk) ->
              (points.map Point.ofCaller).sum ≤ point.ofCaller ->
              Sound (before.replaceTop thread (before.shared.onSpread call spread) (points.map (Frame.spread call) ++ rest)) := by
            rintro rfl executed callers
            have unchanged : before.shared.onSpread call (before.shared.spreads call) = before.shared := by
              rw [Shared.onSpread, Function.update_eq_self]
            rw [unchanged]
            apply sound.stays place
            · intro frame fresh other place' here
              obtain ⟨rfl, placed⟩ := known frame fresh other place' here
              exact ⟨made, placed⟩
            · intro other chunk
              by_cases same : other = call
              · subst same
                rw [Frame.weigh_points, Frame.weightOf_spread, executed]
              · exact others other _ same
            · intro other
              by_cases same : other = call
              · subst same
                rw [Frame.weigh_points, Frame.weightOf_spread]
                exact callers
              · exact Nat.le_of_eq (others other _ same)
          cases does with
          | waits => exact rests rfl (fun _ => rfl) (Nat.le_refl 1)
          | returns => exact rests rfl (fun _ => rfl) (Nat.zero_le 1)
          | advances index next advances kind executed callers =>
              apply sound.advance place made advances _ known _ _ others
              · intro other frame elsewhere place' here
                exact sound.apart place kind elsewhere here
              · intro chunk
                rw [Frame.weigh_points, Frame.weightOf_spread]
                exact executed chunk
              · rw [Frame.weigh_points, Frame.weightOf_spread]
                exact callers
      | callEmpty frame mayCall =>
          exact sound.begins place tallied_blank (fun _ => rfl) (fun _ inside => absurd inside (Nat.not_lt_zero _))
            (fun _ => rfl) rfl
      | call frame iterations mayCall some =>
          refine sound.begins place (tallied_create build iterations) (fun _ => rfl) ⟨chunks_pos build some, ?_⟩
            (fun _ => rfl) rfl
          exact fun chunk => ⟨fun _ => Nat.zero_le _, fun _ => rfl⟩
      | callback call index queued =>
          have made := sound.made_of_queued queued
          have inside := (sound.tallied call).inside index (by rw [queued]; exact nofun)
          have advances := advances_setStage inside queued .start
          have nobody := sound.executed call index
          rw [queued] at nobody
          apply sound.advance place made advances
          · intro other frame elsewhere point here
            have idle := (total_eq_zero_iff _ _).mp nobody other frame (mem_of_elsewhere place elsewhere)
            rw [here, Frame.weightOf_spread] at idle
            refine ⟨idle, fun fresh => ?_⟩
            rw [queued] at fresh
            cases fresh
          · intro frame fresh other point here
            rcases List.mem_cons.mp fresh with first | last
            · rw [here] at first
              cases first
              exact ⟨rfl, advances.stage_self, nofun⟩
            · rw [List.mem_singleton.mp last] at here
              cases here
          · intro chunk
            rw [weigh_cons, Frame.weightOf_spread]
            by_cases same : chunk = index
            · rw [same, queued, advances.stage_self, Point.executes_self]
              rfl
            · rw [advances.stage_of_ne same, Point.executes_of_ne same]
              rfl
          · rw [weigh_cons, Frame.weightOf_spread]
            rfl
          · intro other weight different
            rw [weigh_cons, Frame.weightOf_other weight different.symm]
            rfl
      | task =>
          refine sound.stays place ?_ (fun _ _ => rfl) (fun _ => Nat.le_refl _)
          intro frame fresh call point here
          rcases List.mem_cons.mp fresh with first | last
          · rw [here] at first
            cases first
          · rw [here] at last
            cases List.mem_singleton.mp last
      | taskReturns => exact sound.stays place (fun _ => nofun) (fun _ _ => rfl) (fun _ => Nat.le_refl _)

end Steps

theorem sound_of_reachable (reachable : (windowsSystem build inPool).Reachable state) : Sound state := by
  apply reachable.invariant
  · rintro _ rfl
    have nobody : forall thread (frame : Frame), frame ∈ [if inPool thread then Frame.worker else .outside] ->
        forall call point, frame ≠ .spread call point := by
      intro thread frame member call point here
      rw [here] at member
      cases kind : inPool thread <;> rw [kind] at member <;> cases List.mem_singleton.mp member
    have none : forall call weight, Stacked.total (Frame.weightOf call weight)
        (⟨.fresh, fun thread => [if inPool thread then .worker else .outside]⟩ : Stacked Thread Frame Shared) = 0 := by
      intro call weight
      apply (total_eq_zero_iff _ _).mpr
      intro thread frame member
      cases frame with
      | spread other point => exact absurd rfl (nobody thread _ member other point)
      | _ => rfl
    constructor
    · exact fun _ _ => rfl
    · exact fun _ => tallied_blank
    · exact fun thread frame member call point here => absurd here (nobody thread frame member call point)
    · exact fun thread frame member call point here => absurd here (nobody thread frame member call point)
    · exact fun call index => none call _
    · exact fun call => Nat.le_trans (Nat.le_of_eq (none call _)) (Nat.zero_le 1)
  · intro before after _ sound move
    exact sound.step move

/-! ## A fork and a join -/

/-- What a pool of threads sees of a chunk. -/
def ChunkStage.task : ChunkStage -> TaskStage
  | unsubmitted | queued => .waiting
  | running | leaving => .running
  | counted => .done

def SpreadCall.task (spread : SpreadCall) (index : Nat) : TaskStage :=
  if index < spread.chunks then (spread.stage index).task else .unknown

theorem task_blank (index : Nat) : SpreadCall.blank.task index = .unknown := by
  rw [SpreadCall.task]
  exact if_neg (Nat.not_lt_zero index)

/-- Whether the caller is still in the call. -/
def callStage (state : Stacked Thread Frame Shared) (call : Nat) : CallStage :=
  if state.shared.nextCall ≤ call then .unbegun
  else if 0 < state.total (Frame.weightOf call Point.ofCaller) then .live
  else .returned

/-- A call and its chunks. -/
def partView (state : Stacked Thread Frame Shared) (call : Nat) : ForkJoin Nat Unit :=
  ⟨(state.shared.spreads call).task, fun _ => callStage state call⟩

/-- The calls of a program as a pool sees them. -/
def forkJoinView (state : Stacked Thread Frame Shared) : ForkJoin (Nat × Nat) Nat :=
  .sideBySide (partView state)

theorem Advances.task {next : ChunkStage} (advances : Advances spread spread' index next) :
    spread'.task = fun chunk => if chunk ∈ [index] then next.task else spread.task chunk := by
  funext chunk
  rw [SpreadCall.task, SpreadCall.task, advances.chunks]
  by_cases same : chunk ∈ [index]
  · rw [if_pos same, List.mem_singleton.mp same, advances.stage_self, if_pos advances.inside]
  · rw [if_neg same, advances.stage_of_ne fun equal => same (List.mem_singleton.mpr equal)]

/-- What goes on with a chunk is at most one move of the pool. -/
theorem Advances.forkJoin {next : ChunkStage} (advances : Advances spread spread' index next) (calls : Unit -> CallStage) :
    ForkJoin.Step (fun _ => some ()) ⟨spread.task, calls⟩ ⟨spread'.task, calls⟩ := by
  have own : spread.task index = (spread.stage index).task := if_pos advances.inside
  have order := advances.order
  rw [advances.task]
  generalize spread.stage index = stage at own order
  have quiet : next.task = stage.task ->
      (fun chunk => if chunk ∈ [index] then next.task else spread.task chunk) = spread.task := by
    intro unseen
    funext chunk
    split
    · rename_i same
      rw [List.mem_singleton.mp same, own, unseen]
    · rfl
  cases order with
  | submit | run =>
      rw [quiet rfl]
      exact .pause
  | refuse | start => exact .start index own
  | count => exact .complete index own

section Simulation

variable {thread : Thread} {call : Nat}

omit [DecidableEq Thread] in
theorem callStage_congr (made : after.shared.nextCall ≤ call ↔ before.shared.nextCall ≤ call)
    (callers : after.total (Frame.weightOf call Point.ofCaller) = before.total (Frame.weightOf call Point.ofCaller)) :
    callStage after call = callStage before call := by
  rw [callStage, callStage, callers]
  simp only [made]

omit [DecidableEq Thread] in
theorem callStage_of_made (made : call < state.shared.nextCall)
    (caller : 0 < state.total (Frame.weightOf call Point.ofCaller)) : callStage state call = .live := by
  rw [callStage, if_neg (Nat.not_le.mpr made), if_pos caller]

omit [DecidableEq Thread] in
theorem callStage_of_left (made : call < state.shared.nextCall)
    (caller : state.total (Frame.weightOf call Point.ofCaller) = 0) : callStage state call = .returned := by
  rw [callStage, if_neg (Nat.not_le.mpr made), caller, if_neg (Nat.lt_irrefl 0)]

omit [DecidableEq Thread] in
theorem live_or_returned (made : call < state.shared.nextCall) : callStage state call = .live ∨ callStage state call = .returned := by
  by_cases left : state.total (Frame.weightOf call Point.ofCaller) = 0
  · exact Or.inr (callStage_of_left made left)
  · exact Or.inl (callStage_of_made made (Nat.pos_of_ne_zero left))

omit [DecidableEq Thread] in
theorem partView_of {spread : SpreadCall} {stage : CallStage} (spreads : state.shared.spreads call = spread)
    (own : callStage state call = stage) : partView state call = ⟨spread.task, fun _ => stage⟩ := by
  rw [partView, spreads, own]

omit [DecidableEq Thread] in
theorem partView_unmade (sound : Sound state) (unmade : state.shared.nextCall ≤ call) : partView state call = .unbegun := by
  rw [partView_of (sound.blank call unmade) (if_pos unmade)]
  apply ForkJoin.ext
  · exact funext task_blank
  · rfl

/-- Of a new call every chunk waits. -/
theorem task_fresh (spread : SpreadCall) (fresh : forall index, spread.stage index = .unsubmitted) :
    ⟨spread.task, fun _ => .live⟩ = ForkJoin.announced (List.range spread.chunks) := by
  apply ForkJoin.ext
  · funext index
    change spread.task index = if index ∈ List.range spread.chunks then .waiting else .unknown
    rw [SpreadCall.task, fresh]
    simp only [List.mem_range]
    rfl
  · rfl

/-- When the caller returns, no chunk is left. -/
theorem join_forkJoin (finished : Point.finished.Placed spread) :
    ForkJoin.Step (fun _ => some ()) (⟨spread.task, fun _ => .live⟩ : ForkJoin Nat Unit)
      ⟨spread.task, fun _ => .returned⟩ := by
  have joined : (⟨spread.task, fun _ => .returned⟩ : ForkJoin Nat Unit) =
      ForkJoin.setCall ⟨spread.task, fun _ => .live⟩ () .returned := by
    apply ForkJoin.ext rfl
    funext call
    exact (ForkJoin.calls_setCall (⟨spread.task, fun _ => .live⟩ : ForkJoin Nat Unit) call .returned).symm
  rw [joined]
  apply ForkJoin.Step.join () rfl
  intro index _ unfinished
  change (spread.task index).Unfinished at unfinished
  rw [SpreadCall.task] at unfinished
  split at unfinished
  · rename_i inside
    rw [finished index inside] at unfinished
    rcases unfinished with never | never <;> cases never
  · rcases unfinished with never | never <;> cases never

/-- A step is at most a few moves of one call, and the other calls see nothing of it. -/
theorem partView_step (sound : Sound before) (move : Stacked.Step (WindowsStep build) before after) :
    Exists fun target => (forall call, call ≠ target -> partView after call = partView before call) ∧
      Relation.ReflTransGen (ForkJoin.Step fun _ => some ()) (partView before target) (partView after target) := by
  cases move with
  | top thread frame rest shared frames place step =>
      have member : frame ∈ before.callStack thread := by
        rw [place]
        exact List.mem_cons_self
      have totals := fun call : Nat => total_replaceTop (Frame.weightOf call Point.ofCaller) before place shared frames
      have quiet : forall call, shared.spreads call = before.shared.spreads call ->
          (shared.nextCall ≤ call ↔ before.shared.nextCall ≤ call) ->
          weigh (Frame.weightOf call Point.ofCaller) frames = frame.weightOf call Point.ofCaller ->
          partView (before.replaceTop thread shared (frames ++ rest)) call = partView before call := by
        intro call spreads made callers
        have total := totals call
        have stage : callStage (before.replaceTop thread shared (frames ++ rest)) call = callStage before call :=
          callStage_congr made (by omega)
        exact partView_of spreads stage
      have begins : forall (spread : SpreadCall) (point : Point), (forall index, spread.stage index = .unsubmitted) ->
          point.ofCaller = 1 -> shared = before.shared.begin_ spread ->
          frames = [.spread before.shared.nextCall point, frame] -> Exists fun target =>
          (forall call, call ≠ target -> partView (before.replaceTop thread shared (frames ++ rest)) call = partView before call) ∧
          Relation.ReflTransGen (ForkJoin.Step fun _ => some ()) (partView before target)
            (partView (before.replaceTop thread shared (frames ++ rest)) target) := by
        rintro spread point fresh caller rfl rfl
        refine ⟨before.shared.nextCall, ?_, ?_⟩
        · intro call different
          apply quiet call (Function.update_of_ne different _ _)
          · change before.shared.nextCall + 1 ≤ call ↔ before.shared.nextCall ≤ call
            omega
          · rw [weigh_cons, weigh_cons, weigh_nil, Frame.weightOf_other _ different.symm]
            omega
        · have own : (before.shared.begin_ spread).spreads before.shared.nextCall = spread := Function.update_self _ _ _
          have total := totals before.shared.nextCall
          rw [weigh_cons, weigh_cons, weigh_nil, Frame.weightOf_spread, caller] at total
          have live : callStage (before.replaceTop thread (before.shared.begin_ spread)
              ([.spread before.shared.nextCall point, frame] ++ rest)) before.shared.nextCall = .live := by
            apply callStage_of_made (Nat.lt_succ_self before.shared.nextCall)
            omega
          rw [partView_unmade sound (Nat.le_refl _), partView_of own live, task_fresh spread fresh]
          exact ForkJoin.run_announced _
      have goes : forall (call : Nat) (spread : SpreadCall) (index : Nat) (next : ChunkStage),
          Advances (before.shared.spreads call) spread index next -> shared = before.shared.onSpread call spread ->
          weigh (Frame.weightOf call Point.ofCaller) frames = frame.weightOf call Point.ofCaller ->
          Relation.ReflTransGen (ForkJoin.Step fun _ => some ()) (partView before call)
            (partView (before.replaceTop thread shared (frames ++ rest)) call) := by
        rintro call spread index next advances rfl callers
        have total := totals call
        have stage : callStage (before.replaceTop thread (before.shared.onSpread call spread) (frames ++ rest)) call =
            callStage before call := by
          refine callStage_congr ?_ ?_
          · exact Iff.rfl
          · omega
        rw [partView_of (Shared.spreads_onSpread before.shared call spread) stage]
        exact .single (advances.forkJoin _)
      cases step with
      | point call point spread points step =>
          have made := sound.known thread _ member call point rfl
          have own := Shared.spreads_onSpread before.shared call spread
          refine ⟨call, ?_, ?_⟩
          · intro other different
            apply quiet other (Shared.spreads_onSpread_of_ne _ different _) Iff.rfl
            rw [Frame.weigh_points_other _ different.symm, Frame.weightOf_other _ different.symm]
          · have total := totals call
            rw [Frame.weigh_points, Frame.weightOf_spread] at total
            have placed := sound.placed thread _ member call point rfl
            obtain ⟨does, -⟩ := step.does placed (sound.tallied call)
            cases does with
            | waits => rw [quiet call own Iff.rfl (by rw [Frame.weigh_points, Frame.weightOf_spread]; rfl)]
            | returns =>
                -- the caller leaves
                have single := sound.callers call
                simp only [List.map_nil] at total
                change _ + 1 = _ + 0 at total
                have live : callStage before call = .live := callStage_of_made made (by omega)
                have returned : callStage (before.replaceTop thread
                    (before.shared.onSpread call (before.shared.spreads call)) ([] ++ rest)) call = .returned := by
                  refine callStage_of_left ?_ ?_
                  · exact made
                  · omega
                rw [partView_of rfl live, List.map_nil, partView_of own returned]
                exact .single (join_forkJoin placed)
            | advances index next advances kind executed callers =>
                apply goes call spread index next advances rfl
                rw [Frame.weigh_points, Frame.weightOf_spread]
                exact callers
      | callEmpty frame mayCall => exact begins .blank .finished (fun _ => rfl) rfl rfl rfl
      | call frame iterations mayCall some => exact begins (.create build iterations) (.submit 0) (fun _ => rfl) rfl rfl rfl
      | callback call index queued =>
          have inside := (sound.tallied call).inside index (by rw [queued]; exact nofun)
          have advances := advances_setStage inside queued .start
          have none : forall other, weigh (Frame.weightOf other Point.ofCaller)
              [.spread call (.executing .pool index .running), .worker] = 0 := by
            intro other
            rw [weigh_cons, weigh_cons, weigh_nil]
            by_cases same : call = other
            · rw [same, Frame.weightOf_spread]
              rfl
            · rw [Frame.weightOf_other _ same]
              rfl
          refine ⟨call, ?_, ?_⟩
          · intro other different
            exact quiet other (Shared.spreads_onSpread_of_ne _ different _) Iff.rfl (none other)
          · exact goes call _ index .running advances rfl (none call)
      | task =>
          exact ⟨0, fun call _ => quiet call rfl Iff.rfl rfl, quiet 0 rfl Iff.rfl rfl ▸ .refl⟩
      | taskReturns =>
          exact ⟨0, fun call _ => quiet call rfl Iff.rfl rfl, quiet 0 rfl Iff.rfl rfl ▸ .refl⟩

end Simulation

/-- Whatever the threads do, and whichever chunks the pool refuses, the calls are
calls of a pool: each chunk is executed once, within its call, and no call
returns before the last of its chunks has been counted down. -/
theorem windows_refines_forkJoin (build : Build) (inPool : Thread -> Bool) (state : Stacked Thread Frame Shared)
    (reachable : (windowsSystem build inPool).Reachable state) :
    (forkJoin fun task : Nat × Nat => some task.1).Reachable (forkJoinView state) := by
  apply reachable.simulates_by_runs forkJoinView
  · rintro _ rfl
    apply ForkJoin.ext
    · exact funext fun task => task_blank task.2
    · rfl
  · intro before after reached move
    obtain ⟨target, others, run⟩ := partView_step (sound_of_reachable reached) move
    have same : partView after = Function.update (partView before) target (partView after target) := by
      funext call
      by_cases here : call = target
      · rw [here, Function.update_self]
      · rw [Function.update_of_ne here, others call here]
    rw [forkJoinView, forkJoinView, same]
    exact ForkJoin.run_sideBySide _ target run

/-! ## When the caller has returned -/

/-- The caller of a spread has returned. -/
def SpreadReturned (call : Nat) (state : Stacked Thread Frame Shared) : Prop :=
  call < state.shared.nextCall ∧
    forall thread point, .spread call point ∈ state.callStack thread -> point.ofCaller = 0

section Returned

variable {call : Nat}

omit [DecidableEq Thread] in
theorem spreadReturned_iff (state : Stacked Thread Frame Shared) (call : Nat) :
    callStage state call = .returned ↔ SpreadReturned call state := by
  have none : state.total (Frame.weightOf call Point.ofCaller) = 0 ↔
      forall thread point, .spread call point ∈ state.callStack thread -> point.ofCaller = 0 := by
    rw [total_eq_zero_iff]
    constructor
    · intro none thread point member
      exact (Frame.weightOf_spread Point.ofCaller call point).symm.trans (none thread _ member)
    · intro none thread frame member
      cases frame with
      | spread other point =>
          by_cases same : other = call
          · subst same
            exact (Frame.weightOf_spread Point.ofCaller other point).trans (none thread point member)
          · exact Frame.weightOf_other Point.ofCaller same point
      | _ => rfl
  rw [SpreadReturned, ← none, callStage]
  by_cases unmade : state.shared.nextCall ≤ call
  · rw [if_pos unmade]
    exact ⟨nofun, fun gone => absurd gone.1 (Nat.not_lt.mpr unmade)⟩
  · rw [if_neg unmade]
    by_cases some : 0 < state.total (Frame.weightOf call Point.ofCaller)
    · rw [if_pos some]
      exact ⟨nofun, fun gone => absurd gone.2 (Nat.ne_of_gt some)⟩
    · rw [if_neg some]
      exact ⟨fun _ => ⟨Nat.lt_of_not_le unmade, Nat.eq_zero_of_not_pos some⟩, fun _ => rfl⟩

variable (reachable : (windowsSystem build inPool).Reachable state)

include reachable

/-- A chunk that has not been counted down belongs to a call that has not returned. -/
theorem live_of_unfinished {index : Nat} (unfinished : ((state.shared.spreads call).task index).Unfinished) :
    callStage state call = .live :=
  forkJoin_live (windows_refines_forkJoin build inPool state reachable) (call, index) call unfinished rfl

theorem live_of_queued {index : Nat} (queued : (state.shared.spreads call).stage index = .queued) :
    callStage state call = .live := by
  have inside := ((sound_of_reachable reachable).tallied call).inside index (by rw [queued]; exact nofun)
  have waits : (state.shared.spreads call).task index = .waiting := by
    rw [SpreadCall.task, if_pos inside, queued]
    rfl
  exact live_of_unfinished reachable (Or.inl waits)

theorem live_of_executing {thread : Thread} {host : Host} {index : Nat} {phase : Phase}
    (executing : .spread call (.executing host index phase) ∈ state.callStack thread) : callStage state call = .live := by
  have placed := ((sound_of_reachable reachable).placed thread _ executing call _ rfl).1
  have inside := ((sound_of_reachable reachable).tallied call).inside index (by rw [placed]; cases phase <;> exact nofun)
  have runs : (state.shared.spreads call).task index = .running := by
    rw [SpreadCall.task, if_pos inside, placed]
    cases phase <;> rfl
  exact live_of_unfinished reachable (Or.inr runs)

omit [DecidableEq Thread] reachable in
theorem made_of_live (live : callStage state call = .live) : call < state.shared.nextCall := by
  apply Nat.lt_of_not_le
  intro unmade
  cases (if_pos unmade).symm.trans live

omit [DecidableEq Thread] reachable in
/-- Somebody is in the call who has made it. -/
theorem caller_of_live (live : callStage state call = .live) :
    Exists fun caller => Exists fun point => .spread call point ∈ state.callStack caller ∧ point.ofCaller = 1 := by
  have present : 0 < state.total (Frame.weightOf call Point.ofCaller) := by
    by_contra none
    rw [callStage_of_left (made_of_live live) (Nat.eq_zero_of_not_pos none)] at live
    cases live
  obtain ⟨caller, frame, member, weight⟩ := (total_pos_iff _ _).mp present
  obtain ⟨point, rfl, ofCaller⟩ := Frame.exists_of_weightOf Point.ofCaller weight
  refine ⟨caller, point, member, ?_⟩
  rcases point with _ | ⟨_ | _⟩ | _ | _
  · rfl
  · rfl
  · cases ofCaller
  · rfl
  · rfl

/-- A call that has returned is left as it is. -/
theorem spreads_step_of_returned (returned : callStage state call = .returned)
    (move : Stacked.Step (WindowsStep build) state after) :
    callStage after call = .returned ∧ after.shared.spreads call = state.shared.spreads call := by
  have made := ((spreadReturned_iff state call).mp returned).1
  constructor
  · obtain ⟨target, others, run⟩ := partView_step (sound_of_reachable reachable) move
    have whole : (partView state call).calls () = .returned := returned
    change (partView after call).calls () = .returned
    by_cases same : call = target
    · subst same
      exact ForkJoin.run_returned run whole
    · rw [others call same]
      exact whole
  · cases move with
    | top thread frame rest shared frames place step =>
        have member : frame ∈ state.callStack thread := by
          rw [place]
          exact List.mem_cons_self
        cases step with
        | point target point spread points step =>
            by_cases same : call = target
            · subst same
              have idle := ((spreadReturned_iff state call).mp returned).2 thread point member
              rcases point with _ | ⟨_ | _⟩ | _ | _
              · cases idle
              · cases idle
              · cases (live_of_executing reachable member).symm.trans returned
              · cases idle
              · cases idle
            · exact Shared.spreads_onSpread_of_ne _ same _
        | callEmpty => exact Function.update_of_ne (Nat.ne_of_lt made) _ _
        | call => exact Function.update_of_ne (Nat.ne_of_lt made) _ _
        | callback target index queued =>
            by_cases same : call = target
            · subst same
              cases (live_of_queued reachable queued).symm.trans returned
            · exact Shared.spreads_onSpread_of_ne _ same _
        | task | taskReturns => rfl

omit reachable in
/-- The contexts and the latch of a call are on the stack of its caller, who is
there as long as a chunk is queued or executed.  After the call has returned,
whatever else happens, no thread executes a chunk of it, the pool has none queued,
and the latch is left as it is. -/
theorem contexts_outlive_callbacks (build : Build) (inPool : Thread -> Bool) (state later : Stacked Thread Frame Shared)
    (reachable : (windowsSystem build inPool).Reachable state)
    (continues : (windowsSystem build inPool).Continues state later) :
    (forall call, ((Exists fun index => (state.shared.spreads call).stage index = .queued) ∨
      Exists fun thread => Exists fun host => Exists fun index => Exists fun phase =>
        .spread call (.executing host index phase) ∈ state.callStack thread) ->
      Exists fun caller => Exists fun point => .spread call point ∈ state.callStack caller ∧ point.ofCaller = 1) ∧
    forall call, SpreadReturned call state -> SpreadReturned call later ∧
      later.shared.spreads call = state.shared.spreads call ∧
      (forall thread host index phase, .spread call (.executing host index phase) ∉ later.callStack thread) ∧
      forall index, (later.shared.spreads call).stage index ≠ .queued := by
  constructor
  · rintro call (⟨index, queued⟩ | ⟨thread, host, index, phase, executing⟩)
    · exact caller_of_live (live_of_queued reachable queued)
    · exact caller_of_live (live_of_executing reachable executing)
  · intro call returned
    have kept : callStage later call = .returned ∧ later.shared.spreads call = state.shared.spreads call := by
      apply continues.invariant reachable ⟨(spreadReturned_iff state call).mpr returned, rfl⟩
      rintro middle next reached ⟨still, same⟩ move
      have step := spreads_step_of_returned reached still move
      exact ⟨step.1, step.2.trans same⟩
    have reached := reachable.continues continues
    refine ⟨(spreadReturned_iff later call).mp kept.1, kept.2, ?_, ?_⟩
    · intro thread host index phase executing
      cases (live_of_executing reached executing).symm.trans kept.1
    · intro index queued
      cases (live_of_queued reached queued).symm.trans kept.1

/-! ## What has been executed -/

/-- A call has the chunks of its division. -/
def SpreadCall.Divided (build : Build) (spread : SpreadCall) : Prop :=
  spread.chunks = (numChunks spread.iterations build.numWorkers).toNat

omit reachable in
theorem divided_blank (build : Build) : SpreadCall.blank.Divided build := by
  change 0 = (numChunks 0 build.numWorkers).toNat
  rw [toNat_numChunks build.narrow]
  exact (Nat.zero_min _).symm

omit reachable in
theorem PointStep.divided (step : PointStep spread point spread' points) (divided : spread.Divided build) :
    spread'.Divided build := by
  cases step <;> exact divided

omit [Fintype Thread] in
theorem divided_of_reachable (call : Nat) : (state.shared.spreads call).Divided build := by
  revert call
  apply reachable.invariant
  · rintro _ rfl call
    exact divided_blank build
  · intro before after _ divided move
    have goes : forall (target : Nat) (spread : SpreadCall), spread.Divided build ->
        forall call, (Function.update before.shared.spreads target spread call).Divided build := by
      intro target spread own call
      rw [Function.update_apply]
      split
      · exact own
      · exact divided call
    cases move with
    | top thread frame rest shared frames place step =>
        cases step with
        | point call point spread points step => exact goes call spread (step.divided (divided call))
        | callEmpty => exact goes _ _ (divided_blank build)
        | call frame iterations => exact goes _ _ rfl
        | callback call index => exact goes call _ (divided call)
        | task | taskReturns => exact divided

omit [DecidableEq Thread] [Fintype Thread] reachable in
theorem SpreadCall.Tallied.ran_perm (tallied : spread.Tallied) (counted : Point.finished.Placed spread) :
    spread.ran.Perm (List.range spread.chunks) := by
  apply List.perm_iff_count.mpr
  intro index
  rw [tallied.ran, List.count_range]
  by_cases inside : index < spread.chunks
  · rw [if_pos inside, counted index inside]
    rfl
  · have fresh : spread.stage index = .unsubmitted := by
      by_contra started
      exact inside (tallied.inside index started)
    rw [if_neg inside, fresh]
    rfl

omit [DecidableEq Thread] [Fintype Thread] reachable in
/-- In whatever order they have been executed, the chunks cover the iterations once
if their indices fit. -/
theorem ran_partitions_iff
    (executed : spread.ran.Perm (List.range (min spread.iterations.toNat (4 * build.numWorkers.toNat))))
    (some : spread.iterations ≠ 0) :
    Partitions 0 spread.iterations.toNat ((spread.ran.map (spread.range build)).map Chunk.bounds) ↔
      min spread.iterations.toNat (4 * build.numWorkers.toNat) ≤ 2 ^ build.concurrency.bits := by
  have positive : 0 < spread.iterations.toNat := Nat.pos_of_ne_zero fun zero => some (BitVec.eq_of_toNat_eq zero)
  have count : (numChunks spread.iterations build.numWorkers).toNat =
      min spread.iterations.toNat (4 * build.numWorkers.toNat) := toNat_numChunks build.narrow
  have used := chunks_pos build some
  change 0 < (numChunks spread.iterations build.numWorkers).toNat at used
  have enough : (numChunks spread.iterations build.numWorkers).toNat ≤ spread.iterations.toNat :=
    count ▸ Nat.min_le_left _ _
  have divided := chunks_partition_iff build.concurrency.bits used positive
  rw [Nat.min_eq_left enough] at divided
  rw [← count] at executed ⊢
  have same := (executed.map (spread.range build)).map Chunk.bounds
  constructor
  · intro partition
    exact (divided.mp (partition.perm same)).1
  · intro fits
    exact (divided.mpr ⟨fits, Nat.lt_of_lt_of_le (Nat.mod_lt _ used) fits⟩).perm same.symm

omit reachable in
/-- When a call has returned, the user's function has been called once for every
chunk, of as many chunks as there are iterations or four per worker.  Their ranges
cover the iterations exactly once if and only if the chunks can be numbered. -/
theorem returned_spread_has_run (build : Build) (inPool : Thread -> Bool) (state : Stacked Thread Frame Shared)
    (reachable : (windowsSystem build inPool).Reachable state) (call : Nat) (returned : SpreadReturned call state) :
    (state.shared.spreads call).ran.Perm
      (List.range (min (state.shared.spreads call).iterations.toNat (4 * build.numWorkers.toNat))) ∧
    ((state.shared.spreads call).iterations ≠ 0 ->
      (Partitions 0 (state.shared.spreads call).iterations.toNat
        (((state.shared.spreads call).ran.map ((state.shared.spreads call).range build)).map Chunk.bounds) ↔
        min (state.shared.spreads call).iterations.toNat (4 * build.numWorkers.toNat) ≤ 2 ^ build.concurrency.bits)) := by
  have tallied := (sound_of_reachable reachable).tallied call
  have divided := divided_of_reachable reachable call
  have counted : Point.finished.Placed (state.shared.spreads call) := by
    intro index inside
    have settled : ¬ ((state.shared.spreads call).task index).Unfinished := by
      intro unfinished
      cases (live_of_unfinished reachable unfinished).symm.trans ((spreadReturned_iff state call).mpr returned)
    rw [SpreadCall.task, if_pos inside] at settled
    generalize (state.shared.spreads call).stage index = stage at settled
    cases stage with
    | counted => rfl
    | unsubmitted | queued => exact absurd (Or.inl rfl) settled
    | running | leaving => exact absurd (Or.inr rfl) settled
  have count : (numChunks (state.shared.spreads call).iterations build.numWorkers).toNat = _ := toNat_numChunks build.narrow
  have executed := tallied.ran_perm counted
  rw [divided, count] at executed
  exact ⟨executed, ran_partitions_iff executed⟩

end Returned

/-! ## A run of one thread -/

def oneBuild : Build := ⟨.uint8, 1, by decide⟩

/-- The only call. -/
def onlyCall (spread : SpreadCall) : Shared := ⟨Function.update (fun _ => .blank) 0 spread, 1⟩

def oneThread (shared : Shared) (frames : List Frame) : Stacked Unit Frame Shared := ⟨shared, fun _ => frames⟩

section OneThread

variable {inside : Unit -> Bool} {frame : Frame} {rest frames : List Frame}

theorem oneThread_step {shared shared' : Shared}
    (reachable : (windowsSystem oneBuild inside).Reachable (oneThread shared (frame :: rest)))
    (move : WindowsStep oneBuild (fun _ : Unit => frame :: rest) () shared frame shared' frames) :
    (windowsSystem oneBuild inside).Reachable (oneThread shared' (frames ++ rest)) := by
  have step : Stacked.Step (WindowsStep oneBuild) (oneThread shared (frame :: rest))
      ((oneThread shared (frame :: rest)).replaceTop () shared' (frames ++ rest)) :=
    .top () frame rest shared' frames rfl move
  have same : (oneThread shared (frame :: rest)).replaceTop () shared' (frames ++ rest) = oneThread shared' (frames ++ rest) :=
    congrArg (Stacked.mk shared') (funext fun _ => Function.update_self _ _ _)
  rw [← same]
  exact .step reachable step

theorem onlyCall_step
    (reachable : (windowsSystem oneBuild inside).Reachable (oneThread (onlyCall spread) (.spread 0 point :: rest)))
    (step : PointStep spread point spread' points) :
    (windowsSystem oneBuild inside).Reachable (oneThread (onlyCall spread') (points.map (Frame.spread 0) ++ rest)) := by
  have own : (onlyCall spread).spreads 0 = spread := by
    simp only [onlyCall, Function.update_self]
  have same : (onlyCall spread).onSpread 0 spread' = onlyCall spread' :=
    congrArg (Shared.mk · 1) (Function.update_idem _ _ _)
  rw [← same]
  exact oneThread_step reachable (.point 0 point spread' points (by rw [own]; exact step))

end OneThread

/-! ## A run with a thread of the pool -/

section WithPool

/-- One thread of the pool, `true`, and one outside it. -/
def pairSystem : System (Stacked Bool Frame Shared) := windowsSystem oneBuild fun thread => thread

variable {state : Stacked Bool Frame Shared}

theorem pair_step (reachable : pairSystem.Reachable state) (thread : Bool) {frame : Frame} {rest frames : List Frame}
    {shared : Shared} (place : state.callStack thread = frame :: rest)
    (move : WindowsStep oneBuild state.callStack thread state.shared frame shared frames) :
    pairSystem.Reachable (state.replaceTop thread shared (frames ++ rest)) :=
  .step reachable (.top thread frame rest shared frames place move)

theorem pair_point (reachable : pairSystem.Reachable state) (thread : Bool) {point : Point} {points : List Point}
    {rest : List Frame} {spread : SpreadCall} (place : state.callStack thread = .spread 0 point :: rest)
    (step : PointStep (state.shared.spreads 0) point spread points) :
    pairSystem.Reachable (state.replaceTop thread (state.shared.onSpread 0 spread) (points.map (Frame.spread 0) ++ rest)) :=
  pair_step reachable thread place (.point 0 point spread points step)

/-- Of two chunks the first one is executed by the pool, and the second one, which
the pool has refused, by the caller. -/
theorem returned_run : Exists fun state => pairSystem.Reachable state ∧ SpreadReturned 0 state ∧
    (state.shared.spreads 0).iterations = 2 ∧ (state.shared.spreads 0).ran = [0, 1] ∧
      (forkJoinView state).stage (0, 0) = .done ∧ (forkJoinView state).stage (0, 1) = .done := by
  have start : pairSystem.Reachable ⟨.fresh, fun thread => [if thread then .worker else .outside]⟩ := .initial rfl
  have called := pair_step start false rfl (.call .outside 2 rfl (by decide))
  have queued := pair_point called false rfl (.submitted 0)
  have refused := pair_point queued false rfl (.refused 1)
  have begins := pair_step refused true rfl (.callback 0 0 rfl)
  have ran := pair_point begins true rfl (.ran .pool 0)
  have own := pair_point ran false rfl (.ran .caller 1)
  have counted := pair_point own true rfl (.countDownLast 0)
  have last := pair_point counted false rfl (.countDown 1)
  have waited := pair_point last false rfl (.wait rfl)
  have returned := pair_point waited false rfl .finished
  refine ⟨_, returned, ⟨Nat.one_pos, ?_⟩, rfl, rfl, rfl, rfl⟩
  intro thread point member
  cases thread with
  | false => cases List.mem_singleton.mp member
  | true => cases List.mem_singleton.mp member

theorem windows_refines_forkJoin_refused : Exists fun state : Stacked Bool Frame Shared =>
    (forkJoin fun task : Nat × Nat => some task.1).Reachable (forkJoinView state) ∧
      (forkJoinView state).stage (0, 0) = .done ∧ (forkJoinView state).stage (0, 1) = .done ∧
        (forkJoinView state).calls 0 = .returned := by
  obtain ⟨state, reachable, returned, _, _, first, second⟩ := returned_run
  exact ⟨state, windows_refines_forkJoin oneBuild _ state reachable, first, second, (spreadReturned_iff state 0).mpr returned⟩

theorem contexts_outlive_callbacks_refused : Exists fun state : Stacked Bool Frame Shared =>
    SpreadReturned 0 state ∧ (state.shared.spreads 0).ran = [0, 1] ∧
      (forall thread host index phase, .spread 0 (.executing host index phase) ∉ state.callStack thread) ∧
      forall index, (state.shared.spreads 0).stage index ≠ .queued := by
  obtain ⟨state, reachable, returned, _, ran, _⟩ := returned_run
  have kept := ((contexts_outlive_callbacks oneBuild _ state state reachable .refl).2 0 returned).2
  exact ⟨state, returned, ran, kept.2⟩

theorem returned_spread_has_run_refused : Exists fun state : Stacked Bool Frame Shared =>
    SpreadReturned 0 state ∧
      Partitions 0 2 ((([0, 1] : List Nat).map ((state.shared.spreads 0).range oneBuild)).map Chunk.bounds) := by
  obtain ⟨state, reachable, returned, iterations, ran, _⟩ := returned_run
  have run := (returned_spread_has_run oneBuild _ state reachable 0 returned).2
  rw [iterations, ran] at run
  exact ⟨state, returned, (run (by decide)).mpr (by decide)⟩

end WithPool

end Windows
end Native
end Sweater
