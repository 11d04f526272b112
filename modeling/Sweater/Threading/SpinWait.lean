import Sweater.Threading.Barrier
import Mathlib.Data.BitVec

namespace Sweater
namespace Threading

/-!
# The verdict of a spinning join

Both barrier classes have the same `spin_wait`.  Its result is meant to say
whether the caller had to stall: the loop compares the polls that it has made
with an eighth of those that it may make, and after the loop the answer is
always yes.  The comparison is the wrong way round, so that the shortest joins
count as stalled, and longer ones do not.

The barrier is in the state `barriers n` when it is polled after `n` other
polls.  The loop that yields has no bound of its own; `fuel` bounds its polls.
-/

/-- The loop that yields: the verdict, and how many polls have been made. -/
def yieldWait (everyoneArrived : Nat -> Bool) : Nat -> Nat -> Option (Bool × Nat)
  | 0, _ => none
  | fuel + 1, poll =>
      if everyoneArrived poll then some (true, poll + 1)
      else yieldWait everyoneArrived fuel (poll + 1)

/-- The loop over `spin_tries`, which are decremented before the poll. -/
def spinTries (everyoneArrived : Nat -> Bool) (nopSpinCount : BitVec 32) (fuel : Nat) : Nat -> Nat -> Option (Bool × Nat)
  | 0, poll => yieldWait everyoneArrived fuel poll
  | tries + 1, poll =>
      if everyoneArrived poll then
        some (decide (nopSpinCount - BitVec.ofNat 32 tries < nopSpinCount / 8), poll + 1)
      else spinTries everyoneArrived nopSpinCount fuel tries (poll + 1)

/-- `spin_wait( nop_spin_count )` -/
def BarrierKind.spinWait (kind : BarrierKind) (concurrency : HardwareConcurrency)
    (barriers : Nat -> Barrier (kind.counterBits concurrency)) (nopSpinCount : BitVec 32) (fuel : Nat) :
    Option (Bool × Nat) :=
  spinTries (fun poll => (barriers poll).everyoneArrived concurrency.bits) nopSpinCount fuel nopSpinCount.toNat 0

/-- `spread_work_stealing_division`, after a join without a concurrent spread. -/
def adaptDivision (division : BitVec 8) (stalled : Bool) : BitVec 8 :=
  if stalled then if division < 16 then division + 1 else division
  else division

/-- The verdict when the arrivals are seen at the given poll, the first one being poll 1. -/
def stallVerdict (nopSpinCount : BitVec 32) (polls : Nat) : Bool :=
  if polls ≤ nopSpinCount.toNat then decide (polls < nopSpinCount.toNat / 8) else true

section Loops

variable {everyoneArrived : Nat -> Bool} {nopSpinCount : BitVec 32} {fuel poll last tries polls : Nat} {stalled : Bool}

/-- What the loop compares is the number of polls. -/
theorem verdict_eq (total : poll + (tries + 1) = nopSpinCount.toNat) :
    decide (nopSpinCount - BitVec.ofNat 32 tries < nopSpinCount / 8) = stallVerdict nopSpinCount (poll + 1) := by
  have fits : tries < 2 ^ 32 := by
    have bounded := nopSpinCount.isLt
    omega
  have number : (BitVec.ofNat 32 tries).toNat = tries := by
    rw [BitVec.toNat_ofNat]
    exact Nat.mod_eq_of_lt fits
  have made : (nopSpinCount - BitVec.ofNat 32 tries).toNat = poll + 1 := by
    rw [BitVec.toNat_sub_of_le, number]
    · omega
    · rw [BitVec.le_def, number]
      omega
  rw [stallVerdict, if_pos (by omega)]
  apply decide_eq_decide.mpr
  rw [BitVec.lt_def, made, BitVec.toNat_udiv]
  rfl

/-! ### Every result is the verdict -/

theorem yieldWait_returned (returned : yieldWait everyoneArrived fuel poll = some (stalled, polls)) :
    stalled = true ∧ poll < polls := by
  induction fuel generalizing poll with
  | zero => cases returned
  | succ fuel inductionHypothesis =>
      rw [yieldWait] at returned
      split at returned
      · cases returned
        exact ⟨rfl, Nat.lt_succ_self _⟩
      · have later := inductionHypothesis returned
        exact ⟨later.1, Nat.lt_of_succ_lt later.2⟩

theorem spinTries_returned (total : poll + tries = nopSpinCount.toNat)
    (returned : spinTries everyoneArrived nopSpinCount fuel tries poll = some (stalled, polls)) :
    stalled = stallVerdict nopSpinCount polls ∧ poll < polls := by
  induction tries generalizing poll with
  | zero =>
      have waited := yieldWait_returned returned
      refine ⟨?_, waited.2⟩
      rw [waited.1, stallVerdict, if_neg (by omega)]
  | succ tries inductionHypothesis =>
      rw [spinTries] at returned
      split at returned
      · cases returned
        exact ⟨verdict_eq total, Nat.lt_succ_self _⟩
      · have later := inductionHypothesis (by omega) returned
        exact ⟨later.1, Nat.lt_of_succ_lt later.2⟩

/-! ### The verdict is returned -/

theorem yieldWait_returns (reached : poll ≤ last) (enough : last < poll + fuel) (arrived : everyoneArrived last = true)
    (first : forall earlier, earlier < last -> everyoneArrived earlier = false) :
    yieldWait everyoneArrived fuel poll = some (true, last + 1) := by
  induction fuel generalizing poll with
  | zero => omega
  | succ fuel inductionHypothesis =>
      rw [yieldWait]
      rcases Nat.lt_or_eq_of_le reached with before | here
      · rw [first poll before, if_neg Bool.false_ne_true]
        exact inductionHypothesis before (by omega)
      · rw [here, arrived, if_pos rfl]

theorem spinTries_returns (total : poll + tries = nopSpinCount.toNat) (reached : poll ≤ last)
    (enough : last < nopSpinCount.toNat + fuel) (arrived : everyoneArrived last = true)
    (first : forall earlier, earlier < last -> everyoneArrived earlier = false) :
    spinTries everyoneArrived nopSpinCount fuel tries poll = some (stallVerdict nopSpinCount (last + 1), last + 1) := by
  induction tries generalizing poll with
  | zero =>
      rw [spinTries, yieldWait_returns reached (by omega) arrived first, stallVerdict, if_neg (by omega)]
  | succ tries inductionHypothesis =>
      rw [spinTries]
      rcases Nat.lt_or_eq_of_le reached with before | here
      · rw [first poll before, if_neg Bool.false_ne_true]
        exact inductionHypothesis (by omega) before
      · rw [here, arrived, if_pos rfl, ← here, verdict_eq total]

end Loops

/-! ## Joins -/

section Joins

variable (kind : BarrierKind) (concurrency : HardwareConcurrency)

/-- `spin_wait` may see the arrivals at the given poll, and then reports this verdict. -/
def Reports (nopSpinCount : BitVec 32) (polls : Nat) (stalled : Bool) : Prop :=
  Exists fun barriers : Nat -> Barrier (kind.counterBits concurrency) => Exists fun fuel =>
    kind.spinWait concurrency barriers nopSpinCount fuel = some (stalled, polls)

/-- The barrier of a join whose last arrival comes just before the given poll. -/
def lastArrivalAt (last poll : Nat) : Barrier (kind.counterBits concurrency) where
  counter := if poll < last then 1 else 0
  spinWait := true

theorem everyoneArrived_lastArrivalAt (last poll : Nat) :
    (lastArrivalAt kind concurrency last poll).everyoneArrived concurrency.bits = decide (last ≤ poll) := by
  rw [lastArrivalAt]
  by_cases before : poll < last
  · rw [if_pos before, decide_eq_false (Nat.not_le.mpr before)]
    cases kind with
    | futexBarrier backend => cases backend <;> cases concurrency <;> rfl
    | genericBarrier => cases concurrency <;> rfl
  · rw [if_neg before, decide_eq_true (Nat.not_lt.mp before)]
    cases kind with
    | futexBarrier backend => cases backend <;> cases concurrency <;> rfl
    | genericBarrier => cases concurrency <;> rfl

/-- The verdict depends on the number of polls only. -/
theorem reports_iff (nopSpinCount : BitVec 32) (polls : Nat) (stalled : Bool) :
    Reports kind concurrency nopSpinCount polls stalled ↔ 0 < polls ∧ stalled = stallVerdict nopSpinCount polls := by
  constructor
  · intro ⟨barriers, fuel, returned⟩
    have verdict := spinTries_returned (Nat.zero_add _) returned
    exact ⟨verdict.2, verdict.1⟩
  · rintro ⟨positive, rfl⟩
    rcases Nat.exists_eq_succ_of_ne_zero (Nat.ne_of_gt positive) with ⟨last, rfl⟩
    refine ⟨lastArrivalAt kind concurrency last, last + 1, ?_⟩
    apply spinTries_returns (Nat.zero_add _) (Nat.zero_le last) (by omega)
    · rw [everyoneArrived_lastArrivalAt, decide_eq_true (Nat.le_refl last)]
    · intro earlier before
      rw [everyoneArrived_lastArrivalAt, decide_eq_false (Nat.not_le.mpr before)]

/-- A join that is reported as a stall stays one if it takes longer, and so the
division is raised for joins only that are longer than all that count as not
stalled. -/
structure MonotoneVerdict (nopSpinCount : BitVec 32) : Prop where
  stalls : forall polls more stalled, Reports kind concurrency nopSpinCount polls true -> polls ≤ more ->
    Reports kind concurrency nopSpinCount more stalled -> stalled = true
  raises : forall division polls fewer raised kept, adaptDivision division raised ≠ division ->
    Reports kind concurrency nopSpinCount polls raised -> Reports kind concurrency nopSpinCount fewer kept ->
    kept = false -> fewer < polls

/-- The verdict is monotone for fewer than 16 tries, when the comparison never holds. -/
theorem stall_verdict_monotone_iff (nopSpinCount : BitVec 32) :
    MonotoneVerdict kind concurrency nopSpinCount ↔ nopSpinCount.toNat < 16 := by
  constructor
  · intro monotone
    by_contra many
    have stall : Reports kind concurrency nopSpinCount 1 true := by
      rw [reports_iff, stallVerdict, if_pos (by omega)]
      exact ⟨Nat.one_pos, (decide_eq_true (by omega)).symm⟩
    have noStall : Reports kind concurrency nopSpinCount nopSpinCount.toNat false := by
      rw [reports_iff, stallVerdict, if_pos (Nat.le_refl _)]
      exact ⟨by omega, (decide_eq_false (by omega)).symm⟩
    cases monotone.stalls 1 nopSpinCount.toNat false stall (by omega) noStall
  · intro few
    have late : forall polls, Reports kind concurrency nopSpinCount polls true -> nopSpinCount.toNat < polls := by
      intro polls reports
      rw [reports_iff, stallVerdict] at reports
      split at reports
      · have less := of_decide_eq_true reports.2.symm
        omega
      · omega
    constructor
    · intro polls more stalled reports longer also
      have reached := late polls reports
      rw [reports_iff, stallVerdict, if_neg (by omega)] at also
      exact also.2
    · intro division polls fewer raised kept changes reports also notStalled
      cases raised with
      | false => exact absurd rfl changes
      | true =>
          have reached := late polls reports
          rw [notStalled, reports_iff, stallVerdict] at also
          split at also
          · omega
          · cases also.2

end Joins

/-- With the spin count of the callers, a join that ends at its first poll counts as
stalled, and one that takes half of the polls does not. -/
theorem stall_verdict_reversed :
    Reports (.futexBarrier .linux) .uint16 100000 1 true ∧ Reports (.futexBarrier .linux) .uint16 100000 50000 false ∧
      Not (MonotoneVerdict (.futexBarrier .linux) .uint16 100000) := by
  have stall : Reports (.futexBarrier .linux) .uint16 100000 1 true :=
    (reports_iff _ _ _ _ _).mpr ⟨by decide, by decide⟩
  have noStall : Reports (.futexBarrier .linux) .uint16 100000 50000 false :=
    (reports_iff _ _ _ _ _).mpr ⟨by decide, by decide⟩
  refine ⟨stall, noStall, fun monotone => ?_⟩
  cases monotone.stalls 1 50000 false stall (by decide) noStall

end Threading
end Sweater
