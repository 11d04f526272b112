import Sweater.Threading.Platform
import Sweater.Machine.Words
import Mathlib.Data.Nat.ModEq

namespace Sweater
namespace Threading

/-!
# Completion barriers

`futex_barrier` and `generic_barrier` keep one counter of the arrivals that
are still expected.  The two classes differ in the width of that counter and
in how a waiter is woken, not in the arithmetic of the counter.

`actives` returns a `hardware_concurrency_t`.  The futex counter is wider than
that on every backend except Windows, and `everyone_arrived` therefore looks
at the low bits only.  `everyoneArrived_iff_dvd` states what the test really
decides, and `everyoneArrived_exact_iff` states exactly when that agrees with
the arrivals that were expected and made.
-/

/-- The barrier class selected by `barrier.hpp`. -/
inductive BarrierKind
  | futexBarrier (backend : FutexBackend)
  | genericBarrier
  deriving DecidableEq, Repr

/-- The width of `counter_`. -/
def BarrierKind.counterBits (kind : BarrierKind) (concurrency : HardwareConcurrency) : Nat :=
  match kind with
  | futexBarrier backend => backend.valueBits concurrency
  | genericBarrier => concurrency.bits

theorem BarrierKind.bits_le_counterBits (kind : BarrierKind) (concurrency : HardwareConcurrency) :
    concurrency.bits ≤ kind.counterBits concurrency := by
  cases kind with
  | futexBarrier backend => exact concurrency.bits_le_valueBits backend
  | genericBarrier => exact Nat.le_refl _

/-- The data of a barrier with a counter of the given width. -/
structure Barrier (width : Nat) where
  counter : BitVec width
  spinWait : Bool
  deriving DecidableEq, Repr

namespace Barrier

variable {width bits : Nat}

/-- `futex_barrier( initial_value )`. -/
def construct (initialValue : BitVec bits) : Barrier width where
  counter := initialValue.setWidth width
  spinWait := false

def initializeWith (barrier : Barrier width) (initialValue : BitVec bits) : Barrier width :=
  { barrier with counter := initialValue.setWidth width }

def addExpectedArrival (barrier : Barrier width) : Barrier width :=
  { barrier with counter := barrier.counter + 1 }

def useSpinWait (barrier : Barrier width) (value : Bool) : Barrier width :=
  { barrier with spinWait := value }

/-- The read-modify-write of `arrive`. -/
def arrive (barrier : Barrier width) : Barrier width :=
  { barrier with counter := barrier.counter - 1 }

/-- Whether the arrival goes on to wake the waiter: never in spin mode, and
otherwise when its `fetch_sub` returned one. -/
def arriveWakes (barrier : Barrier width) : Bool :=
  !barrier.spinWait && barrier.counter == 1

/-- `static_cast<hardware_concurrency_t>( counter_.load() )`. -/
def actives (bits : Nat) (barrier : Barrier width) : BitVec bits :=
  barrier.counter.setWidth bits

def everyoneArrived (bits : Nat) (barrier : Barrier width) : Bool :=
  barrier.actives bits == 0

end Barrier

/-! ## Sequences of barrier operations -/

/-- An operation that changes the counter. -/
inductive BarrierOperation (bits : Nat)
  | initializeWith (initialValue : BitVec bits)
  | addExpectedArrival
  | arrive
  deriving DecidableEq, Repr

namespace BarrierOperation

variable {bits : Nat}

/-- The arrivals that an operation newly announces. -/
def announces : BarrierOperation bits -> Nat
  | initializeWith initialValue => initialValue.toNat
  | addExpectedArrival => 1
  | arrive => 0

/-- The arrivals announced by a sequence of operations. -/
def expected (operations : List (BarrierOperation bits)) : Nat :=
  (operations.map announces).sum

/-- The arrivals made by a sequence of operations. -/
def arrivals (operations : List (BarrierOperation bits)) : Nat :=
  operations.count arrive

/-- The arrivals announced but not made. -/
def outstanding (operations : List (BarrierOperation bits)) : Nat :=
  expected operations - arrivals operations

end BarrierOperation

open BarrierOperation

/-- A barrier after a sequence of operations.  Each operation is one atomic
access to the counter, so that every interleaving of the threads using the
barrier is one such sequence.  `initializeWith` keeps its assertion that the
counter is zero, and no thread arrives without being expected. -/
inductive BarrierRun (width bits : Nat) : List (BarrierOperation bits) -> Barrier width -> Prop
  | construct : BarrierRun width bits [] (Barrier.construct (0 : BitVec bits))
  | initializeWith {operations : List (BarrierOperation bits)} {barrier : Barrier width}
      (initialValue : BitVec bits) :
      BarrierRun width bits operations barrier -> barrier.counter = 0 ->
      BarrierRun width bits (operations ++ [.initializeWith initialValue])
        (barrier.initializeWith initialValue)
  | addExpectedArrival {operations : List (BarrierOperation bits)} {barrier : Barrier width} :
      BarrierRun width bits operations barrier ->
      BarrierRun width bits (operations ++ [.addExpectedArrival]) barrier.addExpectedArrival
  | arrive {operations : List (BarrierOperation bits)} {barrier : Barrier width} :
      BarrierRun width bits operations barrier -> arrivals operations < expected operations ->
      BarrierRun width bits (operations ++ [.arrive]) barrier.arrive

namespace BarrierOperation

variable {bits : Nat}

@[simp] theorem expected_append (operations : List (BarrierOperation bits))
    (operation : BarrierOperation bits) :
    expected (operations ++ [operation]) = expected operations + operation.announces := by
  simp only [expected, List.map_append, List.map_cons, List.map_nil, List.sum_append,
    List.sum_cons, List.sum_nil, Nat.add_zero]

@[simp] theorem arrivals_append (operations : List (BarrierOperation bits))
    (operation : BarrierOperation bits) :
    arrivals (operations ++ [operation]) =
      arrivals operations + if operation = .arrive then 1 else 0 := by
  simp only [arrivals, List.count_append, List.count_singleton, beq_iff_eq]

end BarrierOperation

/-! ## What the counter holds -/

section Counter

variable {width bits : Nat}

theorem BarrierRun.arrivals_le_expected {operations : List (BarrierOperation bits)}
    {barrier : Barrier width} (run : BarrierRun width bits operations barrier) :
    arrivals operations ≤ expected operations := by
  induction run with
  | construct => exact Nat.le_refl _
  | initializeWith initialValue _ _ inductionHypothesis =>
      rw [expected_append, arrivals_append, if_neg nofun]
      omega
  | addExpectedArrival _ inductionHypothesis =>
      rw [expected_append, arrivals_append, if_neg nofun]
      omega
  | arrive _ allowed _ =>
      rw [expected_append, arrivals_append, if_pos rfl]
      simp only [announces]
      omega

/-- The counter is the number of outstanding arrivals modulo its own width.
An `initializeWith` that is reached with a wrapped counter keeps this congruence,
because it then adds its argument to a multiple of the modulus. -/
theorem BarrierRun.counter_congruent (narrow : bits ≤ width)
    {operations : List (BarrierOperation bits)} {barrier : Barrier width}
    (run : BarrierRun width bits operations barrier) :
    barrier.counter.toNat + arrivals operations ≡ expected operations [MOD 2 ^ width] := by
  induction run with
  | construct =>
      simp only [Barrier.construct, arrivals, expected, List.count_nil, List.map_nil, List.sum_nil,
        BitVec.ofNat_eq_ofNat, BitVec.setWidth_zero, BitVec.toNat_zero]
      exact Nat.ModEq.refl _
  | @initializeWith operations barrier initialValue _ unused inductionHypothesis =>
      rw [unused, BitVec.ofNat_eq_ofNat, BitVec.toNat_zero, Nat.zero_add] at inductionHypothesis
      rw [expected_append, arrivals_append, if_neg nofun, Nat.add_zero, Barrier.initializeWith,
        Machine.toNat_setWidth_of_le narrow, Nat.add_comm]
      exact inductionHypothesis.add_right _
  | @addExpectedArrival operations barrier _ inductionHypothesis =>
      rw [expected_append, arrivals_append, if_neg nofun, Nat.add_zero]
      have counted : (barrier.addExpectedArrival).counter.toNat ≡
          barrier.counter.toNat + 1 [MOD 2 ^ width] := by
        simp only [Barrier.addExpectedArrival, BitVec.toNat_add, Nat.ModEq, Nat.mod_mod,
          BitVec.toNat_ofNat, BitVec.ofNat_eq_ofNat, Nat.add_mod_mod]
      calc (barrier.addExpectedArrival).counter.toNat + arrivals operations
          ≡ barrier.counter.toNat + 1 + arrivals operations [MOD 2 ^ width] := counted.add_right _
        _ ≡ barrier.counter.toNat + arrivals operations + 1 [MOD 2 ^ width] := by
            rw [Nat.add_right_comm]
        _ ≡ expected operations + 1 [MOD 2 ^ width] := inductionHypothesis.add_right 1
  | @arrive operations barrier _ _ inductionHypothesis =>
      rw [expected_append, arrivals_append, if_pos rfl]
      have counted : (barrier.arrive).counter.toNat + 1 ≡ barrier.counter.toNat [MOD 2 ^ width] := by
        have restored : barrier.arrive.counter + 1 = barrier.counter := by
          simp only [Barrier.arrive, BitVec.sub_add_cancel]
        have sum := congrArg BitVec.toNat restored
        rw [BitVec.toNat_add] at sum
        simp only [Nat.ModEq, ← sum, BitVec.ofNat_eq_ofNat, BitVec.toNat_ofNat, Nat.add_mod_mod,
          Nat.mod_mod]
      calc (barrier.arrive).counter.toNat + (arrivals operations + 1)
          = (barrier.arrive).counter.toNat + 1 + arrivals operations := by omega
        _ ≡ barrier.counter.toNat + arrivals operations [MOD 2 ^ width] := counted.add_right _
        _ ≡ expected operations + 0 [MOD 2 ^ width] := inductionHypothesis

/-- `everyone_arrived` decides divisibility of the number of outstanding
arrivals by the range of `hardware_concurrency_t`. -/
theorem BarrierRun.everyoneArrived_iff_dvd (narrow : bits ≤ width)
    {operations : List (BarrierOperation bits)} {barrier : Barrier width}
    (run : BarrierRun width bits operations barrier) :
    barrier.everyoneArrived bits = true ↔ 2 ^ bits ∣ outstanding operations := by
  have whole := run.counter_congruent narrow
  have low : barrier.counter.toNat + arrivals operations ≡ expected operations [MOD 2 ^ bits] :=
    whole.of_dvd (Nat.pow_dvd_pow 2 narrow)
  have ordered := run.arrivals_le_expected
  have difference : barrier.counter.toNat ≡ outstanding operations [MOD 2 ^ bits] := by
    apply Nat.ModEq.add_right_cancel' (arrivals operations)
    rwa [outstanding, Nat.sub_add_cancel ordered]
  rw [Barrier.everyoneArrived, beq_iff_eq, Barrier.actives, ← BitVec.toNat_inj,
    BitVec.toNat_setWidth, BitVec.ofNat_eq_ofNat, BitVec.toNat_zero, Nat.dvd_iff_mod_eq_zero]
  rw [Nat.ModEq] at difference
  rw [difference]

end Counter

/-! ## When the completion test is exact -/

/-- After every sequence of operations the completion test agrees with the
arrivals made so far, except in exactly those states where the number of
outstanding arrivals is a positive multiple of the range of
`hardware_concurrency_t`. -/
theorem everyoneArrived_exact_iff (kind : BarrierKind) (concurrency : HardwareConcurrency)
    (operations : List (BarrierOperation concurrency.bits))
    (barrier : Barrier (kind.counterBits concurrency))
    (run : BarrierRun (kind.counterBits concurrency) concurrency.bits operations barrier) :
    (barrier.everyoneArrived concurrency.bits = true ↔ arrivals operations = expected operations) ↔
      ¬ (0 < outstanding operations ∧ 2 ^ concurrency.bits ∣ outstanding operations) := by
  rw [run.everyoneArrived_iff_dvd (kind.bits_le_counterBits concurrency)]
  have ordered := run.arrivals_le_expected
  have settled : arrivals operations = expected operations ↔ outstanding operations = 0 := by
    unfold outstanding
    omega
  rw [settled]
  constructor
  · rintro exact ⟨positive, divides⟩
    exact Nat.ne_of_gt positive (exact.mp divides)
  · intro fewer
    constructor
    · intro divides
      exact Nat.eq_zero_of_not_pos (fun positive => fewer ⟨positive, divides⟩)
    · intro none
      rw [none]
      exact Nat.dvd_zero _

private theorem run_replicate_addExpectedArrival (width bits count : Nat) :
    BarrierRun width bits (List.replicate count .addExpectedArrival)
      { counter := BitVec.ofNat width count, spinWait := false } := by
  induction count with
  | zero =>
      have start := @BarrierRun.construct width bits
      simpa only [Barrier.construct, BitVec.ofNat_eq_ofNat, BitVec.setWidth_zero,
        List.replicate_zero] using start
  | succ count inductionHypothesis =>
      have next := inductionHypothesis.addExpectedArrival
      rw [List.replicate_succ']
      simpa only [Barrier.addExpectedArrival, BitVec.ofNat_eq_ofNat, ← BitVec.ofNat_add] using next

/-- The test is exact after a single announced arrival. -/
theorem everyoneArrived_exact_iff_one :
    (({ counter := 1, spinWait := false } : Barrier 32).everyoneArrived 8 = true ↔
        arrivals ([.addExpectedArrival] : List (BarrierOperation 8)) =
          expected ([.addExpectedArrival] : List (BarrierOperation 8))) ↔
      ¬ (0 < outstanding ([.addExpectedArrival] : List (BarrierOperation 8)) ∧
        2 ^ 8 ∣ outstanding ([.addExpectedArrival] : List (BarrierOperation 8))) :=
  everyoneArrived_exact_iff (.futexBarrier .linux) .uint8 [.addExpectedArrival] _
    (run_replicate_addExpectedArrival 32 8 1)

/-- Sixteen slices for each of sixteen workers on an 8-bit platform: the
barrier reports completion although nobody has arrived. -/
theorem everyoneArrived_with_256_outstanding :
    ¬ (forall (kind : BarrierKind) (concurrency : HardwareConcurrency)
        (operations : List (BarrierOperation concurrency.bits))
        (barrier : Barrier (kind.counterBits concurrency)),
      BarrierRun (kind.counterBits concurrency) concurrency.bits operations barrier ->
      (barrier.everyoneArrived concurrency.bits = true ↔
        arrivals operations = expected operations)) := by
  intro always
  have claimed := always (.futexBarrier .linux) .uint8
    (List.replicate (16 * 16) .addExpectedArrival) _
    (run_replicate_addExpectedArrival 32 8 (16 * 16))
  have none : arrivals (List.replicate (16 * 16) (.addExpectedArrival : BarrierOperation 8)) = 0 := by
    rw [arrivals, List.count_replicate]
    rfl
  have all : expected (List.replicate (16 * 16) (.addExpectedArrival : BarrierOperation 8)) = 256 := by
    rw [expected, List.map_replicate, List.sum_replicate_nat]
    rfl
  have reported : ({ counter := BitVec.ofNat 32 (16 * 16), spinWait := false } :
      Barrier 32).everyoneArrived 8 = true := by decide
  exact absurd (claimed.mp reported) (by
    intro equal
    have same := none.symm.trans (equal.trans all)
    exact absurd same (by decide))

end Threading
end Sweater
