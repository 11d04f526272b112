import Sweater.Machine.Words

namespace Sweater
namespace Threading

/-!
# The state word of the futex reader-writer lock

Three announcement bits stand above a reader count.  The code tests and
updates them with bitwise operations on the whole word; `RwWord.view` reads
the four fields out of a word, and the lemmas here say what each operation of
the code does to the fields.  Everything is stated for an arbitrary width of
at least three bits.
-/

/-- The fields of a state word. -/
structure RwView where
  locked : Bool
  waiting : Bool
  parked : Bool
  readers : Nat
  deriving DecidableEq, Repr

namespace RwWord

variable {width : Nat}

/-- `state_t{ 1 } << ( state_bits - 1 )` -/
def writerLockedBit (width : Nat) : BitVec width := 1#(width) <<< (width - 1)

/-- `state_t{ 1 } << ( state_bits - 2 )` -/
def writerWaitingBit (width : Nat) : BitVec width := 1#(width) <<< (width - 2)

/-- `state_t{ 1 } << ( state_bits - 3 )` -/
def readerParkedBit (width : Nat) : BitVec width := 1#(width) <<< (width - 3)

def parkedBits (width : Nat) : BitVec width := writerWaitingBit width ||| readerParkedBit width

def readerMask (width : Nat) : BitVec width := readerParkedBit width - 1

def view (word : BitVec width) : RwView where
  locked := word.getLsbD (width - 1)
  waiting := word.getLsbD (width - 2)
  parked := word.getLsbD (width - 3)
  readers := word.toNat % 2 ^ (width - 3)

/-! ## Masks -/

theorem getLsbD_bit (index place : Nat) (small : index < width) :
    (1#(width) <<< index).getLsbD place = decide (index = place) := by
  rw [← BitVec.twoPow_eq, BitVec.getLsbD_twoPow, decide_eq_true small, Bool.true_and]

theorem toNat_bit {index : Nat} (small : index < width) : (1#(width) <<< index).toNat = 2 ^ index := by
  rw [← BitVec.twoPow_eq, BitVec.toNat_twoPow_of_lt small]

theorem and_bit_eq_zero_iff (word : BitVec width) {index : Nat} (small : index < width) :
    word &&& 1#(width) <<< index = 0#(width) ↔ word.getLsbD index = false := by
  rw [← BitVec.twoPow_eq, BitVec.and_twoPow]
  cases set : word.getLsbD index with
  | false => simp
  | true =>
      have nonzero : BitVec.twoPow width index ≠ 0#(width) := by
        intro zero
        have value := congrArg BitVec.toNat zero
        rw [BitVec.toNat_twoPow_of_lt small, BitVec.toNat_zero] at value
        exact absurd value (Nat.ne_of_gt (Nat.two_pow_pos index))
      simp [nonzero]

theorem and_or_eq_zero_iff (word first second : BitVec width) :
    word &&& (first ||| second) = 0#(width) ↔ word &&& first = 0#(width) ∧ word &&& second = 0#(width) := by
  rw [BitVec.and_or_distrib_left, BitVec.or_eq_zero_iff]

theorem toNat_readerMask (layout : 3 ≤ width) : (readerMask width).toNat + 1 = 2 ^ (width - 3) := by
  have bit : (readerParkedBit width).toNat = 2 ^ (width - 3) := toNat_bit (by omega)
  have positive := Nat.two_pow_pos (width - 3)
  rw [readerMask, Machine.toNat_sub_one _ (by omega), bit]

theorem toNat_and_readerMask (layout : 3 ≤ width) (word : BitVec width) :
    (word &&& readerMask width).toNat = (view word).readers := by
  have mask := toNat_readerMask layout
  have value : (readerMask width).toNat = 2 ^ (width - 3) - 1 := by omega
  rw [BitVec.toNat_and, value, Nat.and_two_pow_sub_one_eq_mod]
  rfl

theorem and_readerMask_eq_zero_iff (layout : 3 ≤ width) (word : BitVec width) :
    word &&& readerMask width = 0#(width) ↔ (view word).readers = 0 := by
  rw [← toNat_and_readerMask layout, ← BitVec.toNat_inj, BitVec.toNat_zero]

theorem and_writerLockedBit_eq_zero_iff (layout : 3 ≤ width) (word : BitVec width) :
    word &&& writerLockedBit width = 0#(width) ↔ (view word).locked = false :=
  and_bit_eq_zero_iff word (by omega)

theorem and_writerWaitingBit_eq_zero_iff (layout : 3 ≤ width) (word : BitVec width) :
    word &&& writerWaitingBit width = 0#(width) ↔ (view word).waiting = false :=
  and_bit_eq_zero_iff word (by omega)

theorem and_readerParkedBit_eq_zero_iff (layout : 3 ≤ width) (word : BitVec width) :
    word &&& readerParkedBit width = 0#(width) ↔ (view word).parked = false :=
  and_bit_eq_zero_iff word (by omega)

/-- The condition on the exchanged-out state in `release_rw`. -/
theorem and_parkedBits_eq_zero_iff (layout : 3 ≤ width) (word : BitVec width) :
    word &&& parkedBits width = 0#(width) ↔ (view word).waiting = false ∧ (view word).parked = false := by
  rw [parkedBits, and_or_eq_zero_iff, and_writerWaitingBit_eq_zero_iff layout,
    and_readerParkedBit_eq_zero_iff layout]

/-- "Free to take": no readers and no writer holding. -/
theorem and_holders_eq_zero_iff (layout : 3 ≤ width) (word : BitVec width) :
    word &&& (readerMask width ||| writerLockedBit width) = 0#(width) ↔
      (view word).readers = 0 ∧ (view word).locked = false := by
  rw [and_or_eq_zero_iff, and_readerMask_eq_zero_iff layout, and_writerLockedBit_eq_zero_iff layout]

/-! ## Updates -/

@[simp] theorem view_zero : view (0#(width)) = ⟨false, false, false, 0⟩ := by
  simp [view]

/-- The four fields determine the word. -/
theorem eq_zero_of_view_eq (layout : 3 ≤ width) (word : BitVec width)
    (fields : view word = ⟨false, false, false, 0⟩) : word = 0#(width) := by
  simp only [view, RwView.mk.injEq] at fields
  rcases fields with ⟨locked, waiting, parked, readers⟩
  ext place inside
  rw [BitVec.getElem_zero, BitVec.getElem_eq_testBit_toNat]
  by_cases low : place < width - 3
  · have same := Nat.testBit_mod_two_pow word.toNat (width - 3) place
    rw [readers, Nat.zero_testBit, decide_eq_true low, Bool.true_and] at same
    exact same.symm
  · have high : place = width - 1 ∨ place = width - 2 ∨ place = width - 3 := by omega
    rcases high with rfl | rfl | rfl
    · exact locked
    · exact waiting
    · exact parked

theorem view_or_bit (word : BitVec width) {index : Nat}
    (high : width - 3 ≤ index) (small : index < width) :
    view (word ||| 1#(width) <<< index) =
      { locked := (view word).locked || decide (index = width - 1)
        waiting := (view word).waiting || decide (index = width - 2)
        parked := (view word).parked || decide (index = width - 3)
        readers := (view word).readers } := by
  have aligned : 2 ^ index % 2 ^ (width - 3) = 0 :=
    Nat.mod_eq_zero_of_dvd (Nat.pow_dvd_pow 2 high)
  simp only [view, BitVec.getLsbD_or, getLsbD_bit _ _ small, BitVec.toNat_or, toNat_bit small,
    Nat.or_mod_two_pow, aligned, Nat.or_zero]

/-- A writer announces itself. -/
theorem view_or_writerWaitingBit (layout : 3 ≤ width) (word : BitVec width) :
    view (word ||| writerWaitingBit width) = { view word with waiting := true } := by
  have first : ¬ width - 2 = width - 1 := by omega
  have third : ¬ width - 2 = width - 3 := by omega
  rw [writerWaitingBit, view_or_bit word (by omega) (by omega)]
  simp [first, third]

/-- A reader announces itself. -/
theorem view_or_readerParkedBit (layout : 3 ≤ width) (word : BitVec width) :
    view (word ||| readerParkedBit width) = { view word with parked := true } := by
  have first : ¬ width - 3 = width - 1 := by omega
  have second : ¬ width - 3 = width - 2 := by omega
  rw [readerParkedBit, view_or_bit word (Nat.le_refl _) (by omega)]
  simp [first, second]

theorem view_and_parkedBits (layout : 3 ≤ width) (word : BitVec width) :
    view (word &&& parkedBits width) =
      { locked := false, waiting := (view word).waiting, parked := (view word).parked, readers := 0 } := by
  have order : ¬ width - 2 = width - 1 ∧ ¬ width - 3 = width - 1 ∧ ¬ width - 3 = width - 2 ∧
      ¬ width - 2 = width - 3 := by omega
  have waiting : 2 ^ (width - 2) % 2 ^ (width - 3) = 0 :=
    Nat.mod_eq_zero_of_dvd (Nat.pow_dvd_pow 2 (by omega))
  simp [view, parkedBits, writerWaitingBit, readerParkedBit, BitVec.getLsbD_and, BitVec.getLsbD_or,
    getLsbD_bit _ _ (show width - 2 < width by omega), getLsbD_bit _ _ (show width - 3 < width by omega),
    BitVec.toNat_and, BitVec.toNat_or, toNat_bit (show width - 2 < width by omega),
    toNat_bit (show width - 3 < width by omega), Nat.and_mod_two_pow, Nat.or_mod_two_pow, waiting, order]

/-- A writer takes the lock and keeps the announcements of others. -/
theorem view_writerLockedBit_or (layout : 3 ≤ width) (word : BitVec width) :
    view (writerLockedBit width ||| word &&& parkedBits width) =
      { locked := true, waiting := (view word).waiting, parked := (view word).parked, readers := 0 } := by
  have second : ¬ width - 1 = width - 2 := by omega
  have third : ¬ width - 1 = width - 3 := by omega
  rw [BitVec.or_comm, writerLockedBit, view_or_bit _ (by omega) (by omega),
    view_and_parkedBits layout]
  simp [second, third]

/-- Adding to the reader count below its mask leaves the announcements alone. -/
theorem view_of_div_eq (layout : 3 ≤ width) (word word' : BitVec width)
    (high : word'.toNat / 2 ^ (width - 3) = word.toNat / 2 ^ (width - 3)) :
    view word' = { view word with readers := word'.toNat % 2 ^ (width - 3) } := by
  have bits : forall place, width - 3 ≤ place -> word'.getLsbD place = word.getLsbD place := by
    intro place above
    have split : place = (place - (width - 3)) + (width - 3) := by omega
    rw [BitVec.getLsbD, BitVec.getLsbD, split, ← Nat.testBit_div_two_pow, ← Nat.testBit_div_two_pow, high]
  simp [view, bits _ (Nat.le_refl (width - 3)), bits (width - 2) (by omega), bits (width - 1) (by omega)]

/-- One more reader, below the mask. -/
theorem view_add_one (layout : 3 ≤ width) (word : BitVec width)
    (room : (view word).readers + 1 < 2 ^ (width - 3)) :
    view (word + 1) = { view word with readers := (view word).readers + 1 } := by
  change word.toNat % 2 ^ (width - 3) + 1 < 2 ^ (width - 3) at room
  have positive := Nat.two_pow_pos (width - 3)
  have parts := Nat.div_add_mod word.toNat (2 ^ (width - 3))
  have whole : 2 ^ width = 2 ^ (width - 3) * 8 := by
    rw [show (8 : Nat) = 2 ^ 3 from rfl, ← Nat.pow_add]
    congr 1
    omega
  have top : word.toNat / 2 ^ (width - 3) < 8 := by
    rw [Nat.div_lt_iff_lt_mul positive, Nat.mul_comm, ← whole]
    exact word.isLt
  have bound : word.toNat + 1 < 2 ^ width := by
    have upto : 2 ^ (width - 3) * (word.toNat / 2 ^ (width - 3)) ≤ 2 ^ (width - 3) * 7 :=
      Nat.mul_le_mul_left _ (by omega)
    omega
  have value := Machine.toNat_add_one word bound
  have sum : word.toNat + 1 = (word.toNat % 2 ^ (width - 3) + 1) +
      2 ^ (width - 3) * (word.toNat / 2 ^ (width - 3)) := by omega
  rw [view_of_div_eq layout word (word + 1)]
  · rw [value, sum, Nat.add_mul_mod_self_left, Nat.mod_eq_of_lt room]
    rfl
  · rw [value, sum, Nat.add_mul_div_left _ _ positive, Nat.div_eq_of_lt room, Nat.zero_add]

/-- One reader less. -/
theorem view_sub_one (layout : 3 ≤ width) (word : BitVec width) (some : 0 < (view word).readers) :
    view (word - 1) = { view word with readers := (view word).readers - 1 } := by
  change 0 < word.toNat % 2 ^ (width - 3) at some
  have positive := Nat.two_pow_pos (width - 3)
  have parts := Nat.div_add_mod word.toNat (2 ^ (width - 3))
  have low := Nat.mod_lt word.toNat positive
  have value := Machine.toNat_sub_one word (by omega)
  have difference : (word - 1).toNat = (word.toNat % 2 ^ (width - 3) - 1) +
      2 ^ (width - 3) * (word.toNat / 2 ^ (width - 3)) := by omega
  have fits : word.toNat % 2 ^ (width - 3) - 1 < 2 ^ (width - 3) := by omega
  rw [view_of_div_eq layout word (word - 1)]
  · rw [difference, Nat.add_mul_mod_self_left, Nat.mod_eq_of_lt fits]
    rfl
  · rw [difference, Nat.add_mul_div_left _ _ positive, Nat.div_eq_of_lt fits, Nat.zero_add]

end RwWord

end Threading
end Sweater
