import Mathlib.Data.BitVec
import Mathlib.Tactic.Ring

namespace Sweater
namespace Machine

/-!
# Fixed-width words that stay in range

Atomic counters are machine words and wrap.  The lemmas here state, once for
every width, when an addition or subtraction on a word is the addition or
subtraction of the integers it represents.  Bounds are doubled where a signed
range is meant, so that no half power of two has to be mentioned.
-/

variable {width bits : Nat}

theorem toNat_setWidth_of_le (wide : bits ≤ width) (value : BitVec bits) :
    (value.setWidth width).toNat = value.toNat := by
  rw [BitVec.toNat_setWidth]
  exact Nat.mod_eq_of_lt (Nat.lt_of_lt_of_le value.isLt
    (Nat.pow_le_pow_right (by decide) wide))

/-- The smaller of two words, as the standard library compares them. -/
theorem toNat_min (first second : BitVec width) :
    (if second < first then second else first).toNat = min first.toNat second.toNat := by
  by_cases less : second < first
  · rw [if_pos less, Nat.min_eq_right (Nat.le_of_lt less)]
  · rw [if_neg less, Nat.min_eq_left (Nat.not_lt.mp less)]

theorem toNat_add_one (value : BitVec width) (room : value.toNat + 1 < 2 ^ width) :
    (value + 1).toNat = value.toNat + 1 := by
  have one : 1 < 2 ^ width := by omega
  rw [BitVec.toNat_add, BitVec.ofNat_eq_ofNat, BitVec.toNat_ofNat, Nat.mod_eq_of_lt one,
    Nat.mod_eq_of_lt room]

theorem toNat_sub_one (value : BitVec width) (positive : 0 < value.toNat) :
    (value - 1).toNat + 1 = value.toNat := by
  have bounded := value.isLt
  have room : (value - 1).toNat + 1 < 2 ^ width ∨ (value - 1).toNat + 1 = 2 ^ width := by
    have := (value - 1).isLt
    omega
  have restored : ((value - 1) + 1).toNat = value.toNat :=
    congrArg BitVec.toNat (BitVec.sub_add_cancel value 1)
  rcases room with room | full
  · rwa [toNat_add_one _ room] at restored
  · have one : (1 : BitVec width).toNat = 1 % 2 ^ width := by
      rw [BitVec.ofNat_eq_ofNat, BitVec.toNat_ofNat]
    rw [BitVec.toNat_add, one, Nat.add_mod_mod, full, Nat.mod_self] at restored
    omega

theorem toNat_add_setWidth (wide : bits ≤ width) (value : BitVec width) (count : BitVec bits)
    (room : value.toNat + count.toNat < 2 ^ width) :
    (value + count.setWidth width).toNat = value.toNat + count.toNat := by
  rw [BitVec.toNat_add, toNat_setWidth_of_le wide, Nat.mod_eq_of_lt room]

/-- A small count is not changed by reading it as a signed word. -/
theorem toInt_setWidth (wide : bits ≤ width) (count : BitVec bits)
    (fits : 2 * count.toNat < 2 ^ width) : (count.setWidth width).toInt = count.toNat := by
  rw [BitVec.toInt_eq_toNat_of_lt (by rwa [toNat_setWidth_of_le wide]),
    toNat_setWidth_of_le wide]

theorem toInt_add_setWidth (wide : bits ≤ width) (value : BitVec width) (count : BitVec bits)
    (fits : 2 * count.toNat < 2 ^ width)
    (room : 2 * (value.toInt + count.toNat) < ((2 ^ width : Nat) : Int)) :
    (value + count.setWidth width).toInt = value.toInt + count.toNat := by
  have low : -((2 ^ width : Nat) : Int) ≤ 2 * value.toInt := by
    have := BitVec.le_two_mul_toInt (x := value)
    simpa only [Nat.cast_pow, Nat.cast_ofNat] using this
  rw [BitVec.toInt_add, toInt_setWidth wide count fits]
  exact Int.bmod_eq_of_le_mul_two (by omega) (by omega)

theorem toInt_sub_one (large : 1 < width) (value : BitVec width)
    (room : -((2 ^ width : Nat) : Int) ≤ 2 * (value.toInt - 1)) :
    (value - 1).toInt = value.toInt - 1 := by
  have high : 2 * value.toInt < ((2 ^ width : Nat) : Int) := by
    have := BitVec.two_mul_toInt_lt (x := value)
    simpa only [Nat.cast_pow, Nat.cast_ofNat] using this
  rw [BitVec.toInt_sub, BitVec.ofNat_eq_ofNat, BitVec.toInt_one large]
  exact Int.bmod_eq_of_le_mul_two (by omega) (by omega)

end Machine
end Sweater
