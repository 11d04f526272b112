import Mathlib.Data.Nat.Digits.Lemmas
import Sweater.Machine.CStrings

namespace Sweater
namespace Machine

/-!
# Decimal numbers in text

`strtol` reads a signed decimal number off the front of a text and stops at the
first byte that does not belong to it.  Numbers that the type cannot represent
are clamped to its range.  `decimal` writes a positive number.
-/

namespace CStrings

def isSpace (byte : UInt8) : Bool := byte = 32 || (9 ≤ byte && byte ≤ 13)

def isDigit (byte : UInt8) : Bool := 48 ≤ byte && byte ≤ 57

/-- The number that a sequence of digits denotes. -/
def magnitude (digits : Bytes) : Nat := Nat.ofDigits 10 (digits.reverse.map (fun byte => byte.toNat - 48))

/-- The nearest number with the given number of bits. -/
def clamp (bits : Nat) (value : Int) : Int := max (-2 ^ (bits - 1)) (min value (2 ^ (bits - 1) - 1))

/-- An optional sign. -/
def sign : Bytes -> Bool × Bytes
  | [] => (false, [])
  | byte :: rest => if byte = 45 then (true, rest) else if byte = 43 then (false, rest) else (false, byte :: rest)

/-- `std::strtol( text, &rest, 10 )`, for a `long` with the given number of bits. -/
def strtol (bits : Nat) (text : Bytes) : Int × Bytes :=
  let signed := sign (text.dropWhile isSpace)
  let digits := signed.2.takeWhile isDigit
  if digits = [] then (0, text)
  else (clamp bits (if signed.1 then -magnitude digits else magnitude digits), signed.2.dropWhile isDigit)

def digit (value : Nat) : UInt8 := UInt8.ofNat (48 + value)

/-- A positive number in decimal. -/
def decimal (value : Nat) : Bytes := ((Nat.digits 10 value).map digit).reverse

section Decimals

theorem digit_toNat {value : Nat} (small : value < 10) : (digit value).toNat = 48 + value := by
  rw [digit, UInt8.toNat_ofNat', Nat.mod_eq_of_lt (by omega)]

theorem isDigit_digit {value : Nat} (small : value < 10) : isDigit (digit value) = true := by
  have whole := digit_toNat small
  rw [isDigit, Bool.and_eq_true, decide_eq_true_iff, decide_eq_true_iff, UInt8.le_iff_toNat_le, UInt8.le_iff_toNat_le, whole]
  exact ⟨Nat.le_add_right _ _, by change 48 + value ≤ 57; omega⟩

theorem decimal_digits {value : Nat} {byte : UInt8} (member : byte ∈ decimal value) : isDigit byte = true := by
  obtain ⟨place, here, rfl⟩ := List.mem_map.mp (List.mem_reverse.mp member)
  exact isDigit_digit (Nat.digits_lt_base (by omega) here)

theorem decimal_ne_nil {value : Nat} (positive : 0 < value) : decimal value ≠ [] := by
  rw [decimal, Ne, List.reverse_eq_nil_iff, List.map_eq_nil_iff]
  exact Nat.digits_ne_nil_iff_ne_zero.mpr (Nat.ne_of_gt positive)

theorem magnitude_decimal (value : Nat) : magnitude (decimal value) = value := by
  have places : ((Nat.digits 10 value).map digit).map (fun byte => byte.toNat - 48) = Nat.digits 10 value := by
    rw [List.map_map]
    refine (List.map_congr_left ?_).trans (List.map_id _)
    intro place member
    change (digit place).toNat - 48 = place
    rw [digit_toNat (Nat.digits_lt_base (by omega) member)]
    omega
  rw [magnitude, decimal, List.reverse_reverse, places, Nat.ofDigits_digits]

theorem decimal_length {value places : Nat} (small : value < 10 ^ places) : (decimal value).length ≤ places := by
  rw [decimal, List.length_reverse, List.length_map]
  exact (Nat.digits_length_le_iff (by omega) value).mpr small

theorem range_of_isDigit {byte : UInt8} (numeral : isDigit byte = true) : 48 ≤ byte.toNat ∧ byte.toNat ≤ 57 := by
  rw [isDigit, Bool.and_eq_true, decide_eq_true_iff, decide_eq_true_iff, UInt8.le_iff_toNat_le,
    UInt8.le_iff_toNat_le] at numeral
  exact numeral

theorem not_isSpace_of_isDigit {byte : UInt8} (numeral : isDigit byte = true) : isSpace byte = false := by
  have range := range_of_isDigit numeral
  rw [isSpace, Bool.or_eq_false_iff, Bool.and_eq_false_iff, decide_eq_false_iff_not, decide_eq_false_iff_not,
    decide_eq_false_iff_not, UInt8.le_iff_toNat_le, UInt8.le_iff_toNat_le]
  refine ⟨?_, Or.inr (Nat.not_le.mpr (Nat.lt_of_lt_of_le (by decide : 13 < 48) range.1))⟩
  rintro rfl
  exact absurd range.1 (by decide)

/-- A numeral has no sign. -/
theorem sign_of_isDigit {byte : UInt8} (rest : Bytes) (numeral : isDigit byte = true) :
    sign (byte :: rest) = (false, byte :: rest) := by
  have range := range_of_isDigit numeral
  rw [sign, if_neg, if_neg]
  · rintro rfl
    exact absurd range.1 (by decide)
  · rintro rfl
    exact absurd range.1 (by decide)

theorem takeWhile_stop {rest : Bytes} (stop : forall byte, rest.head? = some byte -> isDigit byte = false) :
    rest.takeWhile isDigit = [] ∧ rest.dropWhile isDigit = rest := by
  cases rest with
  | nil => exact ⟨rfl, rfl⟩
  | cons byte bytes =>
      have here : ¬isDigit byte = true := by
        rw [stop byte rfl]
        exact Bool.false_ne_true
      exact ⟨List.takeWhile_cons_of_neg here, List.dropWhile_cons_of_neg here⟩

/-- What the type can represent is not clamped. -/
theorem clamp_of_lt {bits value : Nat} (fits : value < 2 ^ (bits - 1)) : clamp bits value = value := by
  have bound : (value : Int) ≤ 2 ^ (bits - 1) - 1 := by
    have lifted : (value : Int) < ((2 ^ (bits - 1) : Nat) : Int) := Int.ofNat_lt.mpr fits
    rw [Nat.cast_pow] at lifted
    exact Int.le_sub_one_of_lt lifted
  have positivePower : (0 : Int) < 2 ^ (bits - 1) := Int.pow_pos (by decide)
  rw [clamp, min_eq_left bound, max_eq_right]
  omega

/-- Larger numbers become the largest one of the type. -/
theorem clamp_of_le {bits value : Nat} (large : 2 ^ (bits - 1) ≤ value) :
    clamp bits value = ((2 ^ (bits - 1) - 1 : Nat) : Int) := by
  have positive : 0 < 2 ^ (bits - 1) := Nat.two_pow_pos _
  have lifted : (2 : Int) ^ (bits - 1) = ((2 ^ (bits - 1) : Nat) : Int) := (Nat.cast_pow 2 _).symm
  rw [clamp, lifted]
  omega

/-- What has been written is read, and the reading stops behind it. -/
theorem strtol_decimal (bits : Nat) {value : Nat} (positive : 0 < value) {rest : Bytes}
    (stop : forall byte, rest.head? = some byte -> isDigit byte = false) :
    strtol bits (decimal value ++ rest) = (clamp bits value, rest) := by
  obtain ⟨first, others, same⟩ := List.exists_cons_of_ne_nil (decimal_ne_nil positive)
  have numerals : forall byte, byte ∈ decimal value -> isDigit byte = true := fun _ member => decimal_digits member
  have firstNumeral : isDigit first = true := numerals first (same ▸ List.mem_cons_self)
  have signed : sign ((decimal value ++ rest).dropWhile isSpace) = (false, decimal value ++ rest) := by
    rw [same, List.cons_append, List.dropWhile_cons_of_neg (by rw [not_isSpace_of_isDigit firstNumeral]; exact Bool.false_ne_true)]
    exact sign_of_isDigit _ firstNumeral
  have digits : (decimal value ++ rest).takeWhile isDigit = decimal value := by
    rw [List.takeWhile_append_of_pos numerals, (takeWhile_stop stop).1, List.append_nil]
  have remaining : (decimal value ++ rest).dropWhile isDigit = rest := by
    rw [List.dropWhile_append_of_pos numerals, (takeWhile_stop stop).2]
  rw [strtol, signed]
  dsimp only
  rw [digits, if_neg (decimal_ne_nil positive), remaining, magnitude_decimal, if_neg Bool.false_ne_true]

/-- Leading blanks do not matter to the value. -/
theorem strtol_blank (bits : Nat) (text : Bytes) : (strtol bits (32 :: text)).1 = (strtol bits text).1 := by
  have blank : (32 :: text).dropWhile isSpace = text.dropWhile isSpace := List.dropWhile_cons_of_pos rfl
  rw [strtol, strtol, blank]
  split <;> rfl

end Decimals

end CStrings

end Machine
end Sweater
