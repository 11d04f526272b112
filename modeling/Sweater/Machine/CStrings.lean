import Mathlib.Data.List.TakeWhile

namespace Sweater
namespace Machine

/-!
# Strings in memory

Bytes in an array, read and written through indices.  An access outside the
array has no result, and neither has a loop whose fuel runs out.  A scan is
described by the pieces into which the characters that it looks for divide the
array.
-/

namespace CStrings

abbrev Bytes := List UInt8

/-- `std::strchr` on the bytes from `index` on. -/
def strchrFrom (wanted : UInt8) : Bytes -> Nat -> Option (Option Nat)
  | [], _ => none
  | byte :: rest, index =>
      if byte = wanted then some (some index)
      else if byte = 0 then some none
      else strchrFrom wanted rest (index + 1)

/-- `std::strchr( memory + start, wanted )` -/
def strchr (memory : Bytes) (start : Nat) (wanted : UInt8) : Option (Option Nat) :=
  strchrFrom wanted (memory.drop start) start

/-- `std::strlen( memory + start )` -/
def strlen (memory : Bytes) (start : Nat) : Option Nat :=
  (strchr memory start 0).bind (fun found => found.map (fun index => index - start))

/-- `std::strncmp( memory + start, text, length of text ) == 0` -/
def strncmpEqual (memory : Bytes) (start : Nat) : Bytes -> Option Bool
  | [] => some true
  | expected :: rest =>
      match memory[start]? with
      | none => none
      | some byte => if byte = expected then strncmpEqual memory (start + 1) rest else some false

/-- `memory[ index ] = byte` -/
def write (memory : Bytes) (index : Nat) (byte : UInt8) : Option Bytes :=
  if index < memory.length then some (memory.set index byte) else none

/-- `std::memcpy( target, source + start, length )` -/
def memcpy (target source : Bytes) (start length : Nat) : Option Bytes :=
  if start + length ≤ source.length ∧ length ≤ target.length then
    some ((source.drop start).take length ++ target.drop length)
  else none

/-- The string that an array holds. -/
def stringOf (memory : Bytes) : Bytes := memory.takeWhile (fun byte => byte ≠ 0)

section Scans

variable {wanted : UInt8} {piece rest memory before : Bytes}

/-- A scan goes on behind the byte that it has found. -/
theorem append_passed (byte : UInt8) : before ++ (piece ++ [byte]) ++ rest = before ++ (piece ++ byte :: rest) := by
  rw [List.append_assoc, List.append_assoc, List.singleton_append]

theorem length_passed (byte : UInt8) : (before ++ (piece ++ [byte])).length = before.length + piece.length + 1 := by
  rw [List.length_append, List.length_append, List.length_singleton]
  omega

/-- A scan passes over what it does not look for. -/
theorem strchrFrom_append (absent : wanted ∉ piece) (text : 0 ∉ piece) (index : Nat) :
    strchrFrom wanted (piece ++ rest) index = strchrFrom wanted rest (index + piece.length) := by
  induction piece generalizing index with
  | nil => rfl
  | cons byte bytes inductionHypothesis =>
      have notWanted : byte ≠ wanted := fun same => absent (same ▸ List.mem_cons_self)
      have notZero : byte ≠ 0 := fun same => text (same ▸ List.mem_cons_self)
      rw [List.cons_append, strchrFrom, if_neg notWanted, if_neg notZero,
        inductionHypothesis (fun member => absent (List.mem_cons_of_mem _ member))
          (fun member => text (List.mem_cons_of_mem _ member)),
        List.length_cons, Nat.add_assoc, Nat.add_comm 1]

/-- A scan of a terminated string ends, and never goes back. -/
theorem strchrFrom_ends (terminated : 0 ∈ rest) (index : Nat) :
    Exists fun found => strchrFrom wanted rest index = some found ∧ forall place, found = some place -> index ≤ place := by
  induction rest generalizing index with
  | nil => cases terminated
  | cons byte bytes inductionHypothesis =>
      rw [strchrFrom]
      split
      · exact ⟨some index, rfl, fun place same => Nat.le_of_eq (Option.some.inj same)⟩
      · split
        · exact ⟨none, rfl, nofun⟩
        · rename_i notZero
          have later : 0 ∈ bytes := (List.mem_cons.mp terminated).resolve_left (fun same => notZero same.symm)
          obtain ⟨found, same, further⟩ := inductionHypothesis later (index + 1)
          exact ⟨found, same, fun place here => Nat.le_of_succ_le (further place here)⟩

theorem strchr_append (absent : wanted ∉ piece) (text : 0 ∉ piece) :
    strchr (before ++ (piece ++ rest)) before.length wanted = strchrFrom wanted rest (before.length + piece.length) := by
  rw [strchr, List.drop_left, strchrFrom_append absent text]

theorem strchr_found (absent : wanted ∉ piece) (text : 0 ∉ piece) :
    strchr (before ++ (piece ++ wanted :: rest)) before.length wanted = some (some (before.length + piece.length)) := by
  rw [strchr_append absent text, strchrFrom, if_pos rfl]

/-- What is found lies beyond the bytes that do not contain it. -/
theorem strchr_beyond (absent : wanted ∉ piece) (text : 0 ∉ piece) (terminated : 0 ∈ rest) :
    Exists fun found => strchr (before ++ (piece ++ rest)) before.length wanted = some found ∧
      forall place, found = some place -> before.length + piece.length ≤ place := by
  rw [strchr_append absent text]
  exact strchrFrom_ends terminated _

theorem strchr_none (absent : wanted ∉ piece) (text : 0 ∉ piece) (nonzero : wanted ≠ 0) :
    strchr (before ++ (piece ++ [0])) before.length wanted = some none := by
  rw [strchr_append absent text, strchrFrom, if_neg (Ne.symm nonzero), if_pos rfl]

theorem strlen_append (text : 0 ∉ piece) :
    strlen (before ++ (piece ++ 0 :: rest)) before.length = some piece.length := by
  rw [strlen, strchr_found text text]
  exact congrArg some (Nat.add_sub_cancel_left _ _)

theorem strncmpEqual_append (expected : Bytes) (same : piece.length = expected.length) :
    strncmpEqual (before ++ (piece ++ rest)) before.length expected = some (decide (piece = expected)) := by
  induction expected generalizing piece before with
  | nil =>
      rw [List.length_eq_zero_iff.mp same]
      rfl
  | cons wanted others inductionHypothesis =>
      cases piece with
      | nil => cases same
      | cons byte bytes =>
          have here : (before ++ (byte :: bytes ++ rest))[before.length]? = some byte := by
            rw [List.getElem?_append_right (Nat.le_refl _), Nat.sub_self]
            rfl
          rw [strncmpEqual, here]
          dsimp only
          by_cases equal : byte = wanted
          · subst equal
            have shifted := @inductionHypothesis bytes (before ++ [byte]) (Nat.succ.inj same)
            rw [List.append_assoc, List.length_append, List.length_singleton] at shifted
            rw [if_pos rfl]
            change strncmpEqual (before ++ ([byte] ++ (bytes ++ rest))) (before.length + 1) others = _
            rw [shifted]
            congr 1
            exact decide_eq_decide.mpr (by rw [List.cons.injEq, eq_self, true_and])
          · rw [if_neg equal]
            congr 1
            exact (decide_eq_false (fun whole => equal (List.cons.inj whole).1)).symm

theorem memcpy_append {target : Bytes} {length : Nat} (inside : length ≤ piece.length) (room : length ≤ target.length) :
    memcpy target (before ++ (piece ++ rest)) before.length length = some (piece.take length ++ target.drop length) := by
  have fits : before.length + length ≤ (before ++ (piece ++ rest)).length := by
    rw [List.length_append, List.length_append]
    omega
  rw [memcpy, if_pos ⟨fits, room⟩, List.drop_left, List.take_append_of_le_length inside]

theorem write_append {byte : UInt8} (after : Bytes) (old : UInt8) :
    write (before ++ old :: after) before.length byte = some (before ++ byte :: after) := by
  have inside : before.length < (before ++ old :: after).length := by
    rw [List.length_append, List.length_cons]
    omega
  rw [write, if_pos inside, List.set_append_right _ _ (Nat.le_refl _), Nat.sub_self]
  rfl

theorem stringOf_append (text : 0 ∉ piece) : stringOf (piece ++ 0 :: rest) = piece := by
  have kept : forall byte, byte ∈ piece -> decide (byte ≠ 0) = true :=
    fun byte member => decide_eq_true (fun zero => text (zero ▸ member))
  rw [stringOf, List.takeWhile_append_of_pos kept, List.takeWhile_cons_of_neg (by decide), List.append_nil]

end Scans

end CStrings

end Machine
end Sweater
