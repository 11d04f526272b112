import Mathlib.Data.List.Perm.Basic
import Mathlib.Data.List.Nodup
import Mathlib.Logic.Function.Basic

namespace Sweater
namespace Machine

universe u v

/-!
# Counters kept in an unordered list

A table of counters that is almost always nearly empty is often kept as a list
with one entry for every key whose counter is positive, in no particular
order.  `Tallies` relates such a list to the counters it stands for.  The
relation does not see the order of the entries, so that an implementation is
free to fill a gap with the last entry.
-/

variable {Entry : Type u} {Key : Type v} {key : Entry -> Key} {count : Entry -> Nat}

/-- The entries are exactly the positive counters. -/
structure Tallies (key : Entry -> Key) (count : Entry -> Nat) (entries : List Entry)
    (total : Key -> Nat) : Prop where
  unique : (entries.map key).Nodup
  agrees : forall entry, entry ∈ entries -> count entry = total (key entry)
  positive : forall entry, entry ∈ entries -> 0 < count entry
  complete : forall wanted, 0 < total wanted -> wanted ∈ entries.map key

namespace Tallies

variable {entries entries' : List Entry} {total : Key -> Nat} {entry : Entry}

theorem empty : Tallies key count [] (fun _ => 0) :=
  ⟨List.nodup_nil, nofun, nofun, nofun⟩

theorem mem_keys_iff (tallies : Tallies key count entries total) (wanted : Key) :
    wanted ∈ entries.map key ↔ 0 < total wanted := by
  constructor
  · intro present
    rcases List.mem_map.mp present with ⟨entry, member, rfl⟩
    rw [← tallies.agrees entry member]
    exact tallies.positive entry member
  · exact tallies.complete wanted

/-- The order of the entries does not matter. -/
theorem perm (tallies : Tallies key count entries total) (same : entries.Perm entries') :
    Tallies key count entries' total := by
  constructor
  · exact ((same.map key).nodup_iff).mp tallies.unique
  · exact fun entry member => tallies.agrees entry (same.mem_iff.mpr member)
  · exact fun entry member => tallies.positive entry (same.mem_iff.mpr member)
  · exact fun wanted positive => (same.map key).mem_iff.mp (tallies.complete wanted positive)

variable [DecidableEq Key]

/-- A counter that was zero becomes positive. -/
theorem cons (tallies : Tallies key count entries total) (fresh : total (key entry) = 0)
    (positive : 0 < count entry) :
    Tallies key count (entry :: entries) (Function.update total (key entry) (count entry)) := by
  have absent : key entry ∉ entries.map key := by
    rw [tallies.mem_keys_iff, fresh]
    exact Nat.lt_irrefl 0
  have others : forall other, other ∈ entries -> key other ≠ key entry :=
    fun other member same => absent (same ▸ List.mem_map_of_mem member)
  constructor
  · exact List.nodup_cons.mpr ⟨absent, tallies.unique⟩
  · intro other member
    rcases List.mem_cons.mp member with rfl | member
    · rw [Function.update_self]
    · rw [Function.update_of_ne (others other member)]
      exact tallies.agrees other member
  · intro other member
    rcases List.mem_cons.mp member with rfl | member
    · exact positive
    · exact tallies.positive other member
  · intro wanted some
    by_cases same : wanted = key entry
    · exact List.mem_cons.mpr (Or.inl same)
    · rw [Function.update_of_ne same] at some
      exact List.mem_cons_of_mem _ (tallies.complete wanted some)

/-- A counter is set to zero and its entry goes. -/
theorem tail (tallies : Tallies key count (entry :: entries) total) :
    Tallies key count entries (Function.update total (key entry) 0) := by
  have absent : key entry ∉ entries.map key := (List.nodup_cons.mp tallies.unique).1
  constructor
  · exact (List.nodup_cons.mp tallies.unique).2
  · intro other member
    have different : key other ≠ key entry := fun same => absent (same ▸ List.mem_map_of_mem member)
    rw [Function.update_of_ne different]
    exact tallies.agrees other (List.mem_cons_of_mem _ member)
  · exact fun other member => tallies.positive other (List.mem_cons_of_mem _ member)
  · intro wanted some
    by_cases same : wanted = key entry
    · rw [same, Function.update_self] at some
      cases some
    · rw [Function.update_of_ne same] at some
      exact (List.mem_cons.mp (tallies.complete wanted some)).resolve_left same

theorem push (tallies : Tallies key count entries total) (entry : Entry) (fresh : total (key entry) = 0)
    (positive : 0 < count entry) :
    Tallies key count (entries ++ [entry]) (Function.update total (key entry) (count entry)) :=
  (tallies.cons fresh positive).perm (List.perm_append_singleton entry entries).symm

/-- The entry at an index goes. -/
theorem eraseIdx (tallies : Tallies key count entries total) {index : Nat}
    (inside : index < entries.length) :
    Tallies key count (entries.eraseIdx index) (Function.update total (key entries[index]) 0) :=
  (tallies.perm (List.getElem_cons_eraseIdx_perm inside).symm).tail

/-- The entry at an index is given a new positive count. -/
theorem set (tallies : Tallies key count entries total) (entry : Entry) {index : Nat}
    (inside : index < entries.length) (same : key entry = key entries[index]) (positive : 0 < count entry) :
    Tallies key count (entries.set index entry) (Function.update total (key entry) (count entry)) := by
  have removed := tallies.eraseIdx inside
  rw [← same] at removed
  have added := removed.cons (Function.update_self _ _ _) positive
  rw [Function.update_idem] at added
  exact added.perm (List.set_perm_cons_eraseIdx inside entry).symm

end Tallies

/-- Filling a gap with the last entry removes the entry that was there. -/
theorem set_getLast_dropLast_perm {entries : List Entry} {index : Nat} {last : Entry}
    (inside : index < entries.length) (isLast : entries.getLast? = some last) :
    (entries.set index last).dropLast.Perm (entries.eraseIdx index) := by
  rcases List.getLast?_eq_some_iff.mp isLast with ⟨init, rfl⟩
  by_cases middle : index < init.length
  · rw [List.set_append_left _ _ middle, List.dropLast_concat, List.eraseIdx_append_of_lt_length middle]
    exact (List.set_perm_cons_eraseIdx middle last).trans (List.perm_append_singleton last _).symm
  · have atEnd : index = init.length := by
      rw [List.length_append, List.length_singleton] at inside
      omega
    rw [atEnd, List.set_append_right _ _ (Nat.le_refl _), List.eraseIdx_append_of_length_le (Nat.le_refl _)]
    simp only [Nat.sub_self, List.set_cons_zero, List.dropLast_concat, List.eraseIdx_cons_zero,
      List.append_nil]
    exact List.Perm.refl _

end Machine
end Sweater
