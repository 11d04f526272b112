import Sweater.Machine.CStrings

namespace Sweater
namespace Threading

open Machine CStrings

/-!
# The control group of the process

`/proc/self/cgroup` is searched for the line of one hierarchy with scans that
are bounded by the whole text and not by the line; whatever they find is
compared with the end of the line afterwards.  `Extracts` is the grammar, line
by line, and says nothing about scans.
-/

namespace Cgroup

def newline : UInt8 := 10
def comma : UInt8 := 44
def slash : UInt8 := 47
def colon : UInt8 := 58

/-- "cpu" -/
def cpu : Bytes := [99, 112, 117]

/-! ## The code -/

/-- Where an entry ends: at the comma that was found, but not beyond the list. -/
def entryEnd (stop : Nat) : Option Nat -> Nat
  | none => stop
  | some place => if stop < place then stop else place

def entryIsCpu (memory : Bytes) (entry entryEnd : Nat) : Option Bool :=
  if entryEnd - entry = 3 then strncmpEqual memory entry cpu else some false

/-- `has_cpu_controller`, for at most `fuel` evaluations of the guard. -/
def hasCpuController (memory : Bytes) (stop : Nat) : Nat -> Nat -> Option Bool
  | 0, _ => none
  | fuel + 1, entry =>
      if entry < stop then do
        let found ← strchr memory entry comma
        let matched ← entryIsCpu memory entry (entryEnd stop found)
        if matched then some true else hasCpuController memory stop fuel (entryEnd stop found + 1)
      else some false

/-- `field2` and `field3`, if the line has both. -/
def lineFields (memory : Bytes) (line lineEnd : Nat) : Option (Option (Nat × Nat)) := do
  match ← strchr memory line colon with
  | none => some none
  | some field2 =>
      if field2 < lineEnd then
        match ← strchr memory (field2 + 1) colon with
        | none => some none
        | some field3 => if field3 < lineEnd then some (some (field2, field3)) else some none
      else some none

/-- Whether the controller field is the one of the hierarchy. -/
def fieldMatches (memory : Bytes) (v2 : Bool) (field2 field3 : Nat) : Option Bool :=
  if v2 then some (decide (field2 + 1 = field3)) else hasCpuController memory field3 memory.length (field2 + 1)

/-- `field3` of a line that belongs to the hierarchy. -/
def matchingField (memory : Bytes) (v2 : Bool) (line lineEnd : Nat) : Option (Option Nat) := do
  match ← lineFields memory line lineEnd with
  | none => some none
  | some (field2, field3) => do
      let matched ← fieldMatches memory v2 field2 field3
      some (if matched then some field3 else none)

/-- The path is copied, as far as there is room, and the hierarchy root is
made empty. -/
def copyPath (memory out : Bytes) (field3 lineEnd : Nat) : Option Bytes := do
  let length := min (lineEnd - field3 - 1) (out.length - 1)
  let copied ← memcpy out memory (field3 + 1) length
  let terminated ← write copied length 0
  if length = 1 ∧ terminated[0]? = some slash then write terminated 0 0 else some terminated

/-- The loop of `self_cgroup`, for at most `fuel` evaluations of its guard. -/
def selfCgroupFrom (memory : Bytes) (v2 : Bool) (out : Bytes) : Nat -> Option Nat -> Option Bytes
  | 0, _ => none
  | _ + 1, none => some out
  | fuel + 1, some line => do
      let first ← memory[line]?
      if first = 0 then some out else
        let eol ← strchr memory line newline
        let lineEnd ← match eol with
          | some place => some place
          | none => (strlen memory line).map (fun length => line + length)
        match ← matchingField memory v2 line lineEnd with
        | some field3 => copyPath memory out field3 lineEnd
        | none => selfCgroupFrom memory v2 out fuel (eol.map (fun place => place + 1))

/-- `self_cgroup` with a buffer of `out.length` bytes. -/
def selfCgroup (memory : Bytes) (v2 : Bool) (out : Bytes) : Option Bytes := do
  let emptied ← write out 0 0
  selfCgroupFrom memory v2 emptied (memory.length + 1) (some 0)

/-! ## The grammar -/

/-- A line with two colons: what stands between them, and what stands after the second. -/
def HasFields (line controllers path : Bytes) : Prop :=
  Exists fun id => line = id ++ colon :: (controllers ++ colon :: path) ∧ colon ∉ id ∧ colon ∉ controllers

section Fields

variable {before line rest controllers path : Bytes}

/-- A list has one first colon. -/
theorem first_colon {id idToo tail tailToo : Bytes} (noColon : colon ∉ id) (noColonToo : colon ∉ idToo)
    (same : id ++ colon :: tail = idToo ++ colon :: tailToo) : id = idToo ∧ tail = tailToo := by
  induction id generalizing idToo with
  | nil =>
      cases idToo with
      | nil => exact ⟨rfl, (List.cons.inj same).2⟩
      | cons byte bytes =>
          rw [← (List.cons.inj same).1] at noColonToo
          exact absurd List.mem_cons_self noColonToo
  | cons byte bytes inductionHypothesis =>
      cases idToo with
      | nil =>
          rw [(List.cons.inj same).1] at noColon
          exact absurd List.mem_cons_self noColon
      | cons byteToo bytesToo =>
          obtain ⟨rfl, later⟩ := List.cons.inj same
          obtain ⟨rfl, rest⟩ := inductionHypothesis (fun member => noColon (List.mem_cons_of_mem _ member))
            (fun member => noColonToo (List.mem_cons_of_mem _ member)) later
          exact ⟨rfl, rest⟩

theorem HasFields.unique {controllersToo pathToo : Bytes} (fields : HasFields line controllers path)
    (fieldsToo : HasFields line controllersToo pathToo) : controllersToo = controllers ∧ pathToo = path := by
  obtain ⟨id, rfl, noColon, whole⟩ := fields
  obtain ⟨idToo, same, noColonToo, wholeToo⟩ := fieldsToo
  obtain ⟨_, later⟩ := first_colon noColon noColonToo same
  obtain ⟨rfl, rfl⟩ := first_colon whole wholeToo later
  exact ⟨rfl, rfl⟩

end Fields

/-- The controller field of the hierarchy: empty, or a list with the entry "cpu". -/
def Selected (v2 : Bool) (controllers : Bytes) : Prop :=
  if v2 then controllers = [] else cpu ∈ controllers.splitOn comma

instance (v2 : Bool) (controllers : Bytes) : Decidable (Selected v2 controllers) :=
  match v2 with
  | true => inferInstanceAs (Decidable (controllers = []))
  | false => inferInstanceAs (Decidable (cpu ∈ controllers.splitOn comma))

/-- The path field of the first line that belongs to the hierarchy. -/
inductive Extracts (v2 : Bool) : List Bytes -> Option Bytes -> Prop
  | nowhere : Extracts v2 [] none
  | here {line controllers path : Bytes} (lines : List Bytes) :
      HasFields line controllers path -> Selected v2 controllers -> Extracts v2 (line :: lines) (some path)
  | later {line : Bytes} {lines : List Bytes} {path : Option Bytes} :
      (forall controllers path, HasFields line controllers path -> ¬Selected v2 controllers) ->
      Extracts v2 lines path -> Extracts v2 (line :: lines) path

/-- The first line is a first line. -/
theorem Extracts.unique {v2 : Bool} {lines : List Bytes} {first second : Option Bytes}
    (extracts : Extracts v2 lines first) (extractsToo : Extracts v2 lines second) : second = first := by
  induction extracts with
  | nowhere =>
      cases extractsToo
      rfl
  | here lines fields selected =>
      cases extractsToo with
      | here _ fieldsToo _ => rw [(fields.unique fieldsToo).2]
      | later other _ => exact absurd selected (other _ _ fields)
  | later other _ inductionHypothesis =>
      cases extractsToo with
      | here _ fieldsToo selectedToo => exact absurd selectedToo (other _ _ fieldsToo)
      | later _ rest => exact inductionHypothesis rest

/-- The hierarchy root is written as the empty string. -/
def rootless (path : Bytes) : Bytes := if path = [slash] then [] else path

/-! ## The scans -/

section Scans

variable {before piece line rest : Bytes}

/-- The test of one entry: three characters, and those of "cpu". -/
theorem entryIsCpu_eq :
    entryIsCpu (before ++ (piece ++ rest)) before.length (before.length + piece.length) =
      some (decide (piece = cpu)) := by
  rw [entryIsCpu, Nat.add_sub_cancel_left]
  by_cases three : piece.length = 3
  · rw [if_pos three]
    exact strncmpEqual_append cpu three
  · rw [if_neg three, decide_eq_false]
    rintro rfl
    exact three rfl

/-- The list of controllers is searched to its end, and not beyond. -/
theorem hasCpuController_eq (text : 0 ∉ piece) (terminated : 0 ∈ rest) {fuel : Nat} (enough : piece.length < fuel) :
    hasCpuController (before ++ (piece ++ rest)) (before.length + piece.length) fuel before.length =
      some (decide (cpu ∈ piece.splitOn comma)) := by
  induction fuel generalizing before piece with
  | zero => exact absurd enough (Nat.not_lt_zero _)
  | succ fuel inductionHypothesis =>
      rw [hasCpuController]
      by_cases empty : piece = []
      · subst empty
        rw [if_neg (by rw [List.length_nil]; exact Nat.lt_irrefl _)]
        rfl
      have inside : before.length < before.length + piece.length :=
        Nat.lt_add_of_pos_right (List.length_pos_iff.mpr empty)
      rw [if_pos inside]
      by_cases separated : comma ∈ piece
      · obtain ⟨entry, more, rfl, whole⟩ := List.eq_append_cons_of_mem separated
        have entryText : 0 ∉ entry := fun member => text (List.mem_append_left _ member)
        have moreText : 0 ∉ more := fun member => text (List.mem_append_right _ (List.mem_cons_of_mem _ member))
        have lengths : (entry ++ comma :: more).length = entry.length + 1 + more.length := by
          rw [List.length_append, List.length_cons]
          omega
        have found : strchr (before ++ (entry ++ comma :: (more ++ rest))) before.length comma =
            some (some (before.length + entry.length)) := strchr_found whole entryText
        have bounded : entryEnd (before.length + (entry ++ comma :: more).length) (some (before.length + entry.length)) =
            before.length + entry.length := if_neg (by omega)
        have matched : entryIsCpu (before ++ (entry ++ comma :: (more ++ rest))) before.length
            (before.length + entry.length) = some (decide (entry = cpu)) := entryIsCpu_eq
        have later := @inductionHypothesis (before ++ (entry ++ [comma])) more moreText (by omega)
        have stop : before.length + entry.length + 1 + more.length = before.length + (entry ++ comma :: more).length := by
          omega
        rw [length_passed, stop, append_passed] at later
        rw [List.append_assoc, List.cons_append, found, List.splitOn_append_cons_self_of_not_mem whole more]
        change (entryIsCpu _ _ _ >>= _) = _
        rw [bounded, matched]
        change (if decide (entry = cpu) = true then some true else hasCpuController _ _ _ _) = _
        rw [later]
        by_cases entryHere : entry = cpu
        · rw [decide_eq_true entryHere, if_pos rfl, decide_eq_true (entryHere ▸ List.mem_cons_self)]
        · rw [decide_eq_false entryHere, if_neg Bool.false_ne_true]
          congr 1
          exact decide_eq_decide.mpr (by rw [List.mem_cons, or_iff_right (Ne.symm entryHere)])
      · obtain ⟨found, scanned, beyond⟩ := @strchr_beyond comma piece rest before separated text terminated
        have bounded : entryEnd (before.length + piece.length) found = before.length + piece.length := by
          cases found with
          | none => rfl
          | some place =>
              have further := beyond place rfl
              rw [entryEnd]
              split <;> omega
        rw [scanned, List.splitOn_eq_singleton separated]
        change (entryIsCpu _ _ _ >>= _) = _
        rw [bounded, entryIsCpu_eq]
        change (if decide (piece = cpu) = true then some true else hasCpuController _ _ _ _) = _
        by_cases entryHere : piece = cpu
        · rw [decide_eq_true entryHere, if_pos rfl, decide_eq_true (List.mem_singleton.mpr entryHere.symm)]
        · rw [decide_eq_false entryHere, if_neg Bool.false_ne_true,
            decide_eq_false (fun member => entryHere (List.mem_singleton.mp member).symm)]
          cases fuel with
          | zero => omega
          | succ fuel => rw [hasCpuController, if_neg (by omega)]

/-- The scans for colons find the two fields of the line, or what they find lies behind it. -/
theorem lineFields_cases (text : 0 ∉ line) (terminated : 0 ∈ rest) :
    (Exists fun id => Exists fun controllers => Exists fun path =>
      (line = id ++ colon :: (controllers ++ colon :: path) ∧ colon ∉ id ∧ colon ∉ controllers) ∧
      lineFields (before ++ (line ++ rest)) before.length (before.length + line.length) =
        some (some (before.length + id.length, before.length + id.length + 1 + controllers.length))) ∨
    ((forall controllers path, ¬HasFields line controllers path) ∧
      lineFields (before ++ (line ++ rest)) before.length (before.length + line.length) = some none) := by
  by_cases first : colon ∈ line
  · obtain ⟨id, more, rfl, noColon⟩ := List.eq_append_cons_of_mem first
    have idText : 0 ∉ id := fun member => text (List.mem_append_left _ member)
    have moreText : 0 ∉ more := fun member => text (List.mem_append_right _ (List.mem_cons_of_mem _ member))
    have lengths : (id ++ colon :: more).length = id.length + 1 + more.length := by
      rw [List.length_append, List.length_cons]
      omega
    have found : strchr (before ++ (id ++ colon :: (more ++ rest))) before.length colon =
        some (some (before.length + id.length)) := strchr_found noColon idText
    have inside : before.length + id.length < before.length + (id ++ colon :: more).length := by omega
    have second : (before ++ (id ++ [colon])).length + more.length = before.length + (id ++ colon :: more).length := by
      rw [length_passed]
      omega
    rw [List.append_assoc, List.cons_append]
    by_cases further : colon ∈ more
    · left
      obtain ⟨controllers, path, rfl, whole⟩ := List.eq_append_cons_of_mem further
      have controllersText : 0 ∉ controllers := fun member => moreText (List.mem_append_left _ member)
      have pathLengths : (controllers ++ colon :: path).length = controllers.length + 1 + path.length := by
        rw [List.length_append, List.length_cons]
        omega
      have foundToo : strchr (before ++ (id ++ colon :: (controllers ++ colon :: path ++ rest)))
          (before.length + id.length + 1) colon =
          some (some (before.length + id.length + 1 + controllers.length)) := by
        have scanned := @strchr_found colon controllers (path ++ rest) (before ++ (id ++ [colon])) whole controllersText
        rw [length_passed, append_passed] at scanned
        rw [List.append_assoc, List.cons_append]
        exact scanned
      have insideToo : before.length + id.length + 1 + controllers.length <
          before.length + (id ++ colon :: (controllers ++ colon :: path)).length := by omega
      refine ⟨id, controllers, path, ⟨rfl, noColon, whole⟩, ?_⟩
      simp only [lineFields, found, foundToo, Option.bind_eq_bind, Option.bind_some, if_pos inside, if_pos insideToo]
    · right
      refine ⟨?_, ?_⟩
      · rintro controllers path ⟨idToo, same, noColonToo, _⟩
        obtain ⟨_, rfl⟩ := first_colon noColon noColonToo same
        exact further (List.mem_append_right _ List.mem_cons_self)
      · obtain ⟨foundToo, scanned, beyond⟩ :=
          @strchr_beyond colon more rest (before ++ (id ++ [colon])) further moreText terminated
        rw [append_passed, length_passed] at scanned
        cases foundToo with
        | none => simp only [lineFields, found, scanned, Option.bind_eq_bind, Option.bind_some, if_pos inside]
        | some place =>
            have behind := beyond place rfl
            rw [second] at behind
            simp only [lineFields, found, scanned, Option.bind_eq_bind, Option.bind_some, if_pos inside,
              if_neg (Nat.not_lt.mpr behind)]
  · right
    refine ⟨?_, ?_⟩
    · rintro controllers path ⟨id, rfl, _⟩
      exact first (List.mem_append_right _ List.mem_cons_self)
    · obtain ⟨found, scanned, beyond⟩ := @strchr_beyond colon line rest before first text terminated
      cases found with
      | none => simp only [lineFields, scanned, Option.bind_eq_bind, Option.bind_some]
      | some place =>
          simp only [lineFields, scanned, Option.bind_eq_bind, Option.bind_some, if_neg (Nat.not_lt.mpr (beyond place rfl))]

/-- The line is selected by its controller field, and the path begins behind `field3`. -/
theorem matchingField_cases (v2 : Bool) (text : 0 ∉ line) (terminated : 0 ∈ rest) :
    (Exists fun controllers => Exists fun path => HasFields line controllers path ∧ Selected v2 controllers ∧
      Exists fun start => line = start ++ path ∧
        matchingField (before ++ (line ++ rest)) v2 before.length (before.length + line.length) =
          some (some (before.length + start.length - 1)) ∧ 0 < start.length) ∨
    ((forall controllers path, HasFields line controllers path -> ¬Selected v2 controllers) ∧
      matchingField (before ++ (line ++ rest)) v2 before.length (before.length + line.length) = some none) := by
  rcases @lineFields_cases before line rest text terminated with
    ⟨id, controllers, path, ⟨whole, noColon, noColonToo⟩, found⟩ | ⟨nowhere, found⟩
  · have fields : HasFields line controllers path := ⟨id, whole, noColon, noColonToo⟩
    have controllersText : 0 ∉ controllers := by
      intro member
      rw [whole] at text
      exact text (List.mem_append_right _ (List.mem_cons_of_mem _ (List.mem_append_left _ member)))
    have matched : fieldMatches (before ++ (line ++ rest)) v2 (before.length + id.length)
        (before.length + id.length + 1 + controllers.length) = some (decide (Selected v2 controllers)) := by
      cases v2 with
      | true =>
          change some (decide _) = some (decide (controllers = []))
          congr 1
          refine decide_eq_decide.mpr ?_
          rw [← List.length_eq_zero_iff]
          omega
      | false =>
          have searched := @hasCpuController_eq (before ++ (id ++ [colon])) controllers (colon :: (path ++ rest))
            controllersText (List.mem_cons_of_mem _ (List.mem_append_right _ terminated))
            (before ++ (line ++ rest)).length (by
              rw [whole]
              simp only [List.length_append, List.length_cons]
              omega)
          rw [length_passed, append_passed] at searched
          change hasCpuController _ _ _ _ = some (decide (cpu ∈ controllers.splitOn comma))
          rw [← searched, whole]
          simp only [List.append_assoc, List.cons_append]
    by_cases selected : Selected v2 controllers
    · left
      refine ⟨controllers, path, fields, selected, id ++ colon :: (controllers ++ [colon]), ?_, ?_, ?_⟩
      · rw [whole]
        simp only [List.append_assoc, List.cons_append, List.nil_append]
      · simp only [matchingField, found, matched, Option.bind_eq_bind, Option.bind_some, decide_eq_true selected, if_true,
          List.length_append, List.length_cons, List.length_nil]
        congr 2
        omega
      · rw [List.length_append, List.length_cons]
        omega
    · right
      refine ⟨?_, ?_⟩
      · intro controllersToo pathToo fieldsToo
        rw [(fields.unique fieldsToo).1]
        exact selected
      · simp only [matchingField, found, matched, Option.bind_eq_bind, Option.bind_some, decide_eq_false selected,
          Bool.false_eq_true, if_false]
  · right
    refine ⟨fun controllers path fields => absurd fields (nowhere controllers path), ?_⟩
    simp only [matchingField, found, Option.bind_eq_bind, Option.bind_some]

/-- The copy is cut to the room that there is, terminated, and rootless. -/
theorem copyPath_eq {start path out : Bytes} (text : 0 ∉ path) (somewhere : 0 < start.length) (room : 1 < out.length) :
    Exists fun result =>
      copyPath (start ++ (path ++ rest)) out (start.length - 1) (start.length + path.length) = some result ∧
        result.length = out.length ∧ stringOf result = rootless (path.take (out.length - 1)) := by
  have behind : start.length - 1 + 1 = start.length := by omega
  have available : start.length + path.length - (start.length - 1) - 1 = path.length := by omega
  have size : (path.take (out.length - 1)).length = min path.length (out.length - 1) := by
    rw [List.length_take, Nat.min_comm]
  have cut : path.take (min path.length (out.length - 1)) = path.take (out.length - 1) := by
    rw [Nat.min_comm, ← List.take_take, List.take_of_length_le (Nat.le_refl path.length)]
  obtain ⟨old, after, remaining⟩ : Exists fun old => Exists fun after =>
      out.drop (min path.length (out.length - 1)) = old :: after := by
    apply List.exists_cons_of_ne_nil
    rw [Ne, List.drop_eq_nil_iff]
    omega
  have copied := @memcpy_append path rest start out (min path.length (out.length - 1)) (Nat.min_le_left _ _) (by omega)
  rw [cut, remaining] at copied
  have terminated : write (path.take (out.length - 1) ++ old :: after) (min path.length (out.length - 1)) 0 =
      some (path.take (out.length - 1) ++ 0 :: after) := by
    rw [← size]
    exact write_append after old
  have takenText : 0 ∉ path.take (out.length - 1) := fun member => text (List.mem_of_mem_take member)
  have whole : (path.take (out.length - 1) ++ 0 :: after).length = out.length := by
    have dropped := congrArg List.length remaining
    rw [List.length_drop, List.length_cons] at dropped
    rw [List.length_append, List.length_cons, size]
    omega
  by_cases root : path.take (out.length - 1) = [slash]
  · have one : min path.length (out.length - 1) = 1 := by
      rw [← size, root]
      rfl
    rw [root] at copied terminated whole
    rw [one] at copied terminated
    refine ⟨0 :: 0 :: after, ?_, whole, ?_⟩
    · simp only [copyPath, behind, available, one, copied, terminated, Option.bind_eq_bind, Option.bind_some]
      rfl
    · rw [root, rootless, if_pos rfl]
      exact stringOf_append List.not_mem_nil
  · refine ⟨path.take (out.length - 1) ++ 0 :: after, ?_, whole, ?_⟩
    · have other : ¬(min path.length (out.length - 1) = 1 ∧ (path.take (out.length - 1) ++ 0 :: after)[0]? = some slash) := by
        rintro ⟨one, first⟩
        rw [← size] at one
        obtain ⟨only, same⟩ := List.length_eq_one_iff.mp one
        rw [same] at first
        exact root (by rw [same, Option.some.inj first])
      simp only [copyPath, behind, available, copied, terminated, Option.bind_eq_bind, Option.bind_some, if_neg other]
    · rw [rootless, if_neg root]
      exact stringOf_append takenText

end Scans

/-! ## The search -/

section Search

variable {v2 : Bool} {out : Bytes}

/-- What the search promises about the buffer, given the lines that are left. -/
def Finds (v2 : Bool) (lines : List Bytes) (out : Bytes) (result : Option Bytes) : Prop :=
  Exists fun filled => Exists fun path => result = some filled ∧ Extracts v2 lines path ∧
    filled.length = out.length ∧ stringOf filled = rootless ((path.getD []).take (out.length - 1))

/-- No line is left. -/
theorem finds_nothing (empty : stringOf out = []) : Finds v2 [] out (some out) := by
  refine ⟨out, none, rfl, .nowhere, rfl, ?_⟩
  rw [empty, Option.getD_none, List.take_nil]
  rfl

/-- One line: it is copied from, or the search goes on. -/
theorem finds_line {before line rest : Bytes} {lines : List Bytes} {next : Option Bytes} (text : 0 ∉ line)
    (terminated : 0 ∈ rest) (room : 1 < out.length) (later : Finds v2 lines out next) :
    Finds v2 (line :: lines) out
      ((matchingField (before ++ (line ++ rest)) v2 before.length (before.length + line.length)).bind (fun field =>
        match field with
        | some field3 => copyPath (before ++ (line ++ rest)) out field3 (before.length + line.length)
        | none => next)) := by
  rcases @matchingField_cases before line rest v2 text terminated with
    ⟨controllers, path, fields, selected, start, rfl, found, somewhere⟩ | ⟨other, found⟩
  · have pathText : 0 ∉ path := fun member => text (List.mem_append_right _ member)
    have length : (before ++ start).length = before.length + start.length := List.length_append
    obtain ⟨filled, copied, same, holds⟩ :=
      @copyPath_eq rest (before ++ start) path out pathText (by omega) room
    have stop : before.length + start.length + path.length = before.length + (start ++ path).length := by
      rw [List.length_append]
      omega
    rw [length, stop, List.append_assoc, ← List.append_assoc start] at copied
    rw [found]
    exact ⟨filled, some path, copied, .here lines fields selected, same, holds⟩
  · obtain ⟨filled, path, returned, extracts, same, holds⟩ := later
    rw [found]
    exact ⟨filled, path, returned, .later other extracts, same, holds⟩

/-- The loop, by the lines that are left. -/
theorem selfCgroupFrom_finds (room : 1 < out.length) (empty : stringOf out = []) {fuel : Nat} {before text : Bytes}
    (noNul : 0 ∉ text) (enough : text.length + 1 < fuel) :
    Finds v2 (text.splitOn newline) out
      (selfCgroupFrom (before ++ (text ++ [0])) v2 out fuel (some before.length)) := by
  induction fuel generalizing before text with
  | zero => exact absurd enough (Nat.not_lt_zero _)
  | succ fuel inductionHypothesis =>
      by_cases spent : text = []
      · subst spent
        have here : (before ++ ([] ++ [0]))[before.length]? = some 0 := by
          rw [List.nil_append, List.getElem?_concat_length]
        obtain ⟨filled, path, returned, extracts, same, holds⟩ := @finds_nothing v2 out empty
        refine ⟨filled, path, ?_, .later ?_ extracts, same, holds⟩
        · simp only [selfCgroupFrom, here, Option.bind_eq_bind, Option.bind_some, if_true]
          exact returned
        · rintro controllers path ⟨id, whole, _⟩
          cases id <;> cases whole
      have first : Exists fun byte => (before ++ (text ++ [0]))[before.length]? = some byte ∧ byte ≠ 0 := by
        obtain ⟨byte, bytes, rfl⟩ := List.exists_cons_of_ne_nil spent
        refine ⟨byte, ?_, fun zero => noNul (zero ▸ List.mem_cons_self)⟩
        rw [List.getElem?_append_right (Nat.le_refl _), Nat.sub_self]
        rfl
      obtain ⟨byte, here, nonzero⟩ := first
      by_cases ended : newline ∈ text
      · obtain ⟨line, more, rfl, whole⟩ := List.eq_append_cons_of_mem ended
        have lineText : 0 ∉ line := fun member => noNul (List.mem_append_left _ member)
        have moreText : 0 ∉ more := fun member => noNul (List.mem_append_right _ (List.mem_cons_of_mem _ member))
        have eol : strchr (before ++ (line ++ newline :: (more ++ [0]))) before.length newline =
            some (some (before.length + line.length)) := strchr_found whole lineText
        have later := @inductionHypothesis (before ++ (line ++ [newline])) more moreText (by
          rw [List.length_append, List.length_cons] at enough
          omega)
        rw [append_passed, length_passed] at later
        have found := @finds_line v2 out before line (newline :: (more ++ [0])) _ _ lineText
          (List.mem_cons_of_mem _ (List.mem_append_right _ List.mem_cons_self)) room later
        rw [List.splitOn_append_cons_self_of_not_mem whole more]
        rw [List.append_assoc, List.cons_append] at here ⊢
        simp only [selfCgroupFrom, here, eol, Option.bind_eq_bind, Option.bind_some, if_neg nonzero, Option.map_some]
        exact found
      · have eol : strchr (before ++ (text ++ [0])) before.length newline = some none :=
          strchr_none ended noNul (by decide)
        have length : strlen (before ++ (text ++ [0])) before.length = some text.length := strlen_append noNul
        have later : Finds v2 [] out (selfCgroupFrom (before ++ (text ++ [0])) v2 out fuel none) := by
          cases fuel with
          | zero => omega
          | succ fuel => exact finds_nothing empty
        have found := @finds_line v2 out before text [0] _ _ noNul List.mem_cons_self room later
        rw [List.splitOn_eq_singleton ended]
        simp only [selfCgroupFrom, here, eol, length, Option.bind_eq_bind, Option.bind_some, if_neg nonzero,
          Option.map_some, Option.map_none]
        exact found

theorem selfCgroup_finds {text : Bytes} (noNul : 0 ∉ text) (room : 1 < out.length) :
    Finds v2 (text.splitOn newline) out (selfCgroup (text ++ [0]) v2 out) := by
  obtain ⟨old, after, rfl⟩ := List.exists_cons_of_length_pos (Nat.lt_trans Nat.zero_lt_one room)
  have emptied : write (old :: after) 0 0 = some (0 :: after) := @write_append [] 0 after old
  have empty : stringOf (0 :: after) = [] := stringOf_append List.not_mem_nil
  have found := @selfCgroupFrom_finds v2 (0 :: after) room empty ((text ++ [0]).length + 1) [] text noNul (by
    rw [List.length_append, List.length_singleton]
    omega)
  simp only [selfCgroup, emptied, Option.bind_eq_bind, Option.bind_some]
  exact found

/--
`self_cgroup` on any text, with a buffer of any size above one: every access
stays inside the text and its terminator and the loops end, and the buffer
holds the path of the first line of the hierarchy as the grammar has it, cut to
the room that there is, or nothing if there is no such line.
-/
theorem self_cgroup_extracts (text : Bytes) (v2 : Bool) (out : Bytes) (noNul : 0 ∉ text) (room : 1 < out.length) :
    Exists fun filled => selfCgroup (text ++ [0]) v2 out = some filled ∧ filled.length = out.length ∧
      (Exists fun path => Extracts v2 (text.splitOn newline) path) ∧
      forall path, Extracts v2 (text.splitOn newline) path ->
        stringOf filled = rootless ((path.getD []).take (out.length - 1)) := by
  obtain ⟨filled, path, found, extracts, same, holds⟩ := @selfCgroup_finds v2 out text noNul room
  refine ⟨filled, found, same, ⟨path, extracts⟩, ?_⟩
  intro pathToo extractsToo
  rw [extracts.unique extractsToo]
  exact holds

/-- The lines "1:cpuset:/a" and "2:cpuacct,cpu:/b:c". -/
def twoControllers : Bytes :=
  [49, 58, 99, 112, 117, 115, 101, 116, 58, 47, 97] ++ newline ::
    [50, 58, 99, 112, 117, 97, 99, 99, 116, 44, 99, 112, 117, 58, 47, 98, 58, 99]

/-- Four bytes hold "/b:". -/
theorem self_cgroup_twoControllers :
    Exists fun filled => selfCgroup (twoControllers ++ [0]) false [1, 2, 3, 4] = some filled ∧
      stringOf filled = [47, 98, 58] := by
  obtain ⟨filled, found, _, _, holds⟩ := self_cgroup_extracts twoControllers false [1, 2, 3, 4] (by decide) (by decide)
  have cpuset : HasFields [49, 58, 99, 112, 117, 115, 101, 116, 58, 47, 97] [99, 112, 117, 115, 101, 116] [47, 97] :=
    ⟨[49], by decide, by decide, by decide⟩
  have cpuacct : HasFields [50, 58, 99, 112, 117, 97, 99, 99, 116, 44, 99, 112, 117, 58, 47, 98, 58, 99]
      [99, 112, 117, 97, 99, 99, 116, 44, 99, 112, 117] [47, 98, 58, 99] :=
    ⟨[50], by decide, by decide, by decide⟩
  have extracts : Extracts false (twoControllers.splitOn newline) (some [47, 98, 58, 99]) := by
    refine .later ?_ (.here [] cpuacct (by decide))
    intro controllers path fields
    rw [(cpuset.unique fields).1]
    decide
  exact ⟨filled, found, holds _ extracts⟩

end Search

end Cgroup

end Threading
end Sweater
